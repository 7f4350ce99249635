import QueryPlan.Csv.Fault
/-!
# Files by path

A folder holds files, and files in folders below it, each under the names that lead to it. A path is
followed name by name. An empty name and `.` stay where they are and `..` goes back; what lies above
the folder is empty. A path that ends in a folder, or that goes on behind a file, cannot be opened,
and neither can one that is too long.
-/
namespace QueryPlan.Csv

/-- The files of a folder and of the folders below it, by path. -/
structure Folder where
  files : List (String × ByteArray)

inductive Spot where
  /-- A folder, by the names that lead to it, latest first. -/
  | folder (names : List String)
  /-- A folder outside the one that is known. -/
  | outside
  | file (bytes : ByteArray)

def longestName : Nat := 255

def pathLimit : Nat := 4096

def pathNames (path : String) : List String :=
  (path.toList.foldr (fun c names =>
    match c, names with
    | '/', names => [] :: names
    | c, [] => [[c]]
    | c, name :: names => (c :: name) :: names) [[]]).map String.ofList

example : pathNames "a/./b.csv" = ["a", ".", "b.csv"] := by decide

namespace Folder

def entries (f : Folder) : List (List String × ByteArray) :=
  f.files.map fun (path, bytes) => (pathNames path, bytes)

/-- Follow a name that is neither empty nor made of dots from a folder. -/
def enter (f : Folder) (names : List String) (name : String) : Except SourceFault Spot :=
  let target := (name :: names).reverse
  match f.entries.lookup target with
  | some bytes => .ok (.file bytes)
  | none =>
    if f.entries.any fun (names, _) => target.isPrefixOf names then .ok (.folder (name :: names))
    else .error .missingFile

def step (f : Folder) (spot : Spot) (name : String) : Except SourceFault Spot :=
  if longestName < name.utf8ByteSize then .error .unreadableFile
  else
    match spot with
    | .file _ => .error .unreadableFile
    | .outside =>
      if name = "" ∨ name = "." ∨ name = ".." then .ok .outside else .error .missingFile
    | .folder names =>
      if name = "" ∨ name = "." then .ok spot
      else if name = ".." then
        match names with
        | [] => .ok .outside
        | _ :: names => .ok (.folder names)
      else f.enter names name

def read (f : Folder) (path : String) : Except SourceFault ByteArray :=
  if path.toList.contains '\x00' then .error .malformed
  else if path = "" then .error .missingFile
  else if pathLimit ≤ path.utf8ByteSize then .error .unreadableFile
  else do
    let start := if path.startsWith "/" then Spot.outside else .folder []
    match ← (pathNames path).foldlM f.step start with
    | .file bytes => .ok bytes
    | _ => .error .unreadableFile

end Folder
end QueryPlan.Csv
