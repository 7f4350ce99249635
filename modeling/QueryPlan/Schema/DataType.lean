import QueryPlan.Text.Quoted
/-!
# Data types of columns

A column holds texts, 64-bit integers, truth values or binary64 numbers. A reader stores a column
of each type in one of two layouts, by whether cells may be missing. A layout is known to the rest
of the library by its name only, and a data type is recovered from a layout's name by the words in
it.
-/
namespace QueryPlan

inductive DataType where
  | utf8
  | int64
  | boolean
  | float64
  deriving DecidableEq, Repr

/-- The layouts in which a reader stores columns. -/
inductive Storage where
  | string
  | int64
  | uint64
  | nullableInt64
  | bool
  | nullableBoolean
  | float64
  | nullableFloat64
  deriving DecidableEq, Repr

inductive DataTypeError where
  /-- No data type has this name. -/
  | unknownName (name : String)
  /-- No data type is stored in a layout of this name. -/
  | unsupportedStorage (name : String)
  deriving DecidableEq, Repr

def DataTypeError.message : DataTypeError → String
  | .unknownName name => Text.quoted name ++ " is not a valid DType"
  | .unsupportedStorage name => "Unsupported pandas dtype: " ++ name

def Storage.name : Storage → String
  | .string => "string"
  | .int64 => "int64"
  | .uint64 => "uint64"
  | .nullableInt64 => "Int64"
  | .bool => "bool"
  | .nullableBoolean => "boolean"
  | .float64 => "float64"
  | .nullableFloat64 => "Float64"

namespace DataType

def all : List DataType :=
  [.utf8, .int64, .boolean, .float64]

def name : DataType → String
  | .utf8 => "utf8"
  | .int64 => "int64"
  | .boolean => "boolean"
  | .float64 => "float64"

def symbol : DataType → String
  | .utf8 => "UTF8"
  | .int64 => "INT64"
  | .boolean => "BOOLEAN"
  | .float64 => "FLOAT64"

def shown (t : DataType) : String :=
  "<DType." ++ t.symbol ++ ": " ++ Text.quoted t.name ++ ">"

def ofName (name : String) : Except DataTypeError DataType :=
  match all.find? fun t => t.name == name with
  | some t => .ok t
  | none => .error (.unknownName name)

/-- The layout a reader uses; a nullable column is stored so that missing cells keep its type. -/
def storage : DataType → Bool → Storage
  | .utf8, _ => .string
  | .int64, false => .int64
  | .int64, true => .nullableInt64
  | .boolean, false => .bool
  | .boolean, true => .nullableBoolean
  | .float64, false => .float64
  | .float64, true => .nullableFloat64

def occursIn (word : List Char) : List Char → Bool
  | [] => word.isEmpty
  | c :: cs => word.isPrefixOf (c :: cs) || occursIn word cs

/-- The data type stored in a layout of the given name, by the first of the words that occurs in
it. Letter case does not matter, and only ASCII letters can complete one of the words. -/
def ofStorageName (name : String) : Except DataTypeError DataType :=
  let has word := occursIn word (name.toList.map Char.toLower)
  if has ['i', 'n', 't'] then .ok .int64
  else if has ['f', 'l', 'o', 'a', 't'] then .ok .float64
  else if has ['b', 'o', 'o', 'l'] then .ok .boolean
  else if has ['o', 'b', 'j', 'e', 'c', 't'] || has ['s', 't', 'r', 'i', 'n', 'g'] then .ok .utf8
  else .error (.unsupportedStorage name)

@[simp] theorem ofName_name (t : DataType) : ofName t.name = .ok t := by
  cases t <;> rfl

@[simp] theorem ofStorageName_storage (t : DataType) (nullable : Bool) :
    ofStorageName (t.storage nullable).name = .ok t := by
  cases t <;> cases nullable <;> rfl

end DataType
end QueryPlan
