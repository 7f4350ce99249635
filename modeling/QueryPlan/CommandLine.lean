import QueryPlan.Context
import QueryPlan.Text.Digit
/-!
# The command line

The program builds an example query over a file and prints its plan. Switches may stand anywhere
before a lone `--`; a long one may be shortened as long as it stays unique, and the letters of short
ones may be run together, also after an equals sign. What the program prints and the code it ends
with are computed here from the arguments alone.
-/
namespace QueryPlan.CommandLine

inductive Switch where
  | help
  | schema
  | verbose
  deriving DecidableEq, Repr

def flags : List (String × Switch) :=
  [("-h", .help), ("--help", .help), ("--schema", .schema), ("-v", .verbose),
   ("--verbose", .verbose)]

def Switch.name : Switch → String
  | .help => "-h/--help"
  | .schema => "--schema"
  | .verbose => "-v/--verbose"

inductive UsageError where
  | ambiguous (argument : String) (candidates : List String)
  | ignoredArgument (switch : Switch) (argument : String)
  | unrecognized (arguments : List String)
  deriving DecidableEq, Repr

def UsageError.message : UsageError → String
  | .ambiguous argument candidates =>
    "ambiguous option: " ++ argument ++ " could match " ++ Text.commaSeparated candidates
  | .ignoredArgument switch argument =>
    "argument " ++ switch.name ++ ": ignored explicit argument " ++ Text.quoted argument
  | .unrecognized arguments => "unrecognized arguments: " ++ " ".intercalate arguments

inductive Token where
  | positional (text : String)
  /-- The lone `--`, after which nothing is a switch. -/
  | separator
  /-- A switch, and what is attached to it. -/
  | switch (switch : Switch) (short : Bool) (attached : Option (List Char))
  /-- What looks like a switch and is none. -/
  | unknown (text : String)
  deriving DecidableEq, Repr

def cutAtEquals (cs : List Char) : List Char × Option (List Char) :=
  match cs.dropWhile (· != '=') with
  | [] => (cs, none)
  | _ :: value => (cs.takeWhile (· != '='), some value)

/-- Whether a text is a dash and a number, with an optional line feed after it. -/
def isNegativeNumber (cs : List Char) : Bool :=
  match cs with
  | '-' :: cs =>
    let cs := if cs.getLast? = some '\n' then cs.dropLast else cs
    match cs.dropWhile Text.isDecimalDigit with
    | [] => !cs.isEmpty
    | '.' :: fraction => !fraction.isEmpty && fraction.all Text.isDecimalDigit
    | _ => false
  | _ => false

def completions (start : List Char) : List (String × Switch) :=
  flags.filter fun flag => start.isPrefixOf flag.1.toList

def classifyDashed (text : String) : Except UsageError Token :=
  let cs := text.toList
  let (name, attached) := cutAtEquals cs
  match flags.lookup text with
  | some switch => .ok (.switch switch (cs.length == 2) none)
  | none =>
    match flags.lookup (String.ofList name) with
    | some switch => .ok (.switch switch (name.length == 2) attached)
    | none =>
      let candidates :=
        if cs.take 2 = ['-', '-'] then (completions name).map fun flag => (flag, attached)
        else (flags.filter fun flag => flag.1.toList == cs.take 2).map fun flag =>
          (flag, some (cs.drop 2))
      match candidates with
      | [(flag, attached)] => .ok (.switch flag.2 (flag.1.length == 2) attached)
      | [] =>
        if isNegativeNumber cs || cs.contains ' ' then .ok (.positional text)
        else .ok (.unknown text)
      | _ => .error (.ambiguous text (candidates.map fun candidate => candidate.1.1))

def classify (text : String) : Except UsageError Token :=
  match text.toList with
  | '-' :: _ :: _ => classifyDashed text
  | _ => .ok (.positional text)

def classifyAll : List String → Except UsageError (List Token)
  | [] => .ok []
  | "--" :: rest => .ok (.separator :: rest.map .positional)
  | text :: rest => do
    let token ← classify text
    return token :: (← classifyAll rest)

/-- The short switches that a switch and the letters after it stand for. From the first letter on
that is none, the letters are an argument of the switch before them. -/
def runTogether (switch : Switch) : List Char → Except UsageError (List Switch)
  | [] => .ok [switch]
  | c :: rest =>
    match flags.lookup (String.ofList ['-', c]) with
    | some next => do return switch :: (← runTogether next rest)
    | none => .error (.ignoredArgument switch (String.ofList (c :: rest)))

def expand (switch : Switch) (short : Bool) : Option (List Char) → Except UsageError (List Switch)
  | none => .ok [switch]
  | some cs =>
    if short && !cs.isEmpty then runTogether switch cs
    else .error (.ignoredArgument switch (String.ofList cs))

structure Arguments where
  path : Option String := none
  showSchema : Bool := false
  verbose : Bool := false
  /-- Arguments nothing was made of, latest first. -/
  left : List String := []
  /-- Whether the path was the argument just before. -/
  justNamed : Bool := false
  deriving DecidableEq, Repr

inductive Request where
  | help
  | print (path : String) (showSchema verbose : Bool)
  deriving DecidableEq, Repr

def Arguments.turnOn (a : Arguments) : Switch → Arguments
  | .help => a
  | .schema => { a with showSchema := true }
  | .verbose => { a with verbose := true }

def defaultPath : String :=
  "test.csv"

/-- Take the arguments one by one. The first positional one is the path. The separator belongs to
the path when it stands directly before or after it, and also when there is no path. Asking for help
ends everything else. -/
def take (a : Arguments) : List Token → Except UsageError Request
  | [] =>
    match a.left with
    | [] => .ok (.print (a.path.getD defaultPath) a.showSchema a.verbose)
    | left => .error (.unrecognized left.reverse)
  | .positional text :: rest =>
    match a.path with
    | none => take { a with path := some text, justNamed := true } rest
    | some _ => take { a with left := text :: a.left, justNamed := false } rest
  | .separator :: rest =>
    if a.path.isNone || a.justNamed then take { a with justNamed := false } rest
    else take { a with left := "--" :: a.left, justNamed := false } rest
  | .unknown text :: rest => take { a with left := text :: a.left, justNamed := false } rest
  | .switch switch short attached :: rest => do
    let switches ← expand switch short attached
    if switches.contains .help then return .help
    take { switches.foldl Arguments.turnOn a with justNamed := false } rest

def request (arguments : List String) : Except UsageError Request := do
  take {} (← classifyAll arguments)

structure Report where
  code : UInt8
  stdout : String
  stderr : String
  log : List LogRecord := []

def usage : String :=
  "usage: planwright [-h] [--schema] [-v] [path]\n"

def helpText : String :=
  usage ++ "\nPrint the logical plan of an example query over a CSV file.\n\n" ++
  "positional arguments:\n" ++
  "  path           CSV file the plan scans\n\n" ++
  "options:\n" ++
  "  -h, --help     show this help message and exit\n" ++
  "  --schema       Also print the output schema\n" ++
  "  -v, --verbose  Enable debug logging\n"

def exampleSchema : Schema :=
  ⟨[⟨"column1", .int64, false⟩, ⟨"column2", .int64, false⟩, ⟨"column3", .int64, false⟩]⟩

/-- Two columns of the rows of a file whose first column has a certain value. -/
def exampleQuery (path : String) : Outcome ContextError Query :=
  (Context.ofConfig.csv exampleSchema path).bind fun q =>
    ((q.filter (.logic .eq (.column "column1") (.integer 123))).bind fun q =>
      q.select [.column "column1", .column "column3"]).mapError .plan

def run (arguments : List String) : Report :=
  match request arguments with
  | .error e => ⟨2, "", usage ++ "planwright: error: " ++ e.message ++ "\n", []⟩
  | .ok .help => ⟨0, helpText, "", []⟩
  | .ok (.print path showSchema verbose) =>
    let query := exampleQuery path
    match query.result with
    | .error e => ⟨1, "", e.message ++ "\n", []⟩
    | .ok q =>
      ⟨0, q.explain ++ (if showSchema then "\n" ++ q.schema.display ++ "\n" else ""), "",
        if verbose then query.log else []⟩

end QueryPlan.CommandLine
