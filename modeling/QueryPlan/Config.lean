import QueryPlan.Text.Quoted
/-!
# Settings of data sources

A configuration says how a delimited file is read: how many rows go into a batch, whether the first
line is a header and which character separates cells. The batch size is positive in every
configuration, so it is checked where one is made.
-/
namespace QueryPlan

structure Config where
  batchSize : Nat
  hasHeader : Bool
  delimiter : String
  batchSize_pos : 0 < batchSize
  deriving DecidableEq

inductive Setting where
  | batchSize (n : Int)
  | hasHeader (b : Bool)
  | delimiter (s : String)
  /-- A name that is no setting. -/
  | unknown (name : String)
  deriving DecidableEq, Repr

namespace Setting

def batchSize? : Setting → Option Int
  | .batchSize n => some n
  | _ => none

def hasHeader? : Setting → Option Bool
  | .hasHeader b => some b
  | _ => none

def delimiter? : Setting → Option String
  | .delimiter s => some s
  | _ => none

def unknown? : Setting → Option String
  | .unknown name => some name
  | _ => none

end Setting

inductive SettingsOwner where
  | config
  | source
  deriving DecidableEq, Repr

inductive ConfigError where
  | unknownSetting (owner : SettingsOwner) (name : String)
  | batchSizeNotPositive (n : Int)
  deriving DecidableEq, Repr

def SettingsOwner.name : SettingsOwner → String
  | .config => "ExecutionConfig"
  | .source => "CsvDataSource"

def ConfigError.message : ConfigError → String
  | .unknownSetting owner name =>
    owner.name ++ ".__init__() got an unexpected keyword argument " ++ "'" ++ name ++ "'"
  | .batchSizeNotPositive n => "batch_size must be positive, got " ++ toString n

namespace Config

def standard : Config :=
  ⟨1024, false, ",", by decide⟩

def ofValues (batchSize : Int) (hasHeader : Bool) (delimiter : String) :
    Except ConfigError Config :=
  if h : 0 < batchSize then .ok ⟨batchSize.toNat, hasHeader, delimiter, by omega⟩
  else .error (.batchSizeNotPositive batchSize)

def firstUnknown (changes : List Setting) : Option String :=
  changes.findSome? Setting.unknown?

/-- The value given to a setting last, or else the one it had. -/
def lastOr {α : Type} (pick : Setting → Option α) (old : α) (changes : List Setting) : α :=
  (changes.reverse.findSome? pick).getD old

/-- The configuration with some settings changed. A name that is no setting is refused first,
whatever the values are. -/
def withSettings (c : Config) (changes : List Setting) (owner : SettingsOwner := .config) :
    Except ConfigError Config :=
  match firstUnknown changes with
  | some name => .error (.unknownSetting owner name)
  | none =>
    ofValues (lastOr Setting.batchSize? c.batchSize changes)
      (lastOr Setting.hasHeader? c.hasHeader changes)
      (lastOr Setting.delimiter? c.delimiter changes)

def shown (c : Config) : String :=
  "ExecutionConfig(batch_size=" ++ toString c.batchSize ++ ", has_header=" ++
    Text.truth c.hasHeader ++ ", delimiter=" ++ Text.quoted c.delimiter ++ ")"

end Config
end QueryPlan
