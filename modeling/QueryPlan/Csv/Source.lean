import QueryPlan.Config
import QueryPlan.Schema.Basic
/-!
# Delimited files as data sources

A source is a path together with the schema of the file's columns and the settings it is read with.
The file itself is looked at only when the source is scanned.
-/
namespace QueryPlan

structure CsvSource where
  schema : Schema
  path : String
  config : Config
  deriving DecidableEq

namespace CsvSource

def ofSettings (schema : Schema) (path : String) (settings : List Setting) :
    Except ConfigError CsvSource := do
  return ⟨schema, path, ← Config.standard.withSettings settings .source⟩

def shown (s : CsvSource) : String :=
  "CsvDataSource(path=" ++ Text.quoted s.path ++ ", fields=" ++
    Text.quotedList s.schema.names ++ ")"

end CsvSource
end QueryPlan
