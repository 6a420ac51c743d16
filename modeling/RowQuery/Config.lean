import RowQuery.Reading
import RowQuery.Registry

/-!
# Configurations

What is used where a filter does not say otherwise: a deserializer, if there is one, and the
registry of operators.

## Main definitions

* `Config`: a deserializer and a registry.
* `Config.builtin`, `Config.json`: the built-in operators, without a deserializer and with the one
  for JSON.
-/

namespace RowQuery

/-- What is used where a filter does not say otherwise. -/
structure Config where
  deserializer : Option Deserializer
  operators : Registry

namespace Config

/-- The built-in operators and no deserializer. -/
def builtin : Config := ⟨none, .builtin⟩

/-- The built-in operators and the reader of JSON texts. -/
def json : Config := ⟨some .json, .builtin⟩

/-- What can be seen of a configuration. -/
def inspect (c : Config) : String :=
  "CompilerConfig \x7b deserializer: " ++ Text.showBool c.deserializer.isSome ++ ", operators: "
    ++ c.operators.inspectNames ++ " \x7d"

end Config

end RowQuery
