import RowQuery.Config
import RowQuery.Log

/-!
# Process-wide defaults

The defaults are one configuration that all parts of a process read and write. A write replaces it
as a whole in one step; what was read before stays as it was.

A write is a value here, and its effect a function of the defaults at that moment. An order of
writes, from however many places, is then a list of them, and what is published after it is a left
fold: there is no state in between that a reader could see.

## Main definitions

* `Defaults.Write`: the ways of writing.
* `Defaults.Write.apply`: the defaults after a write.
* `Defaults.Write.record?`: the log record that a write leaves.
-/

namespace RowQuery.Defaults

/-- The defaults before any write. -/
def initial : Config := .builtin

/-- A write to the defaults. -/
inductive Write where
  /-- Both fields are replaced. -/
  | set (config : Config)
  | setDeserializer (d : Option Deserializer)
  | setOperators (r : Registry)
  /-- A copy of the defaults is changed and takes their place. -/
  | update (change : Config → Config)
  /-- Back to the start. -/
  | reset

namespace Write

/-- The defaults after a write, from those at that moment. -/
def apply (current : Config) : Write → Config
  | set config => config
  | setDeserializer d => { current with deserializer := d }
  | setOperators r => { current with operators := r }
  | update change => change current
  | reset => initial

/-- The log record that a write leaves. -/
def record? : Write → Option Log.Record
  | set _ => some ⟨.info, Log.configTarget, "compiler defaults replaced"⟩
  | setDeserializer d =>
    some ⟨.info, Log.configTarget,
      "default deserializer " ++ if d.isSome then "set" else "cleared"⟩
  | setOperators r =>
    some ⟨.info, Log.configTarget, "default operators set: " ++ r.inspectNames⟩
  | update _ | reset => none

end Write

end RowQuery.Defaults
