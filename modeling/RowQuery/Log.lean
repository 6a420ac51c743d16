import RowQuery.Text.Caseless

/-!
# Log records

Compilation, execution and configuration leave records. A record has a level, a target and a
message. Records are written to one of three files by their target, those of the compiler and of
the executor apart from all others, and only up to a level.

## Main definitions

* `Log.Level`, `Log.Filter`: how severe a record is, and up to where records are kept.
* `Log.Record`: a record.
* `Log.Filter.ofText`: the filter of a name.
* `Log.Files.ofRecords`: the lines of the three files.
-/

namespace RowQuery.Log

/-- How severe a record is. -/
inductive Level where
  | error
  | warn
  | info
  | debug
  | trace
  deriving DecidableEq, Repr

namespace Level

/-- The name of a level. -/
def display : Level → String
  | error => "ERROR"
  | warn => "WARN"
  | info => "INFO"
  | debug => "DEBUG"
  | trace => "TRACE"

/-- The place of a level, the most severe first. -/
def rank : Level → Nat
  | error => 1
  | warn => 2
  | info => 3
  | debug => 4
  | trace => 5

end Level

/-- Records are kept up to a level, or not at all. -/
inductive Filter where
  | off
  | upTo (level : Level)
  deriving DecidableEq, Repr

namespace Filter

/-- The filter of a name, without regard to case; a name that is none stands for `info`. -/
def ofText (name : String) : Filter :=
  if Text.sameName name "off" then off
  else if Text.sameName name "error" then upTo .error
  else if Text.sameName name "warn" then upTo .warn
  else if Text.sameName name "debug" then upTo .debug
  else if Text.sameName name "trace" then upTo .trace
  else upTo .info

/-- The filter of an optional name. -/
def ofOption : Option String → Filter
  | some name => ofText name
  | none => upTo .info

/-- The name of a filter. -/
def display : Filter → String
  | off => "OFF"
  | upTo level => level.display

/-- Records of the level are kept. -/
def keeps : Filter → Level → Bool
  | off, _ => false
  | upTo bound, level => level.rank ≤ bound.rank

end Filter

/-! ### Records and files -/

/-- The target of the compiler. -/
def compileTarget : String := "gridquery::compile"

/-- The target of the executor. -/
def queryTarget : String := "gridquery::query"

/-- The target of the configuration. -/
def configTarget : String := "gridquery::config"

/-- The target of schemas. -/
def schemaTarget : String := "gridquery::schema"

/-- A record. -/
structure Record where
  level : Level
  target : String
  message : String
  deriving DecidableEq, Repr

/-- The line of a record, without its time. -/
def Record.line (r : Record) : String :=
  "[" ++ r.level.display ++ "] " ++ r.target ++ " - " ++ r.message

/-- The lines of the three files. -/
structure Files where
  app : List String
  compile : List String
  query : List String
  deriving DecidableEq, Repr

/-- The lines of the records that a filter keeps, each in the file of its target. -/
def Files.ofRecords (f : Filter) (records : List Record) : Files :=
  let kept := records.filter fun r => f.keeps r.level
  { app := (kept.filter fun r => r.target != compileTarget && r.target != queryTarget).map
      Record.line
    compile := (kept.filter fun r => r.target == compileTarget).map Record.line
    query := (kept.filter fun r => r.target == queryTarget).map Record.line }

end RowQuery.Log
