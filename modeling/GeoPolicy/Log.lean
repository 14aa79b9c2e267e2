import GeoPolicy.RangeTable

/-!
# Log records

What the library tells about its work, as leveled lines of text.

## Main definitions

* `LogLevel`, `LogRecord` — a line and how urgent it is.
* `LoadEvent.record` — the line for an event while a ruleset is loaded.
-/

namespace GeoPolicy

/-- How urgent a log line is. -/
inductive LogLevel where
  | warn
  | info
  | debug
  deriving DecidableEq, Repr

/-- The name of a level. -/
def LogLevel.name : LogLevel → String
  | warn => "WARN"
  | info => "INFO"
  | debug => "DEBUG"

/-- A log line. -/
structure LogRecord where
  level : LogLevel
  text : String
  deriving DecidableEq, Repr

/-- The log line for an event while a ruleset is loaded. -/
def LoadEvent.record : LoadEvent → LogRecord
  | retagged cidr before after => ⟨.debug, s!"{cidr} re-tagged from {before} to {after}"⟩
  | skipped region error => ⟨.warn, s!"skipping {region} range: {error.message}"⟩
  | incomplete count total => ⟨.warn, s!"{count} of {total} ranges not loaded"⟩

end GeoPolicy
