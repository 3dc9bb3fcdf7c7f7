/-!
# The log

Every entry has a level, a message and named fields, and it knows the spans in which it was
written, from the outside in.
-/

namespace CacheAside

/-- How important an entry is. -/
inductive Level where
  | debug
  | info
  | warn
  deriving DecidableEq, Repr

def Level.name : Level → String
  | .debug => "DEBUG"
  | .info => "INFO"
  | .warn => "WARN"

/-- Named texts. -/
abbrev LogFields := List (String × String)

/-- A part of the work that entries belong to. -/
structure Span where
  name : String
  level : Level
  fields : LogFields
  deriving DecidableEq, Repr

/-- What is said, without where it is said. -/
structure Remark where
  level : Level
  message : String
  fields : LogFields := []
  deriving DecidableEq, Repr

/-- An entry of the log. -/
structure LogEntry where
  remark : Remark
  spans : List Span
  deriving DecidableEq, Repr

end CacheAside
