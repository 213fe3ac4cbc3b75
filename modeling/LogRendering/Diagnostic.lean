import LogRendering.Level

/-!
# Diagnostics

A diagnostic is what the library itself has to say while it works: a severity, a
message, and named fields.
-/

namespace LogRendering

/-- A remark of the library about its own work, with `fields` that name what it is about. -/
structure Diagnostic where
  level : Level
  message : String
  fields : List (String × String)
deriving DecidableEq

end LogRendering
