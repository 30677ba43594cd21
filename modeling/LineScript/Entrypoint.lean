/-!
# Entrypoint names

An entrypoint is a function that the runtime calls by itself, so only the names
that the runtime knows are allowed for one.
-/

namespace LineScript

namespace Entrypoint

/-- The names that an entrypoint may have. -/
def names : List String := ["main"]

/-- Whether an entrypoint may be called `name`. -/
def isAllowed (name : String) : Bool :=
  names.contains name

end Entrypoint

end LineScript
