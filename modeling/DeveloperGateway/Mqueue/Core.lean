/-
# The elements of a mailbox

`core.Element` and `core.Elements` of `mqueue/core`: what both mailboxes, the redis one and
the in-memory one, store under a key and hand back from a window.
-/

namespace DeveloperGateway.Mqueue

/-- `core.Element`, with its value a Go string: a list of bytes. -/
structure Element where
  offset : UInt64
  type : String
  value : List Nat
  deriving DecidableEq, Repr

/-- `core.Elements`: the set elements of a window and the window's offset. -/
structure Elements where
  elements : List Element
  offset : UInt64
  deriving DecidableEq, Repr

end DeveloperGateway.Mqueue
