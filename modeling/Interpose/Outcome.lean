/-!
How a computation ends that runs code it was handed: with a value, with an error of its own kind,
or with that code panicking, which unwinds through everything that called it.
-/

set_option autoImplicit false

namespace Interpose

inductive Halt (ε : Type) where
  | error (cause : ε)
  | panic (message : String)
deriving DecidableEq, Repr

abbrev Outcome (ε α : Type) := Except (Halt ε) α

end Interpose
