/-!
# The completion callbacks of a client's callers

`tryStartRequest` is given a callback, which the client invokes itself or posts to the
dispatcher for it to run later. A callback is known here by the call it came with. It
notes the completion and may schedule work, and does not call the client back.
-/

namespace Sortie.Engine

/-- The callbacks given so far, those that are posted and those that were invoked, in order and with
their arguments `complete` and `success`. -/
structure Callbacks where
  /-- how often `tryStartRequest` was called -/
  calls : Nat := 0
  posted : List (Nat × Bool × Bool) := []
  invoked : List (Nat × Bool × Bool) := []
  deriving DecidableEq, Repr

namespace Callbacks

variable (b : Callbacks)

/-- A call comes with its callback, `b.calls`. -/
def give : Callbacks := { b with calls := b.calls + 1 }

/-- `dispatcher_.post([cb]() { cb(complete, success); })`. -/
def post (id : Nat) (complete success : Bool) : Callbacks :=
  { b with posted := b.posted ++ [(id, complete, success)] }

def invoke (id : Nat) (complete success : Bool) : Callbacks :=
  { b with invoked := b.invoked ++ [(id, complete, success)] }

/-- The dispatcher runs what was posted first. -/
def runPosted : Option Callbacks :=
  match b.posted with
  | [] => none
  | p :: rest => some { b with posted := rest, invoked := b.invoked ++ [p] }

end Callbacks

end Sortie.Engine
