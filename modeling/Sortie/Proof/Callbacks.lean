import Mathlib.Data.Multiset.MapFold
import Sortie.Engine.Callbacks

/-!
# Callbacks as multisets

Which callbacks are due to run and which were invoked, for the ledgers of the clients.
-/

namespace Sortie.Engine.Callbacks

variable (b : Callbacks) (id : Nat) (complete success : Bool)

def due : Multiset Nat := (b.posted.map (·.1) : List Nat)

def done : Multiset Nat := (b.invoked.map (·.1) : List Nat)

/-- A callback at the end of a list of them. -/
theorem coe_map_snoc (l : List (Nat × Bool × Bool)) (p : Nat × Bool × Bool) :
    (((l ++ [p]).map (·.1) : List Nat) : Multiset Nat) = p.1 ::ₘ (l.map (·.1) : List Nat) := by
  rw [List.map_append, ← Multiset.coe_add, Multiset.add_comm]
  rfl

theorem due_post : (b.post id complete success).due = id ::ₘ b.due := coe_map_snoc _ _

theorem done_invoke : (b.invoke id complete success).done = id ::ₘ b.done := coe_map_snoc _ _

theorem count_due : b.due.count id = (b.posted.map (·.1)).count id := Multiset.coe_count _ _

theorem count_done : b.done.count id = (b.invoked.map (·.1)).count id := Multiset.coe_count _ _

theorem runPosted_some {b b' : Callbacks} (h : b.runPosted = some b') :
    b'.calls = b.calls ∧ ∃ id, b.due = id ::ₘ b'.due ∧ b'.done = id ::ₘ b.done := by
  unfold runPosted at h
  cases hp : b.posted with
  | nil =>
    rw [hp] at h
    cases h
  | cons p rest =>
    rw [hp] at h
    cases h
    refine ⟨rfl, p.1, ?_, coe_map_snoc _ _⟩
    unfold due
    rw [hp]
    rfl

end Sortie.Engine.Callbacks
