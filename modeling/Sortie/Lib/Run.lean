import Mathlib.Data.List.Induction

/-!
# Runs of a labelled transition system

A step relation `step s e t` says that the label `e` can take `s` to `t`. A run
is a list of labels taken one after another. The list grows at its end, so an
induction over a run meets the *last* step first, which is the step an invariant
has to survive.

An invariant that every step keeps holds at the end of every run, and only the
labels that occur in the run have to keep it.
-/

namespace Lts

variable {σ ε : Type*}

/-- Taking the steps `es` one after another leads from the first state to the last. -/
inductive Run (step : σ → ε → σ → Prop) (s : σ) : List ε → σ → Prop where
  | nil : Run step s [] s
  | snoc {es : List ε} {e : ε} {t u : σ} :
      Run step s es t → step t e u → Run step s (es ++ [e]) u

variable {step : σ → ε → σ → Prop} {s t u : σ} {es : List ε}

theorem Run.append {es' : List ε} (h : Run step s es t) (h' : Run step t es' u) :
    Run step s (es ++ es') u := by
  induction h' with
  | nil =>
    rw [List.append_nil]
    exact h
  | snoc _ hs ih =>
    rw [← List.append_assoc]
    exact ih.snoc hs

theorem Run.cons {e : ε} (h : step s e t) (h' : Run step t es u) : Run step s (e :: es) u :=
  (Run.nil.snoc h).append h'

section

variable (h : Run step s es t)
include h

/-- A run of one relation is a run of every relation that allows its steps. -/
theorem Run.mono {step' : σ → ε → σ → Prop} (hle : ∀ a e b, step a e b → step' a e b) :
    Run step' s es t := by
  induction h with
  | nil => exact Run.nil
  | snoc _ hs ih => exact ih.snoc (hle _ _ _ hs)

/-- **The invariant rule**, for an invariant kept by the labels that satisfy `C`. -/
theorem Run.invariant_on {C : ε → Prop} {P : σ → Prop} (hC : ∀ e ∈ es, C e) (h0 : P s)
    (hstep : ∀ a e b, C e → P a → step a e b → P b) : P t := by
  induction h with
  | nil => exact h0
  | snoc hr hs ih =>
    have hpre := ih (fun e he => hC e (List.mem_append_left _ he))
    exact hstep _ _ _ (hC _ (by simp)) hpre hs

/-- **The invariant rule.** -/
theorem Run.invariant {P : σ → Prop} (h0 : P s) (hstep : ∀ a e b, P a → step a e b → P b) : P t :=
  h.invariant_on (C := fun _ => True) (fun _ _ => trivial) h0
    (fun a e b _ ha hs => hstep a e b ha hs)

/-- An invariant whose steps may rest on a property that every run from `s` establishes. -/
theorem Run.invariant_under {P Q : σ → Prop} (hQ : ∀ {es b}, Run step s es b → Q b) (h0 : P s)
    (hstep : ∀ a e b, Q a → P a → step a e b → P b) : P t := by
  induction h with
  | nil => exact h0
  | snoc hr hs ih => exact hstep _ _ _ (hQ hr) ih hs

/-- What grows by one with each label that satisfies `p`, and with no other, counts them. -/
theorem Run.count {p : ε → Bool} {f : σ → Nat}
    (hstep : ∀ a e b, step a e b → f b = f a + if p e then 1 else 0) : f t = f s + es.countP p := by
  induction h with
  | nil => rfl
  | @snoc es e _ _ _ hs ih =>
    rw [hstep _ _ _ hs, ih, List.countP_append, List.countP_singleton, Nat.add_assoc]

end

/-- A guarded step was taken because the guard holds. -/
theorem guarded {p : Prop} [Decidable p] (h : (if p then some s else none) = some t) :
    p ∧ t = s := by
  split at h
  · rename_i hp
    exact ⟨hp, (Option.some.inj h).symm⟩
  · cases h

/-- A step function that may refuse its label runs as far as folding it over the labels does. -/
theorem Run.of_foldlM {f : σ → ε → Option σ} (h : es.foldlM f s = some t) :
    Run (fun a e b => f a e = some b) s es t := by
  induction es using List.reverseRecOn generalizing t with
  | nil =>
    cases h
    exact Run.nil
  | append_singleton es e ih =>
    rw [List.foldlM_append] at h
    obtain ⟨u, hu, hlast⟩ := Option.bind_eq_some_iff.mp h
    exact Run.snoc (ih hu) (by simpa using hlast)

/-- Such a run, and what follows from it. -/
theorem Run.of_foldlM_and {f : σ → ε → Option σ} {P : Prop} (h : es.foldlM f s = some t)
    (hP : Run (fun a e b => f a e = some b) s es t → P) :
    Run (fun a e b => f a e = some b) s es t ∧ P :=
  ⟨Run.of_foldlM h, hP (Run.of_foldlM h)⟩

end Lts
