import Mathlib.Data.List.Forall2

/-!
# Validators that stop at the first error

A validator is a computation in `Except` that returns nothing of interest. These
are the building blocks and, for each of them, what its success says. All of them
are `simp` lemmas, so the success of a validator unfolds into the conjunction of
its checks.
-/

namespace Checks

variable {ε ε' α β : Type}
variable {x : Except ε α} {f : α → Except ε β} {b : β} {e : ε} {u : Unit} {as : List α}
  {bs : List β}

/-- Fail with `e` unless the condition holds. -/
def require (ok : Bool) (e : ε) : Except ε Unit :=
  if ok then .ok () else .error e

/-- Run a check when there is reason to. -/
def onlyIf (c : Bool) (check : Except ε Unit) : Except ε Unit := if c then check else .ok ()

/-- Run a check on every element, in order. -/
def each (check : α → Except ε Unit) : List α → Except ε Unit
  | [] => .ok ()
  | a :: as => check a >>= fun _ => each check as

@[simp] theorem bind_ok_iff : (x >>= f) = .ok b ↔ ∃ a, x = .ok a ∧ f a = .ok b := by
  cases x with
  | error e =>
    exact ⟨fun h => absurd h (by simp [bind, Except.bind]), fun ⟨_, h, _⟩ => absurd h (by simp)⟩
  | ok a => exact ⟨fun h => ⟨a, rfl, h⟩, fun ⟨_, ha, h⟩ => by cases ha; exact h⟩

@[simp] theorem exists_unit_ok_iff {x : Except ε Unit} {p : Prop} :
    (∃ u, x = .ok u ∧ p) ↔ x = .ok () ∧ p :=
  ⟨fun ⟨_, h⟩ => h, fun h => ⟨(), h⟩⟩

@[simp] theorem require_ok_iff {ok : Bool} : require ok e = .ok u ↔ ok = true := by
  cases ok <;> simp [require]

@[simp] theorem onlyIf_ok_iff {c : Bool} {x : Except ε Unit} :
    onlyIf c x = .ok u ↔ (c = true → x = .ok ()) := by
  cases c <;> simp [onlyIf]

@[simp] theorem each_ok_iff {check : α → Except ε Unit} :
    each check as = .ok u ↔ ∀ a ∈ as, check a = .ok () := by
  induction as with
  | nil => simp [each]
  | cons a as ih =>
    unfold each
    rw [bind_ok_iff, exists_unit_ok_iff, ih, List.forall_mem_cons]

@[simp] theorem map_ok_iff {f : α → β} : x.map f = .ok b ↔ ∃ a, x = .ok a ∧ f a = b := by
  cases x with
  | error e => exact ⟨nofun, fun ⟨_, h, _⟩ => absurd h (by simp)⟩
  | ok a => exact ⟨fun h => ⟨a, rfl, Except.ok.inj h⟩, fun ⟨_, ha, h⟩ => by cases ha; rw [← h]; rfl⟩

/-- Putting text in front of an error does not change whether there is one. -/
@[simp] theorem mapError_ok_iff {f : ε → ε'} {a : α} : x.mapError f = .ok a ↔ x = .ok a := by
  cases x with
  | error e => exact iff_of_false nofun nofun
  | ok b => exact ⟨fun h => congrArg Except.ok (Except.ok.inj h), fun h => by rw [h]; rfl⟩

/-- A computation on every element that succeeds has succeeded on each of them. -/
theorem mapM_ok (h : as.mapM f = .ok bs) : List.Forall₂ (fun a b => f a = .ok b) as bs := by
  induction as generalizing bs with
  | nil =>
    rw [List.mapM_nil] at h
    cases h
    exact List.Forall₂.nil
  | cons a as ih =>
    rw [List.mapM_cons, bind_ok_iff] at h
    obtain ⟨b, hb, h⟩ := h
    obtain ⟨bs', hbs, h⟩ := bind_ok_iff.mp h
    cases h
    exact List.Forall₂.cons hb (ih hbs)

/-- The same for a computation that may return nothing. -/
theorem mapM_some {f : α → Option β} (h : as.mapM f = some bs) :
    List.Forall₂ (fun a b => f a = some b) as bs := by
  induction as generalizing bs with
  | nil =>
    rw [List.mapM_nil] at h
    cases h
    exact List.Forall₂.nil
  | cons a as ih =>
    rw [List.mapM_cons] at h
    obtain ⟨b, hb, h⟩ := Option.bind_eq_some_iff.mp h
    obtain ⟨bs', hbs, h⟩ := Option.bind_eq_some_iff.mp h
    cases h
    exact List.Forall₂.cons hb (ih hbs)

/-- An element on the left has a partner on the right. -/
theorem exists_right {R : α → β → Prop} (h : List.Forall₂ R as bs) {a : α} (ha : a ∈ as) :
    ∃ b ∈ bs, R a b := by
  induction h with
  | nil => exact absurd ha (by simp)
  | cons hab _ ih =>
    rcases List.mem_cons.mp ha with rfl | ha
    · exact ⟨_, List.mem_cons_self, hab⟩
    · obtain ⟨b, hb, hr⟩ := ih ha
      exact ⟨b, List.mem_cons_of_mem _ hb, hr⟩

/-- An element on the right has a partner on the left. -/
theorem exists_left {R : α → β → Prop} (h : List.Forall₂ R as bs) (hb : b ∈ bs) : ∃ a ∈ as, R a b :=
  exists_right h.flip hb

/-! ## What a failure can be -/

/-- A computation that fails does so with an error that satisfies `P`. -/
def FailsWith (P : ε → Prop) (x : Except ε α) : Prop := ∀ e, x = .error e → P e

namespace FailsWith

variable {P : ε → Prop}

theorem ok (a : α) : FailsWith P (.ok a : Except ε α) := fun _ h => absurd h (by simp)

theorem error (h : P e) : FailsWith P (.error e : Except ε α) := by
  intro e' h'
  rw [← Except.error.inj h']
  exact h

theorem bind (hx : FailsWith P x) (hf : ∀ a, FailsWith P (f a)) : FailsWith P (x >>= f) := by
  cases x with
  | error e => exact error (hx e rfl)
  | ok a => exact hf a

theorem require {ok : Bool} (h : P e) : FailsWith P (require ok e) := by
  cases ok with
  | true => exact FailsWith.ok ()
  | false => exact error h

theorem onlyIf {c : Bool} {x : Except ε Unit} (hx : FailsWith P x) : FailsWith P (onlyIf c x) := by
  cases c with
  | true => exact hx
  | false => exact FailsWith.ok ()

theorem mapError {Q : ε' → Prop} {f : ε → ε'} (h : ∀ e, x = .error e → Q (f e)) :
    FailsWith Q (x.mapError f) := by
  cases x with
  | error e => exact error (h e rfl)
  | ok a => exact FailsWith.ok a

theorem mapM (h : ∀ a, FailsWith P (f a)) (as : List α) : FailsWith P (as.mapM f) := by
  induction as with
  | nil =>
    rw [List.mapM_nil]
    exact FailsWith.ok _
  | cons a as ih =>
    rw [List.mapM_cons]
    exact (h a).bind fun b => ih.bind fun bs => FailsWith.ok _

end FailsWith

end Checks
