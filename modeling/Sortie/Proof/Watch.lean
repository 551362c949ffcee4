import Sortie.Proof.Composition

/-!
# Watching a limiter at both ends

The sequencer gives an acquisition back, if at all, right after it got it. A limiter
that wraps another relies on that, so the runs considered here are those: `releaseOne`
only follows a `tryAcquireOne` that succeeded.

What a wrapping limiter promises relates the calls made on it to the calls it makes.
Both are recorded in the order in which they happen: the wrapped limiter keeps a log,
which it never looks at, and the trace of a run takes from it what a call has added
before it notes the call itself.
-/

namespace Sortie.Engine

namespace RateLimiter

/-- A call that a limiter has answered. -/
inductive Entry where
  | asked (now : Int) (acquired : Bool)
  | givenBack (now : Int)
  deriving DecidableEq, Repr

/-- The same limiter, keeping a log. -/
def logged (L : RateLimiter) : RateLimiter where
  State := L.State × List Entry
  initial := (L.initial, [])
  tryAcquireOne := fun now s =>
    let (acquired, r) := L.tryAcquireOne now s.1
    (acquired, (r, s.2 ++ [.asked now acquired]))
  releaseOne := fun now s => do
    let r ← L.releaseOne now s.1
    return (r, s.2 ++ [.givenBack now])
  elapsed := fun now s =>
    let (e, r) := L.elapsed now s.1
    (e, (r, s.2))
  timeUntilNextRelease := fun now s => L.timeUntilNextRelease now s.1

/-- Something that happens at one of the two ends. -/
inductive Seen where
  /-- The limiter called the one it wraps. -/
  | wrapped (e : Entry)
  /-- The limiter was called. -/
  | own (e : Entry)
  deriving DecidableEq, Repr

/-- A limiter in use, whose acquisitions are given back at once or never. -/
structure Watch (W : RateLimiter) where
  state : W.State
  now : Int
  /-- The last call handed out an acquisition, which may still be given back. -/
  fresh : Bool
  trace : List Seen

namespace Watch

variable {W : RateLimiter}

/-- What a call has added to the log of the wrapped limiter. -/
def news (log : W.State → List Entry) (s s' : W.State) : List Seen :=
  ((log s').drop (log s).length).map Seen.wrapped

/-- One call at time `now`. -/
def step (log : W.State → List Entry) (w : W.Watch) (now : Int) : Call → Option W.Watch
  | .tryAcquireOne =>
    let (acquired, s) := W.tryAcquireOne now w.state
    some ⟨s, now, acquired, w.trace ++ news log w.state s ++ [.own (.asked now acquired)]⟩
  | .releaseOne =>
    if w.fresh then
      match W.releaseOne now w.state with
      | .error _ => none
      | .ok s => some ⟨s, now, false, w.trace ++ news log w.state s ++ [.own (.givenBack now)]⟩
    else none
  | .elapsed => some { w with state := (W.elapsed now w.state).2, now }

/-- The clock never goes back. -/
def Leads (log : W.State → List Entry) (w : W.Watch) (e : Int × Call) (v : W.Watch) : Prop :=
  w.now ≤ e.1 ∧ w.step log e.1 e.2 = some v

/-- What calls lead to, on a limiter made at time `t₀`. -/
def Reaches (log : W.State → List Entry) (t₀ : Int) (calls : List (Int × Call)) (w : W.Watch) :
    Prop :=
  Lts.Run (Leads log) ⟨W.initial, t₀, false, []⟩ calls w

/-- One call, as far as the clock allows it. -/
def call (log : W.State → List Entry) (w : W.Watch) (e : Int × Call) : Option W.Watch :=
  if w.now ≤ e.1 then w.step log e.1 e.2 else none

variable {log : W.State → List Entry}

/-- Runs can be computed. -/
theorem reaches_of_calls {t₀ : Int} {calls : List (Int × Call)}
    {w : W.Watch} (h : calls.foldlM (call log) ⟨W.initial, t₀, false, []⟩ = some w) :
    Reaches log t₀ calls w := by
  refine (Lts.Run.of_foldlM h).mono ?_
  intro a e b hb
  unfold call at hb
  split at hb
  · rename_i ht
    exact ⟨ht, hb⟩
  · cases hb

theorem step_releaseOne {w v : W.Watch} {now : Int}
    (h : w.step log now .releaseOne = some v) :
    w.fresh = true ∧ ∃ s, W.releaseOne now w.state = .ok s
      ∧ v = ⟨s, now, false, w.trace ++ news log w.state s ++ [.own (.givenBack now)]⟩ := by
  rw [step] at h
  by_cases hf : w.fresh = true
  · rw [if_pos hf] at h
    cases hr : W.releaseOne now w.state with
    | error f =>
      rw [hr] at h
      cases h
    | ok s =>
      rw [hr] at h
      exact ⟨hf, s, rfl, (Option.some.inj h).symm⟩
  · rw [if_neg hf] at h
    cases h

theorem news_append {s s' : W.State} {es : List Entry}
    (h : log s' = log s ++ es) : news log s s' = es.map Seen.wrapped := by
  rw [news, h, List.drop_left]

/-- **The invariant rule**, with one case for each call. A case says what the call has added to the
log. -/
theorem Reaches.induct {t₀ : Int} {calls : List (Int × Call)}
    {w : W.Watch} {P : W.Watch → Prop} (h : Reaches log t₀ calls w)
    (initial : P ⟨W.initial, t₀, false, []⟩)
    (acquire : ∀ {w : W.Watch} {t acquired s}, P w → w.now ≤ t →
      W.tryAcquireOne t w.state = (acquired, s) →
      ∃ es, log s = log w.state ++ es
        ∧ P ⟨s, t, acquired, w.trace ++ es.map .wrapped ++ [.own (.asked t acquired)]⟩)
    (release : ∀ {w : W.Watch} {t s}, P w → w.now ≤ t → w.fresh = true →
      W.releaseOne t w.state = .ok s →
      ∃ es, log s = log w.state ++ es
        ∧ P ⟨s, t, false, w.trace ++ es.map .wrapped ++ [.own (.givenBack t)]⟩)
    (elapsed : ∀ {w : W.Watch} {t}, P w → w.now ≤ t →
      P { w with state := (W.elapsed t w.state).2, now := t }) : P w := by
  refine h.invariant initial ?_
  rintro a ⟨t, call⟩ b ha ⟨ht, hb⟩
  cases call with
  | tryAcquireOne =>
    cases hb
    obtain ⟨es, hes, hP⟩ := acquire ha ht rfl
    rwa [← news_append hes] at hP
  | releaseOne =>
    obtain ⟨hf, s, hs, rfl⟩ := step_releaseOne hb
    obtain ⟨es, hes, hP⟩ := release ha ht hf hs
    rwa [← news_append hes] at hP
  | elapsed =>
    cases hb
    exact elapsed ha ht

end Watch

/-! ## What a trace amounts to -/

namespace Seen

/-- The wrapped limiter was asked for an acquisition. -/
def consults : Seen → Bool
  | .wrapped (.asked ..) => true
  | _ => false

def acquires : Seen → Bool
  | .wrapped (.asked _ true) => true
  | _ => false

def returns : Seen → Bool
  | .wrapped (.givenBack _) => true
  | _ => false

def handsOut : Seen → Bool
  | .own (.asked _ true) => true
  | _ => false

def takesBack : Seen → Bool
  | .own (.givenBack _) => true
  | _ => false

end Seen

/-- What the wrapped limiter has given and not been given back. -/
def acquiredNet (trace : List Seen) : Int :=
  trace.countP Seen.acquires - trace.countP Seen.returns

/-- What was handed out and not given back. -/
def handedOutNet (trace : List Seen) : Int :=
  trace.countP Seen.handsOut - trace.countP Seen.takesBack

@[simp] theorem acquiredNet_append (l l' : List Seen) :
    acquiredNet (l ++ l') = acquiredNet l + acquiredNet l' := by
  unfold acquiredNet
  rw [List.countP_append, List.countP_append]
  omega

@[simp] theorem handedOutNet_append (l l' : List Seen) :
    handedOutNet (l ++ l') = handedOutNet l + handedOutNet l' := by
  unfold handedOutNet
  rw [List.countP_append, List.countP_append]
  omega

/-- The calls on the wrapped limiter hand nothing out. -/
@[simp] theorem handedOutNet_wrapped (es : List Entry) :
    handedOutNet (es.map Seen.wrapped) = 0 := by
  induction es with
  | nil => rfl
  | cons e es ih => exact ih

/-- Where an entry of a longer trace can be: it is the new one, or it was there before. -/
theorem snoc_eq_append_cons {l p q : List Seen} {x e : Seen} (h : l ++ [x] = p ++ e :: q) :
    (p = l ∧ e = x) ∨ ∃ q', l = p ++ e :: q' := by
  rcases List.eq_nil_or_concat q with rfl | ⟨q', y, rfl⟩
  · obtain ⟨rfl, hxe⟩ := List.append_inj' h rfl
    exact Or.inl ⟨rfl, (List.singleton_inj.mp hxe).symm⟩
  · rw [show p ++ e :: (q'.concat y) = (p ++ e :: q') ++ [y] by simp] at h
    obtain ⟨rfl, -⟩ := List.append_inj' h rfl
    exact Or.inr ⟨q', rfl⟩

/-! ## Asking several times in a row -/

/-- `n` calls at time `t` lead from `r` to `r'`, and all of them succeed. -/
def Gives (L : RateLimiter) (t : Int) : Nat → L.State → L.State → Prop
  | 0, r, r' => r' = r
  | n + 1, r, r' => ∃ r₁, L.tryAcquireOne t r = (true, r₁) ∧ Gives L t n r₁ r'

theorem Gives.logged {L : RateLimiter} {t : Int} (n : Nat) :
    ∀ {r r' : L.logged.State}, L.logged.Gives t n r r' →
      r'.2 = r.2 ++ List.replicate n (.asked t true) := by
  induction n with
  | zero =>
    intro r r' h
    obtain rfl := h
    exact (List.append_nil _).symm
  | succ n ih =>
    rintro r r' ⟨r₁, h₁, h⟩
    obtain ⟨hacq, hr₁⟩ := Prod.mk.inj h₁
    rw [ih h, ← hr₁, hacq, List.append_assoc, List.replicate_succ]
    rfl

end RateLimiter

end Sortie.Engine
