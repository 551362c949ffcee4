import Sortie.Proof.Watch

/-!
# Bursts are conserved and contiguous

A bursting limiter is in one of two modes. Accumulating, it holds fewer acquisitions
than a burst has; releasing, it hands out the burst it holds, and what it holds and
what it handed out since it last asked the wrapped limiter make up one burst. Giving
an acquisition back moves it from one side to the other.

So the wrapped limiter is only asked again when the burst is out to the last
acquisition, or when it had none to begin with.
-/

namespace Sortie.Engine

open RateLimiter

namespace BurstingRateLimiter

variable {L : RateLimiter} (b : BurstingRateLimiter) {t : Int}

/-! ## One call -/

/-- What is held is less than a burst, or is being released. -/
structure Sound (s : State L) : Prop where
  bounded : s.accumulated ≤ b.burstSize
  short : s.releasing = false → s.accumulated < b.burstSize
  positive : s.releasing = true → 0 < s.accumulated

theorem sound_initial : b.Sound (b.limiter L).initial where
  bounded := Nat.zero_le _
  short := fun _ => b.positive
  positive := nofun

/-- The loop ends with the first no of the wrapped limiter, or with a full burst, of which one is
handed out. -/
theorem accumulate_cases (turns : Nat) : ∀ (s : State L),
    s.accumulated < b.burstSize → s.accumulated + turns = b.burstSize →
    (∃ n r r', L.Gives t n s.rateLimiter r ∧ L.tryAcquireOne t r = (false, r')
        ∧ s.accumulated + n < b.burstSize
        ∧ b.accumulate t turns s
          = (false, { s with
              rateLimiter := r'
              accumulated := s.accumulated + n
              previouslyReleasing := none }))
      ∨ ∃ n r', L.Gives t (n + 1) s.rateLimiter r' ∧ s.accumulated + (n + 1) = b.burstSize
        ∧ b.accumulate t turns s
          = (true, drain { s with
              rateLimiter := r'
              accumulated := b.burstSize
              releasing := true }) := by
  induction turns with
  | zero =>
    intro s hlt heq
    omega
  | succ turns ih =>
    intro s hlt heq
    rw [accumulate]
    cases he : L.tryAcquireOne t s.rateLimiter with
    | mk acquired r =>
      cases acquired with
      | false => exact Or.inl ⟨0, s.rateLimiter, r, rfl, he, hlt, rfl⟩
      | true =>
        dsimp only
        by_cases hfull : s.accumulated + 1 = b.burstSize
        · right
          refine ⟨0, r, ⟨r, he, rfl⟩, hfull, ?_⟩
          rw [if_pos (by rw [hfull, Nat.mod_self]), hfull]
        · have hnot : ¬(s.accumulated + 1) % b.burstSize = 0 := by
            rw [Nat.mod_eq_of_lt (by omega)]
            omega
          rw [if_neg hnot]
          rcases ih { s with rateLimiter := r, accumulated := s.accumulated + 1 }
              (by dsimp only; omega) (by dsimp only; omega) with
            ⟨n, r₁, r', hg, hno, hn, hres⟩ | ⟨n, r', hg, hn, hres⟩
          · left
            refine ⟨n + 1, r₁, r', ⟨r, he, hg⟩, hno, ?_, ?_⟩
            · dsimp only at hn
              omega
            · rw [hres]
              rw [Nat.add_right_comm, Nat.add_assoc]
          · right
            refine ⟨n + 1, r', ⟨r, he, hg⟩, ?_, hres⟩
            dsimp only at hn
            omega

variable {s : State L}

/-- The three ways in which a call can go. -/
theorem tryAcquireOne_cases (h : b.Sound s) :
    (s.releasing = true ∧ b.tryAcquireOne t s = (true, drain s))
      ∨ (s.releasing = false ∧ ∃ n r r', L.Gives t n s.rateLimiter r
        ∧ L.tryAcquireOne t r = (false, r') ∧ s.accumulated + n < b.burstSize
        ∧ b.tryAcquireOne t s
          = (false, { s with
              rateLimiter := r'
              accumulated := s.accumulated + n
              previouslyReleasing := none }))
      ∨ (s.releasing = false ∧ ∃ n r', L.Gives t (n + 1) s.rateLimiter r'
        ∧ s.accumulated + (n + 1) = b.burstSize
        ∧ b.tryAcquireOne t s
          = (true, drain { s with
              rateLimiter := r'
              accumulated := b.burstSize
              releasing := true })) := by
  unfold tryAcquireOne
  by_cases hrel : s.releasing = true
  · exact Or.inl ⟨hrel, if_pos hrel⟩
  · right
    have hlt := h.short (Bool.eq_false_iff.mpr hrel)
    rw [if_neg hrel, Nat.mod_eq_of_lt hlt]
    rcases b.accumulate_cases (t := t) (b.burstSize - s.accumulated)
        { s with previouslyReleasing := some s.releasing } hlt (by dsimp only; omega) with
      ⟨n, r, r', hg, hno, hn, hres⟩ | ⟨n, r', hg, hn, hres⟩
    · exact Or.inl ⟨Bool.eq_false_iff.mpr hrel, n, r, r', hg, hno, hn, hres⟩
    · exact Or.inr ⟨Bool.eq_false_iff.mpr hrel, n, r', hg, hn, hres⟩

theorem Sound.drain (h : b.Sound s) (hpos : 0 < s.accumulated) :
    b.Sound (drain s) where
  bounded := by
    have := h.bounded
    show s.accumulated - 1 ≤ b.burstSize
    omega
  short := fun _ => by
    have := h.bounded
    show s.accumulated - 1 < b.burstSize
    omega
  positive := fun hr => of_decide_eq_true hr

/-- A burst that is about to be released. -/
theorem sound_full (s : State L) (r : L.State) :
    b.Sound { s with rateLimiter := r, accumulated := b.burstSize, releasing := true } where
  bounded := le_rfl
  short := nofun
  positive := fun _ => b.positive

theorem Sound.tryAcquireOne (h : b.Sound s) : b.Sound (b.tryAcquireOne t s).2 := by
  rcases b.tryAcquireOne_cases (t := t) h with
    ⟨hrel, hres⟩ | ⟨hrel, n, r, r', -, -, hn, hres⟩ | ⟨-, n, r', -, -, hres⟩
  · rw [hres]
    exact h.drain b (h.positive hrel)
  · rw [hres]
    refine ⟨hn.le, fun _ => hn, fun hr => ?_⟩
    rw [hrel] at hr
    cases hr
  · rw [hres]
    exact (b.sound_full s r').drain b b.positive

/-- An acquisition that was just handed out can be given back: both assertions of `releaseOne`. -/
def CanRelease (s : State L) : Prop :=
  s.accumulated < b.burstSize ∧ s.previouslyReleasing = some true

theorem canRelease_of_acquired (h : b.Sound s)
    (hacq : (b.tryAcquireOne t s).1 = true) : b.CanRelease (b.tryAcquireOne t s).2 := by
  rcases b.tryAcquireOne_cases (t := t) h with
    ⟨hrel, hres⟩ | ⟨-, n, r, r', -, -, -, hres⟩ | ⟨-, n, r', -, -, hres⟩
  · have hpos := h.positive hrel
    have hb := h.bounded
    rw [hres]
    refine ⟨?_, congrArg some hrel⟩
    show s.accumulated - 1 < b.burstSize
    omega
  · rw [hres] at hacq
    cases hacq
  · have hb := b.positive
    rw [hres]
    refine ⟨?_, rfl⟩
    show b.burstSize - 1 < b.burstSize
    omega

theorem Sound.releaseOne (hc : b.CanRelease s) : b.Sound (releaseOne s) where
  bounded := hc.1
  short := nofun
  positive := fun _ => Nat.succ_pos _

end BurstingRateLimiter

/-! ## What was handed out since the wrapped limiter was asked -/

namespace RateLimiter

def Seen.since (n : Int) : Seen → Int
  | .wrapped (.asked ..) => 0
  | .own (.asked _ true) => n + 1
  | .own (.givenBack _) => n - 1
  | _ => n

/-- The net number of acquisitions handed out since the wrapped limiter was last asked. -/
def sinceConsulted (trace : List Seen) : Int := trace.foldl Seen.since 0

@[simp] theorem sinceConsulted_snoc (l : List Seen) (e : Seen) :
    sinceConsulted (l ++ [e]) = e.since (sinceConsulted l) := by
  simp [sinceConsulted]

theorem Seen.since_of_consults {e : Seen} (h : e.consults = true) (n : Int) : e.since n = 0 := by
  cases e with
  | own e => cases h
  | wrapped e =>
    cases e with
    | givenBack t => cases h
    | asked t a => rfl

/-- Without a consultation it is the net number of the whole stretch. -/
theorem Seen.since_of_not_consults {e : Seen} (h : e.consults = false) (n : Int) :
    e.since n = n + handedOutNet [e] := by
  cases e with
  | wrapped e =>
    cases e with
    | asked t a => cases h
    | givenBack t => exact (Int.add_zero n).symm
  | own e =>
    cases e with
    | givenBack t => rfl
    | asked t a =>
      cases a with
      | false => exact (Int.add_zero n).symm
      | true => rfl

theorem sinceConsulted_append {l : List Seen} : ∀ {q : List Seen},
    (∀ e ∈ q, e.consults = false) →
      sinceConsulted (l ++ q) = sinceConsulted l + handedOutNet q := by
  intro q
  induction q using List.reverseRecOn with
  | nil =>
    intro _
    rw [List.append_nil]
    exact (Int.add_zero _).symm
  | append_singleton q e ih =>
    intro hq
    rw [← List.append_assoc, sinceConsulted_snoc, Seen.since_of_not_consults (hq e (by simp)),
      ih (fun e he => hq e (List.mem_append_left _ he)), handedOutNet_append, Int.add_assoc]

/-- Every consultation finds a whole burst handed out since the one before it, or nothing. -/
def Spaced (b : Nat) (trace : List Seen) : Prop :=
  ∀ p e q, trace = p ++ e :: q → e.consults = true → sinceConsulted p = 0 ∨ sinceConsulted p = b

theorem spaced_nil (b : Nat) : Spaced b [] := by
  intro p e q h
  have := congrArg List.length h
  simp at this

theorem Spaced.snoc {b : Nat} {l : List Seen} {e : Seen} (h : Spaced b l)
    (he : e.consults = true → sinceConsulted l = 0 ∨ sinceConsulted l = b) :
    Spaced b (l ++ [e]) := by
  intro p x q hl hx
  rcases snoc_eq_append_cons hl with ⟨rfl, rfl⟩ | ⟨q', rfl⟩
  · exact he hx
  · exact h p x q' rfl hx

/-- Asked several times in a row, the wrapped limiter is asked with nothing handed out between. -/
theorem Spaced.consulted {b : Nat} {l : List Seen} (h : Spaced b l)
    (hl : sinceConsulted l = 0 ∨ sinceConsulted l = b) (es : List Entry) :
    Spaced b (l ++ es.map Seen.wrapped)
      ∧ (sinceConsulted (l ++ es.map Seen.wrapped) = 0
        ∨ sinceConsulted (l ++ es.map Seen.wrapped) = b) := by
  induction es using List.reverseRecOn with
  | nil =>
    simp only [List.map_nil, List.append_nil]
    exact ⟨h, hl⟩
  | append_singleton es e ih =>
    rw [List.map_append, ← List.append_assoc, List.map_singleton]
    refine ⟨ih.1.snoc (fun _ => ih.2), ?_⟩
    rw [sinceConsulted_snoc]
    cases e with
    | asked t a => exact Or.inl rfl
    | givenBack t => exact ih.2

end RateLimiter

/-! ## Whole runs -/

namespace BurstingRateLimiter

variable {L : RateLimiter} (b : BurstingRateLimiter)

/-- The log of the wrapped limiter. -/
def log (s : State L.logged) : List Entry := s.rateLimiter.2

/-- What every call keeps. -/
structure Inv (w : (b.limiter L.logged).Watch) : Prop where
  sound : b.Sound w.state
  conserved : (w.trace.countP Seen.acquires : Int)
    = handedOutNet w.trace + (State.accumulated w.state : Nat)
  releasing : State.releasing w.state = true →
    sinceConsulted w.trace + (State.accumulated w.state : Nat) = b.burstSize
  accumulating : State.releasing w.state = false →
    sinceConsulted w.trace = 0
      ∨ sinceConsulted w.trace = b.burstSize ∧ State.accumulated w.state = 0
  spaced : Spaced b.burstSize w.trace
  fresh : w.fresh = true →
    b.CanRelease w.state
      ∧ sinceConsulted w.trace + (State.accumulated w.state : Nat) = b.burstSize

variable {t : Int} {w : (b.limiter L.logged).Watch}

theorem logged_no {r r' : L.logged.State}
    (h : L.logged.tryAcquireOne t r = (false, r')) : r'.2 = r.2 ++ [.asked t false] := by
  obtain ⟨hacq, rfl⟩ := Prod.mk.inj h
  rw [hacq]

/-- An acquisition that was held is handed out. -/
theorem Inv.drained (h : b.Inv w)
    (hrel : State.releasing w.state = true) :
    b.Inv ⟨drain w.state, t, true, w.trace ++ [.own (.asked t true)]⟩ := by
  have hpos : 0 < State.accumulated w.state := h.sound.positive hrel
  have hsum := h.releasing hrel
  have hcons := h.conserved
  have hacc : (State.accumulated (drain w.state) : Int) = State.accumulated w.state - 1 := by
    show ((State.accumulated w.state - 1 : Nat) : Int) = _
    omega
  have hout : handedOutNet (w.trace ++ [.own (.asked t true)]) = handedOutNet w.trace + 1 :=
    handedOutNet_append _ _
  have hsince : sinceConsulted (w.trace ++ [.own (.asked t true)])
      = sinceConsulted w.trace + 1 := sinceConsulted_snoc _ _
  constructor
  case sound => exact h.sound.drain b hpos
  case conserved =>
    rw [hacc, hout, List.countP_append]
    simp only [List.countP_singleton, Seen.acquires]
    push_cast
    omega
  case releasing =>
    intro _
    rw [hacc, hsince]
    omega
  case accumulating =>
    intro hr
    have h0 : ¬ 0 < State.accumulated (drain w.state) := of_decide_eq_false hr
    right
    dsimp only
    rw [hsince]
    omega
  case spaced => exact h.spaced.snoc nofun
  case fresh =>
    intro _
    have hb := h.sound.bounded
    refine ⟨⟨?_, congrArg some hrel⟩, ?_⟩
    · dsimp only at hacc ⊢
      omega
    · rw [hacc, hsince]
      omega

/-- What was given back is held again. -/
theorem Inv.givenBack (h : b.Inv w)
    (hf : w.fresh = true) :
    b.Inv ⟨releaseOne w.state, t, false, w.trace ++ [.own (.givenBack t)]⟩ := by
  obtain ⟨hcan, hsum⟩ := h.fresh hf
  have hcons := h.conserved
  have hacc : (State.accumulated (releaseOne w.state) : Int) = State.accumulated w.state + 1 := rfl
  constructor
  case sound => exact Sound.releaseOne b hcan
  case conserved =>
    rw [hacc, handedOutNet_append, List.countP_append]
    simp only [List.countP_singleton, Seen.acquires, handedOutNet, Seen.handsOut, Seen.takesBack]
    push_cast
    unfold handedOutNet at hcons
    omega
  case releasing =>
    intro _
    rw [hacc, sinceConsulted_snoc]
    show sinceConsulted w.trace - 1 + _ = _
    omega
  case accumulating =>
    intro hr
    cases hr
  case spaced => exact h.spaced.snoc nofun
  case fresh =>
    intro hc
    cases hc

/-- The wrapped limiter is asked until it says no, or until the burst is full. -/
theorem Inv.consulted {s' : State L.logged} {n : Nat}
    {a : Bool} (h : b.Inv w) (hrel : State.releasing w.state = false) (hs : b.Sound s')
    (hn : s'.accumulated = State.accumulated w.state + n + a.toNat)
    (hfull : s'.releasing = true → s'.accumulated = b.burstSize) :
    b.Inv ⟨s', t, false,
      w.trace
        ++ (List.replicate n (Entry.asked t true) ++ [Entry.asked t a]).map Seen.wrapped⟩ := by
  have hwhole : sinceConsulted w.trace = 0 ∨ sinceConsulted w.trace = b.burstSize := by
    rcases h.accumulating hrel with h0 | ⟨hb, -⟩
    · exact Or.inl h0
    · exact Or.inr hb
  have hsince : sinceConsulted (w.trace
      ++ (List.replicate n (Entry.asked t true) ++ [Entry.asked t a]).map Seen.wrapped) = 0 := by
    rw [List.map_append, ← List.append_assoc]
    exact sinceConsulted_snoc _ _
  have hcount : (w.trace
      ++ (List.replicate n (Entry.asked t true) ++ [Entry.asked t a]).map Seen.wrapped).countP
        Seen.acquires = w.trace.countP Seen.acquires + (n + a.toNat) := by
    have hyes : ((List.replicate n (Entry.asked t true)).map Seen.wrapped).countP Seen.acquires
        = n := by
      rw [List.map_replicate, List.countP_replicate]
      rfl
    rw [List.countP_append, List.map_append, List.countP_append, hyes]
    cases a <;> rfl
  constructor
  case sound => exact hs
  case conserved =>
    have hcons := h.conserved
    rw [hcount, handedOutNet_append, handedOutNet_wrapped, hn]
    omega
  case releasing =>
    intro hr
    rw [hsince, hfull hr, Int.zero_add]
  case accumulating =>
    intro _
    exact Or.inl hsince
  case spaced => exact (h.spaced.consulted hwhole _).1
  case fresh =>
    intro hc
    cases hc

/-- A no is noted and nothing else. -/
theorem Inv.denied (h : b.Inv w) :
    b.Inv ⟨w.state, t, false, w.trace ++ [.own (.asked t false)]⟩ := by
  have hsince : sinceConsulted (w.trace ++ [.own (.asked t false)]) = sinceConsulted w.trace :=
    sinceConsulted_snoc _ _
  constructor
  case sound => exact h.sound
  case conserved =>
    have hcons := h.conserved
    rw [handedOutNet_append, List.countP_append]
    exact hcons.trans (by rw [show handedOutNet [Seen.own (Entry.asked t false)] = 0 from rfl,
      Int.add_zero])
  case releasing =>
    intro hr
    rw [hsince]
    exact h.releasing hr
  case accumulating =>
    intro hr
    rw [hsince]
    exact h.accumulating hr
  case spaced => exact h.spaced.snoc nofun
  case fresh =>
    intro hc
    cases hc

theorem inv_initial (t : Int) : b.Inv (L := L) ⟨(b.limiter L.logged).initial, t, false, []⟩ where
  sound := b.sound_initial
  conserved := rfl
  releasing := nofun
  accumulating := fun _ => Or.inl rfl
  spaced := spaced_nil _
  fresh := nofun

theorem Inv.tryAcquireOne (h : b.Inv w)
    {acquired : Bool} {s : State L.logged} (hcall : b.tryAcquireOne t w.state = (acquired, s)) :
    ∃ es, log s = log w.state ++ es
      ∧ b.Inv ⟨s, t, acquired,
        w.trace ++ es.map Seen.wrapped ++ [.own (.asked t acquired)]⟩ := by
  rcases b.tryAcquireOne_cases (t := t) h.sound with
    ⟨hrel, hres⟩ | ⟨hrel, n, r, r', hg, hno, hn, hres⟩ | ⟨hrel, n, r', hg, hn, hres⟩
  · obtain ⟨rfl, rfl⟩ := Prod.mk.inj (hcall.symm.trans hres)
    refine ⟨[], (List.append_nil _).symm, ?_⟩
    simpa only [List.map_nil, List.append_nil] using h.drained b hrel
  · -- the loop ran into a no
    obtain ⟨rfl, rfl⟩ := Prod.mk.inj (hcall.symm.trans hres)
    refine ⟨List.replicate n (Entry.asked t true) ++ [Entry.asked t false], ?_, ?_⟩
    · show r'.2 = _
      rw [logged_no hno, hg.logged, List.append_assoc]
      rfl
    · refine (h.consulted b hrel ?_ rfl ?_).denied b
      · exact ⟨hn.le, fun _ => hn, fun hr => nomatch hrel.symm.trans hr⟩
      · intro hr
        exact nomatch hrel.symm.trans hr
  · -- the loop completed a burst
    obtain ⟨rfl, rfl⟩ := Prod.mk.inj (hcall.symm.trans hres)
    refine ⟨List.replicate n (Entry.asked t true) ++ [Entry.asked t true], ?_, ?_⟩
    · show r'.2 = _
      rw [hg.logged, List.replicate_succ']
      rfl
    · exact (h.consulted b hrel (b.sound_full w.state r') hn.symm (fun _ => rfl)).drained b rfl

/-- **Every call keeps the invariant.** -/
theorem inv_reaches {t₀ : Int} {calls : List (Int × RateLimiter.Call)}
    (hw : Watch.Reaches log t₀ calls w) : b.Inv w := by
  refine hw.induct (b.inv_initial t₀) ?_ ?_ ?_
  · intro w t acquired s h _ hcall
    exact h.tryAcquireOne b hcall
  · intro w t s h _ hf hs
    obtain rfl := Except.ok.inj hs
    refine ⟨[], (List.append_nil _).symm, ?_⟩
    simpa only [List.map_nil, List.append_nil] using h.givenBack b hf
  · intro w t h _
    exact ⟨⟨h.sound.bounded, h.sound.short, h.sound.positive⟩, h.conserved, h.releasing,
      h.accumulating, h.spaced, h.fresh⟩

end BurstingRateLimiter

/-- **Bursts are conserved and contiguous**, whatever limiter is wrapped: what it gave is what is
out and what is held; it is left alone while a burst is being released; between two questions put
to it a whole burst goes out, or nothing; and the assertions of `releaseOne` hold whenever an
acquisition may be given back. -/
theorem bursts_conserved (b : BurstingRateLimiter) (L : RateLimiter) {t₀ : Int}
    {calls : List (Int × RateLimiter.Call)} {w : (b.limiter L.logged).Watch}
    (hw : Watch.Reaches BurstingRateLimiter.log t₀ calls w) :
    let s : BurstingRateLimiter.State L.logged := w.state
    (w.trace.countP Seen.acquires : Int) = handedOutNet w.trace + s.accumulated
      ∧ s.accumulated ≤ b.burstSize
      ∧ (s.releasing = true → 0 < s.accumulated
        ∧ ∀ t, (b.tryAcquireOne t s).2.rateLimiter = s.rateLimiter)
      ∧ (∀ p x q y r, w.trace = p ++ x :: (q ++ y :: r) → x.consults = true → y.consults = true →
        (∀ e ∈ q, e.consults = false) → handedOutNet q = 0 ∨ handedOutNet q = b.burstSize)
      ∧ (w.fresh = true → s.accumulated < b.burstSize ∧ s.previouslyReleasing = some true) := by
  intro s
  have h : b.Inv w := b.inv_reaches hw
  refine ⟨h.conserved, h.sound.bounded, fun hr => ⟨h.sound.positive hr, fun t => ?_⟩, ?_,
    fun hf => (h.fresh hf).1⟩
  · unfold BurstingRateLimiter.tryAcquireOne
    rw [if_pos hr]
    rfl
  · intro p x q y r htrace hx hy hq
    have hspaced := h.spaced (p ++ x :: q) y r (by rw [htrace]; simp) hy
    -- the count starts anew at `x`, and `q` is all that follows
    have hsince : sinceConsulted (p ++ x :: q) = handedOutNet q := by
      rw [show p ++ x :: q = (p ++ [x]) ++ q by simp, sinceConsulted_append hq,
        sinceConsulted_snoc, Seen.since_of_consults hx, Int.zero_add]
    rwa [hsince] at hspaced

/-- Bursts of two over one request per second. After two seconds a burst goes out, the first
acquisition of it is given back and handed out again. -/
theorem bursts_conserved_givenBack :
    let b : BurstingRateLimiter := ⟨2, by decide⟩
    let L := (LinearRateLimiter.mk ⟨1⟩ (by decide)).limiter
    ∃ w : (b.limiter L.logged).Watch,
      Watch.Reaches BurstingRateLimiter.log 0 [(0, .tryAcquireOne), (2000000000, .tryAcquireOne),
        (2000000000, .releaseOne), (2000000001, .tryAcquireOne)] w
      ∧ w.fresh = true ∧ w.trace.countP Seen.acquires = 2 ∧ handedOutNet w.trace = 1
      ∧ BurstingRateLimiter.State.accumulated w.state = 1
      ∧ BurstingRateLimiter.State.previouslyReleasing w.state = some true := by
  intro b L
  have hrun : ([(0, .tryAcquireOne), (2000000000, .tryAcquireOne), (2000000000, .releaseOne),
      (2000000001, .tryAcquireOne)].foldlM
        (Watch.call (W := b.limiter L.logged) BurstingRateLimiter.log)
        ⟨(b.limiter L.logged).initial, 0, false, []⟩).map
      (fun w => (w.fresh, w.trace.countP Seen.acquires, handedOutNet w.trace))
        = some (true, 2, 1) := by
    decide +kernel
  obtain ⟨w, hw, hval⟩ := Option.map_eq_some_iff.mp hrun
  obtain ⟨hf, hacq, hout⟩ : w.fresh = true ∧ w.trace.countP Seen.acquires = 2
      ∧ handedOutNet w.trace = 1 := by simpa using hval
  have hw := Watch.reaches_of_calls hw
  obtain ⟨hcons, -, -, -, hfresh⟩ := bursts_conserved b L hw
  exact ⟨w, hw, hf, hacq, hout, by omega, (hfresh hf).2⟩

end Sortie.Engine
