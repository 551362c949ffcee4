import Sortie.Proof.Watch
import Mathlib.Data.List.TakeWhile

/-!
# Jitter delays acquisitions

The limiter under jitter keeps a queue. A value enters it when the wrapped limiter
gives an acquisition, and leaves it from the front when its time has come, which hands
an acquisition out. So the values that ever entered are those that left and those
still waiting, and every one that left had its time come by then.

That is all there is to it: counting gives that nothing is lost or invented, and that
as many values as were handed out have come due gives the order statistic.
-/

namespace Sortie.Engine

open RateLimiter

/-! ## The k-th smallest -/

/-- The `k`-th smallest number of a list, counting from one. -/
def kthSmallest (l : List Int) (k : Nat) : Option Int := (l.mergeSort (· ≤ ·))[k - 1]?

theorem getElem?_of_lt_countP {x : Int} : ∀ {l : List Int} {i : Nat}, l.Pairwise (· ≤ ·) →
    i < l.countP (· ≤ x) → ∃ v, l[i]? = some v ∧ v ≤ x := by
  intro l
  induction l with
  | nil =>
    intro i _ hi
    simp at hi
  | cons a l ih =>
    intro i hs hi
    obtain ⟨ha, hs⟩ := List.pairwise_cons.mp hs
    rw [List.countP_cons] at hi
    -- the head is below all others, so if any is below `x` the head is
    have hax : a ≤ x := by
      by_contra hax
      have h0 : l.countP (· ≤ x) = 0 := by
        rw [List.countP_eq_zero]
        intro b hb
        have := ha b hb
        simp only [decide_eq_true_eq]
        omega
      rw [h0, if_neg (by simpa using hax)] at hi
      omega
    cases i with
    | zero => exact ⟨a, rfl, hax⟩
    | succ i =>
        rw [if_pos (by simpa using hax)] at hi
        exact ih hs (by omega)

/-- **If `k` of the numbers are at most `x`, so is the `k`-th smallest.** -/
theorem kthSmallest_le {l : List Int} {x : Int} {k : Nat} (hk : 0 < k)
    (h : k ≤ l.countP (· ≤ x)) : ∃ v, kthSmallest l k = some v ∧ v ≤ x := by
  have hsorted : (l.mergeSort (· ≤ ·)).Pairwise (· ≤ ·) := by
    have h : (l.mergeSort (· ≤ ·)).Pairwise (fun a b => decide (a ≤ b) = true) :=
      List.pairwise_mergeSort (by intro a b c; simpa using le_trans)
        (by intro a b; simpa using le_total a b) l
    simpa using h
  refine getElem?_of_lt_countP hsorted ?_
  rw [(List.mergeSort_perm l _).countP_eq]
  omega

namespace DelegatingRateLimiterImpl

variable {L : RateLimiter} (c : DelegatingRateLimiterImpl)

/-! ## The queue -/

theorem insertTiming_perm (adjusted : Int) (timings : List Int) :
    (insertTiming adjusted timings).Perm (adjusted :: timings) := by
  refine List.perm_middle.trans ?_
  rw [List.takeWhile_append_dropWhile]

/-- Behind the upper bound of `adjusted` everything is later. -/
theorem lt_of_mem_dropWhile {adjusted : Int} : ∀ {timings : List Int},
    timings.Pairwise (· ≤ ·) → ∀ v ∈ timings.dropWhile (· ≤ adjusted), adjusted < v := by
  intro timings
  induction timings with
  | nil =>
    intro _ v hv
    simp at hv
  | cons a timings ih =>
    intro hs v hv
    obtain ⟨ha, hs⟩ := List.pairwise_cons.mp hs
    rw [List.dropWhile_cons] at hv
    split at hv
    · exact ih hs v hv
    · rename_i hlt
      have hlt : adjusted < a := by simpa using hlt
      rcases List.mem_cons.mp hv with rfl | hv
      · exact hlt
      · exact hlt.trans_le (ha v hv)

theorem insertTiming_sorted {adjusted : Int} {timings : List Int}
    (h : timings.Pairwise (· ≤ ·)) : (insertTiming adjusted timings).Pairwise (· ≤ ·) := by
  have hsplit := h
  rw [← List.takeWhile_append_dropWhile (p := (· ≤ adjusted)) (l := timings),
    List.pairwise_append] at hsplit
  obtain ⟨htake, hdrop, hcross⟩ := hsplit
  have hbefore : ∀ v ∈ timings.takeWhile (· ≤ adjusted), v ≤ adjusted := by
    intro v hv
    simpa using List.mem_takeWhile_imp hv
  have hafter : ∀ v ∈ timings.dropWhile (· ≤ adjusted), adjusted < v := lt_of_mem_dropWhile h
  unfold insertTiming
  rw [List.pairwise_append, List.pairwise_cons]
  refine ⟨htake, ⟨fun v hv => (hafter v hv).le, hdrop⟩, ?_⟩
  intro v hv v' hv'
  rcases List.mem_cons.mp hv' with rfl | hv'
  · exact hbefore v hv
  · exact hcross v hv v' hv'

/-! ## Whole runs -/

/-- The log of the wrapped limiter. -/
def log (s : State L.logged) : List Entry := s.rateLimiter.2

/-- When the wrapped limiter gave an acquisition. -/
def acquiredAt : Seen → Option Int
  | .wrapped (.asked t true) => some t
  | _ => none

/-- The values that entered the queue: the time of each acquisition and its offset. -/
def queued (trace : List Seen) : List Int :=
  (trace.filterMap acquiredAt).mapIdx (fun i t => t + c.offset i)

theorem queued_append_of_none {trace : List Seen} {e : Seen} (he : acquiredAt e = none) :
    c.queued (trace ++ [e]) = c.queued trace := by
  unfold queued
  rw [List.filterMap_append, List.filterMap_cons_none he]
  simp

theorem queued_acquired (trace : List Seen) (t : Int) :
    c.queued (trace ++ [.wrapped (.asked t true)])
      = c.queued trace ++ [t + c.offset (trace.filterMap acquiredAt).length] := by
  unfold queued
  rw [List.filterMap_append]
  simp [acquiredAt, List.mapIdx_append]

/-- Every acquisition was handed out when as many values had come due. -/
def Ranked (trace : List Seen) : Prop :=
  ∀ p t q, trace = p ++ .own (.asked t true) :: q →
    ∃ v, kthSmallest (c.queued p) (p.countP Seen.handsOut + 1) = some v ∧ v ≤ t

theorem Ranked.snoc {trace : List Seen} {e : Seen} (h : c.Ranked trace)
    (he : ∀ t, e = .own (.asked t true) →
      ∃ v, kthSmallest (c.queued trace) (trace.countP Seen.handsOut + 1) = some v ∧ v ≤ t) :
    c.Ranked (trace ++ [e]) := by
  intro p t q hl
  rcases snoc_eq_append_cons hl with ⟨rfl, rfl⟩ | ⟨q', rfl⟩
  · exact he t rfl
  · exact h p t q' rfl

/-- What every call keeps. What was handed out had come due, so by any later time the values that
are due are those and the ones in the queue. -/
structure Inv (s : State L.logged) (now : Int) (trace : List Seen) : Prop where
  sorted : s.distributedTimings.Pairwise (· ≤ ·)
  drawn : s.drawn = (trace.filterMap acquiredAt).length
  conserved : acquiredNet trace = handedOutNet trace + s.distributedTimings.length
  due : ∀ t, now ≤ t → (c.queued trace).countP (· ≤ t)
    = trace.countP Seen.handsOut + s.distributedTimings.countP (· ≤ t)
  ranked : c.Ranked trace

variable {c} {s : State L.logged} {now t : Int} {trace : List Seen}

/-- An entry that neither queues nor hands out. -/
theorem Inv.snoc {s' : State L.logged} {e : Seen} (h : c.Inv s now trace) (ht : now ≤ t)
    (hs : s'.distributedTimings = s.distributedTimings) (hd : s'.drawn = s.drawn)
    (hacq : acquiredAt e = none) (hout : e.handsOut = false)
    (hnet : acquiredNet [e] = handedOutNet [e]) : c.Inv s' t (trace ++ [e]) where
  sorted := hs ▸ h.sorted
  drawn := by
    rw [hd, h.drawn, List.filterMap_append, List.filterMap_cons_none hacq]
    simp
  conserved := by
    rw [acquiredNet_append, handedOutNet_append, hnet, hs, h.conserved]
    omega
  due := fun x hx => by
    rw [c.queued_append_of_none hacq, hs, h.due x (by omega), List.countP_append,
      List.countP_singleton, hout]
    rfl
  ranked := h.ranked.snoc c (fun t ht => by rw [ht] at hout; cases hout)

/-- Asking the wrapped limiter; what it gives is queued. -/
theorem Inv.enqueue (h : c.Inv s now trace) (ht : now ≤ t) :
    ∃ e, log (c.enqueue t s) = log s ++ [.asked t e]
      ∧ c.Inv (c.enqueue t s) t (trace ++ [.wrapped (.asked t e)]) := by
  unfold DelegatingRateLimiterImpl.enqueue
  cases hres : L.logged.tryAcquireOne t s.rateLimiter with
  | mk acquired r =>
    obtain ⟨hacq, hr⟩ := Prod.mk.inj hres
    refine ⟨acquired, ?_, ?_⟩
    · cases acquired <;> (show r.2 = _; rw [← hr, hacq]; rfl)
    · cases acquired with
      | false => exact h.snoc ht rfl rfl rfl rfl rfl
      | true =>
        have hperm := insertTiming_perm (t + c.offset s.drawn) s.distributedTimings
        constructor
        case sorted => exact insertTiming_sorted h.sorted
        case drawn =>
          rw [List.filterMap_append, List.length_append, ← h.drawn]
          rfl
        case conserved =>
          rw [acquiredNet_append, handedOutNet_append, h.conserved, hperm.length_eq,
            List.length_cons]
          show _ + 1 = _ + 0 + _
          omega
        case due =>
          intro x hx
          rw [c.queued_acquired, ← h.drawn, List.countP_append, h.due x (by omega),
            List.countP_append, hperm.countP_eq]
          simp only [List.countP_cons, List.countP_nil, Seen.handsOut, Bool.false_eq_true, if_false]
          omega
        case ranked => exact h.ranked.snoc c nofun

/-- The front of the queue has come due and goes. -/
theorem Inv.handOut {front : Int} {rest : List Int} (h : c.Inv s t trace)
    (hq : s.distributedTimings = front :: rest) (hfront : front ≤ t) :
    c.Inv { s with distributedTimings := rest, sanityCheckPendingRelease := false } t
      (trace ++ [.own (.asked t true)]) := by
  have hcount : ∀ x, t ≤ x → s.distributedTimings.countP (· ≤ x) = rest.countP (· ≤ x) + 1 := by
    intro x hx
    rw [hq, List.countP_cons, if_pos (by simp; omega)]
  have hsorted := h.sorted
  rw [hq] at hsorted
  constructor
  case sorted => exact hsorted.of_cons
  case drawn =>
    rw [List.filterMap_append]
    exact h.drawn.trans (by simp [acquiredAt])
  case conserved =>
    rw [acquiredNet_append, handedOutNet_append, h.conserved, hq, List.length_cons]
    show _ + 0 = _ + 1 + _
    push_cast
    omega
  case due =>
    intro x hx
    dsimp only
    rw [c.queued_append_of_none rfl, h.due x hx, hcount x hx, List.countP_append]
    show _ = _ + 1 + _
    omega
  case ranked =>
    refine h.ranked.snoc c (fun t' ht' => ?_)
    cases ht'
    refine kthSmallest_le (Nat.succ_pos _) ?_
    rw [h.due t le_rfl, hcount t le_rfl]
    omega

theorem Inv.tryAcquireOne (h : c.Inv s now trace) (ht : now ≤ t) {acquired : Bool}
    {s' : State L.logged} (hcall : c.tryAcquireOne t s = (acquired, s')) :
    ∃ es, log s' = log s ++ es
      ∧ c.Inv s' t (trace ++ es.map Seen.wrapped ++ [.own (.asked t acquired)]) := by
  obtain ⟨e, hlog, henq⟩ := h.enqueue ht
  refine ⟨[.asked t e], ?_⟩
  unfold DelegatingRateLimiterImpl.tryAcquireOne at hcall
  dsimp only at hcall
  split at hcall
  · obtain ⟨rfl, rfl⟩ := Prod.mk.inj hcall
    exact ⟨hlog, henq.snoc le_rfl rfl rfl rfl rfl rfl⟩
  · rename_i front rest hq
    split at hcall
    · rename_i hfront
      obtain ⟨rfl, rfl⟩ := Prod.mk.inj hcall
      exact ⟨hlog, henq.handOut hq hfront⟩
    · obtain ⟨rfl, rfl⟩ := Prod.mk.inj hcall
      exact ⟨hlog, henq.snoc le_rfl rfl rfl rfl rfl rfl⟩

theorem Inv.releaseOne (h : c.Inv s now trace) (ht : now ≤ t) {s' : State L.logged}
    (hcall : releaseOne t s = .ok s') :
    log s' = log s ++ [.givenBack t]
      ∧ c.Inv s' t (trace ++ [.wrapped (.givenBack t)] ++ [.own (.givenBack t)]) := by
  unfold DelegatingRateLimiterImpl.releaseOne at hcall
  split at hcall
  · cases hcall
  · obtain ⟨r, hr, hret⟩ := Checks.bind_ok_iff.mp hcall
    obtain ⟨r₀, -, hr₀⟩ := Checks.bind_ok_iff.mp hr
    cases hret
    cases hr₀
    refine ⟨rfl, h.sorted, ?_, ?_, ?_, ?_⟩
    · rw [List.filterMap_append, List.filterMap_append]
      exact h.drawn.trans (by simp [acquiredAt])
    · have hcons := h.conserved
      simp only [acquiredNet_append, handedOutNet_append]
      show _ + (-1) + 0 = _ + 0 + (-1) + _
      omega
    · intro x hx
      rw [c.queued_append_of_none rfl, c.queued_append_of_none rfl, h.due x (by omega),
        List.countP_append, List.countP_append]
      rfl
    · exact (h.ranked.snoc c (fun _ hn => by cases hn)).snoc c nofun

/-- **Every call keeps the invariant.** -/
theorem inv_reaches {t₀ : Int} {calls : List (Int × RateLimiter.Call)}
    {w : (c.limiter L.logged).Watch} (hw : Watch.Reaches log t₀ calls w) :
    c.Inv w.state w.now w.trace := by
  refine hw.induct (P := fun w => c.Inv w.state w.now w.trace) ?_ ?_ ?_ ?_
  · refine ⟨List.Pairwise.nil, rfl, rfl, fun _ _ => rfl, fun p t q hl => ?_⟩
    have := congrArg List.length hl
    simp at this
  · intro w t acquired s h ht hcall
    exact h.tryAcquireOne ht hcall
  · intro w t s h ht _ hs
    obtain ⟨hlog, hinv⟩ := h.releaseOne ht hs
    exact ⟨[.givenBack t], hlog, hinv⟩
  · intro w t h ht
    exact ⟨h.sorted, h.drawn, h.conserved, fun x hx => h.due x (ht.trans hx), h.ranked⟩

/-! ## Draining the queue -/

/-- A call with something due, when the wrapped limiter says no. -/
theorem tryAcquireOne_due {s : State L} {front : Int} {rest : List Int}
    (hno : (L.tryAcquireOne t s.rateLimiter).1 = false) (hq : s.distributedTimings = front :: rest)
    (hfront : front ≤ t) :
    (c.tryAcquireOne t s).1 = true ∧ (c.tryAcquireOne t s).2.distributedTimings = rest := by
  have henq : (c.enqueue t s).distributedTimings = front :: rest := by
    unfold enqueue
    split
    · exact hq
    · rename_i he
      rw [he] at hno
      cases hno
  unfold tryAcquireOne
  dsimp only
  rw [henq]
  dsimp only
  rw [if_pos hfront]
  exact ⟨rfl, rfl⟩

/-- The answers of calls made one after another, those of the wrapped limiter, and the state. -/
def callAll {L : RateLimiter} (c : DelegatingRateLimiterImpl) :
    List Int → State L → List (Bool × Bool) × State L
  | [], s => ([], s)
  | t :: ts, s =>
    let (acquired, s') := c.tryAcquireOne t s
    let (answers, s'') := c.callAll ts s'
    (((L.tryAcquireOne t s.rateLimiter).1, acquired) :: answers, s'')

/-- **The queue empties** once the wrapped limiter gives nothing more. -/
theorem callAll_drains {s : State L} {ts : List Int}
    (hlen : ts.length = s.distributedTimings.length)
    (hlate : ∀ t ∈ ts, ∀ v ∈ s.distributedTimings, v ≤ t)
    (hno : ∀ a ∈ (c.callAll ts s).1, a.1 = false) :
    (∀ a ∈ (c.callAll ts s).1, a.2 = true) ∧ (c.callAll ts s).2.distributedTimings = [] := by
  induction ts generalizing s with
  | nil => exact ⟨by simp [callAll], List.eq_nil_of_length_eq_zero hlen.symm⟩
  | cons t ts ih =>
    cases hq : s.distributedTimings with
    | nil =>
      rw [hq] at hlen
      cases hlen
    | cons front rest =>
      obtain ⟨hno, hnos⟩ := List.forall_mem_cons.mp hno
      rw [hq] at hlate hlen
      obtain ⟨hyes, hrest⟩ := tryAcquireOne_due (c := c) hno hq
        (hlate t (by simp) front (by simp))
      obtain ⟨hyess, hempty⟩ := ih (hrest ▸ Nat.succ.inj hlen)
        (fun t' ht' v hv => hlate t' (by simp [ht']) v (List.mem_cons_of_mem _ (hrest ▸ hv))) hnos
      exact ⟨List.forall_mem_cons.mpr ⟨hyes, hyess⟩, hempty⟩

end DelegatingRateLimiterImpl

/-- **Jitter delays acquisitions and neither loses nor invents any**, whatever limiter is wrapped
and whatever the offsets are. -/
theorem jitter_delays (c : DelegatingRateLimiterImpl) (L : RateLimiter) {t₀ : Int}
    {calls : List (Int × RateLimiter.Call)} {w : (c.limiter L.logged).Watch}
    (hw : Watch.Reaches DelegatingRateLimiterImpl.log t₀ calls w) :
    let s : DelegatingRateLimiterImpl.State L.logged := w.state
    s.distributedTimings.Pairwise (· ≤ ·)
      ∧ acquiredNet w.trace = handedOutNet w.trace + s.distributedTimings.length
      ∧ (∀ p t q, w.trace = p ++ .own (.asked t true) :: q →
        ∃ v, kthSmallest (c.queued p) (p.countP Seen.handsOut + 1) = some v ∧ v ≤ t)
      ∧ ∀ ts : List Int, ts.length = s.distributedTimings.length →
        (∀ t ∈ ts, ∀ v ∈ s.distributedTimings, v ≤ t) →
        (∀ a ∈ (c.callAll ts s).1, a.1 = false) →
        (∀ a ∈ (c.callAll ts s).1, a.2 = true)
          ∧ (c.callAll ts s).2.distributedTimings = [] := by
  intro s
  have h := DelegatingRateLimiterImpl.inv_reaches hw
  exact ⟨h.sorted, h.conserved, h.ranked,
    fun ts hlen hlate hno => DelegatingRateLimiterImpl.callAll_drains hlen hlate hno⟩

/-- A request per second under an offset of a second and a half, then of none. The second
acquisition overtakes the first. -/
theorem jitter_delays_overtaking :
    let c : DelegatingRateLimiterImpl := ⟨fun k => if k = 0 then 1500000000 else 0⟩
    let L := (LinearRateLimiter.mk ⟨1⟩ (by decide)).limiter
    ∃ w : (c.limiter L.logged).Watch,
      Watch.Reaches DelegatingRateLimiterImpl.log 0 [(0, .tryAcquireOne),
        (1000000000, .tryAcquireOne), (2000000000, .tryAcquireOne), (2000000001, .releaseOne)] w
      ∧ c.queued w.trace = [2500000000, 2000000000]
      ∧ DelegatingRateLimiterImpl.State.distributedTimings w.state = [2500000000]
      ∧ acquiredNet w.trace = 1 ∧ handedOutNet w.trace = 0 := by
  intro c L
  have hrun : ([(0, .tryAcquireOne), (1000000000, .tryAcquireOne), (2000000000, .tryAcquireOne),
      (2000000001, .releaseOne)].foldlM
        (Watch.call (W := c.limiter L.logged) DelegatingRateLimiterImpl.log)
        ⟨(c.limiter L.logged).initial, 0, false, []⟩).map
      (fun w => (c.queued w.trace,
        DelegatingRateLimiterImpl.State.distributedTimings w.state, handedOutNet w.trace))
        = some ([2500000000, 2000000000], [2500000000], 0) := by
    decide +kernel
  obtain ⟨w, hw, hval⟩ := Option.map_eq_some_iff.mp hrun
  simp only [Prod.mk.injEq] at hval
  obtain ⟨hq, htimings, hout⟩ := hval
  have hw := Watch.reaches_of_calls hw
  obtain ⟨-, hcons, -, -⟩ := jitter_delays c L hw
  refine ⟨w, hw, hq, htimings, ?_, hout⟩
  rw [hcons, hout, htimings]
  rfl

end Sortie.Engine
