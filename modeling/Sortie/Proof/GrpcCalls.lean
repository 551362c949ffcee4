import Sortie.Proof.Outcomes

/-!
# Failed gRPC calls

A gRPC call is scored on the status its decoder has seen, and that status is provisional
as long as there are no trailers: headers that do not end the response may carry one
too. A call that fails after a status of zero was seen, because its stream is reset or
because the HTTP status is an error, is therefore in none of the two counters that
should have it. Without such calls the scores are as one would have them.
-/

namespace Sortie.Engine

/-- An HTTP status of the class that `http_2xx` counts. -/
def IsGood (status : Nat) : Prop := 200 ≤ status ∧ status ≤ 299

instance (status : Nat) : Decidable (IsGood status) := inferInstanceAs (Decidable (_ ∧ _))

/-- After `es` a call has failed that was told to have succeeded: the gRPC status is zero, and yet
the stream was reset or the HTTP status is not a good one. -/
def Misled (es : List TrafficEvent) (x : Nat × Ending) : Prop :=
  x.2 ≠ .poolFailure ∧ (told es x.1).2 = some 0
    ∧ (x.2 = .response → ¬ IsGood ((told es x.1).1.getD 0))

instance (es : List TrafficEvent) (x : Nat × Ending) : Decidable (Misled es x) :=
  inferInstanceAs (Decidable (_ ∧ _ ∧ (_ → _)))

/-- None of the calls that callbacks have ended was misled. -/
def Straight (es : List TrafficEvent) : Prop := ∀ x ∈ endings es, ¬ Misled es x

instance (es : List TrafficEvent) : Decidable (Straight es) :=
  inferInstanceAs (Decidable (∀ x ∈ _, _))

/-! ## The scores of calls -/

/-- The call failed although the gRPC status its decoder had seen is zero. -/
def Ended.Misled (x : Ended) : Prop :=
  x.terminal.answers = 1 ∧ x.grpcStatus = some 0
    ∧ (x.terminal.responses = 1 → ¬ IsGood x.status)

instance (x : Ended) : Decidable x.Misled := inferInstanceAs (Decidable (_ ∧ _ ∧ (_ → _)))

namespace Score

open BenchmarkClient

variable (status : Nat) (s : Option Nat) (t : Terminal)

theorem statusCounter_good : statusCounter status = .http2xx ↔ IsGood status := by
  unfold statusCounter IsGood
  constructor
  · intro h
    by_contra hn
    rw [if_neg (by omega)] at h
    split at h
    · cases h
    · split at h
      · cases h
      · split at h
        · cases h
        · split at h <;> cases h
  · intro h
    rw [if_pos (by omega)]

/-- In gRPC mode what ends without a status of zero is an error. -/
theorem count_grpcError :
    (score true status s t).count .grpcError = if s = some 0 then 0 else t.answers := by
  have hscore : (grpcScore s).count .grpcError = if s = some 0 then 0 else 1 := by
    unfold grpcScore
    by_cases hs : s = some 0
    · rw [if_pos hs, if_pos hs]
      rfl
    · rw [if_neg hs, if_neg hs]
      rfl
  cases t with
  | response =>
    have hclass : (if statusCounter status = .http2xx ∧ true = true ∧ s ≠ some 0 then []
        else [statusCounter status]).count .grpcError = 0 := by
      refine count_eq_zero (p := Counter.isGrpc) (b := false) (fun k' hk' => ?_) rfl
      split at hk'
      · cases hk'
      · rw [List.mem_singleton.mp hk']
        exact isGrpc_statusCounter status
    rw [score, responseScore, if_pos rfl, List.count_append, hclass, hscore]
    rfl
  | reset phase reason =>
    show ([phaseCounter phase, .streamResetReason reason, .streamResets]
      ++ grpcScore s).count .grpcError = _
    rw [List.count_append, hscore]
    cases phase <;> exact Nat.zero_add _
  | poolFailure reason => cases reason <;> exact (ite_self 0).symm

/-- In gRPC mode `http_2xx` has the responses with a good status and a gRPC status of zero. -/
theorem count_http2xx :
    (score true status s t).count .http2xx
      = if t.responses = 1 ∧ IsGood status ∧ s = some 0 then 1 else 0 := by
  cases t with
  | response =>
    rw [count_response true status s rfl]
    by_cases hgood : IsGood status
    · rw [(statusCounter_good status).mpr hgood]
      by_cases hs : s = some 0
      · rw [if_neg (fun h => h.2.2 hs), if_pos ⟨rfl, hgood, hs⟩]
        rfl
      · rw [if_pos ⟨rfl, rfl, hs⟩, if_neg (fun h => hs h.2.2)]
    · have hne : statusCounter status ≠ .http2xx := fun h =>
        hgood ((statusCounter_good status).mp h)
      rw [if_neg (fun h => hne h.1), if_neg (fun h => hgood h.2.1)]
      exact List.count_eq_zero.mpr (fun h => hne (List.mem_singleton.mp h).symm)
  | reset phase reason =>
    rw [count_reset true status s phase reason rfl, if_neg (fun h => by cases h.1)]
    cases phase <;> rfl
  | poolFailure reason =>
    rw [if_neg (fun h => by cases h.1)]
    cases reason <;> rfl

end Score

/-- A call that ended is a success, an error or neither, and the last only if it was misled. -/
theorem Ended.answers_eq (x : Ended) :
    x.terminal.answers = (x.score true).count .http2xx + (x.score true).count .grpcError
      + if x.Misled then 1 else 0 := by
  obtain ⟨id, t, status, s, moved⟩ := x
  unfold Ended.score Ended.Misled
  rw [Score.count_http2xx, Score.count_grpcError]
  by_cases hs : s = some 0
  · cases t with
    | response =>
      by_cases hgood : IsGood status <;> simp [hs, hgood, Terminal.answers, Terminal.responses]
    | reset phase reason | poolFailure reason => simp [hs, Terminal.answers, Terminal.responses]
  · simp [hs]

namespace Traffic

variable {w : Traffic} {es : List TrafficEvent}

/-- The calls that were misled are those that the counters leave out. -/
theorem Books.grpcAnswered (h : Books true es w) :
    answered es = w.client.counters .http2xx + w.client.counters .grpcError
      + w.ended.countP (fun x => x.Misled) := by
  have heq : (fun x : Ended => x.terminal.answers) = fun x =>
      (x.score true).count .http2xx + (x.score true).count .grpcError
        + if x.Misled then 1 else 0 := by
    funext x
    exact x.answers_eq
  rw [h.answered_eq, heq, List.sum_map_add, List.sum_map_add, ← h.counter .http2xx rfl nofun,
    ← h.counter .grpcError rfl nofun, countP_eq_sum]
  simp only [decide_eq_true_eq]

/-- A decoder is misled by what was delivered. -/
theorem Books.misled_iff {mode : Bool} (h : Books mode es w) {x : Ended} (hx : x ∈ w.ended) :
    Misled es (x.id, x.terminal.ending) ↔ x.Misled := by
  obtain ⟨hstatus, hgrpc⟩ := h.ended x hx
  unfold Misled Ended.Misled
  rw [hstatus, hgrpc]
  cases x.terminal <;> simp [Terminal.ending, Terminal.answers, Terminal.responses]

theorem Books.straight_iff {mode : Bool} (h : Books mode es w) :
    Straight es ↔ ∀ x ∈ w.ended, ¬ x.Misled := by
  rw [Straight, h.ends, List.forall_mem_map]
  exact forall₂_congr fun x hx => not_congr (h.misled_iff hx)

/-! ## Whom the counters leave out -/

/-- The end of the request moved the counter. -/
def Moved (w : Traffic) (k : Counter) (id : Nat) : Prop :=
  ∃ x ∈ w.ended, x.id = id ∧ x.moved k = true

/-- On what the calls `es` delivered: every call is in `http_2xx` or in `grpc_error`, a failed one
in the latter, and only calls that succeeded are in the former. -/
structure Scored (es : List TrafficEvent) (w : Traffic) : Prop where
  answered : answered es = w.client.counters .http2xx + w.client.counters .grpcError
  resets : ∀ id, (id, .reset) ∈ endings es → w.Moved .grpcError id
  httpErrors : ∀ id, (id, .response) ∈ endings es → ¬ IsGood ((told es id).1.getD 0) →
    w.Moved .grpcError id
  successes : ∀ id, w.Moved .http2xx id →
    (id, .response) ∈ endings es ∧ IsGood ((told es id).1.getD 0) ∧ (told es id).2 = some 0

/-- A request that a callback ended is among those that have ended. -/
theorem Books.ended_of_mem {mode : Bool} (h : Books mode es w) {id : Nat} {ending : Ending}
    (hid : (id, ending) ∈ endings es) : ∃ x ∈ w.ended, x.id = id ∧ x.terminal.ending = ending := by
  rw [h.ends] at hid
  obtain ⟨x, hx, heq⟩ := List.mem_map.mp hid
  exact ⟨x, hx, (Prod.mk.inj heq).1, (Prod.mk.inj heq).2⟩

/-- In gRPC mode the calls are scored right exactly when none of them fails after having been told
to have succeeded. -/
theorem scored_iff_straight {c : BenchmarkClient} (h : Reaches c es w) (hg : c.grpc = true) :
    Scored es w ↔ Straight es := by
  have hbooks : Books true es w := by
    have := books_run h
    rwa [hg] at this
  have hcount := hbooks.grpcAnswered
  have hmoved : ∀ x ∈ w.ended, ∀ k : Counter, k.isPlugin = false →
      (x.moved k = true ↔ 0 < (x.score true).count k) := by
    intro x hx k hk
    rw [hbooks.moved x hx k hk, decide_eq_true_eq, List.count_pos_iff]
  rw [hbooks.straight_iff]
  constructor
  · intro hs x hx hmisled
    have hpos : 0 < w.ended.countP (fun x => x.Misled) :=
      List.countP_pos_iff.mpr ⟨x, hx, decide_eq_true hmisled⟩
    have := hs.answered
    omega
  · intro hno
    have hzero : w.ended.countP (fun x => x.Misled) = 0 :=
      List.countP_eq_zero.mpr (fun x hx hm => hno x hx (of_decide_eq_true hm))
    -- a failed call that is not misled has another status than zero, and that makes it an error
    have herror : ∀ x ∈ w.ended, x.terminal.answers = 1 →
        (x.terminal.responses = 1 → ¬ IsGood x.status) → w.Moved .grpcError x.id := by
      intro x hx ha hfailed
      refine ⟨x, hx, rfl, ?_⟩
      rw [hmoved x hx _ rfl, Ended.score, Score.count_grpcError,
        if_neg (fun hs => hno x hx ⟨ha, hs, hfailed⟩), ha]
      exact Nat.one_pos
    refine ⟨by omega, ?_, ?_, ?_⟩
    · intro id hid
      obtain ⟨x, hx, rfl, ht⟩ := hbooks.ended_of_mem hid
      refine herror x hx ?_ fun hr => ?_ <;> cases hterm : x.terminal <;>
        simp_all [Terminal.ending, Terminal.answers, Terminal.responses]
    · intro id hid hbad
      obtain ⟨x, hx, rfl, ht⟩ := hbooks.ended_of_mem hid
      rw [← (hbooks.ended x hx).1] at hbad
      refine herror x hx ?_ fun _ => hbad
      cases hterm : x.terminal <;> simp_all [Terminal.ending, Terminal.answers]
    · rintro id ⟨x, hx, rfl, hm⟩
      rw [hmoved x hx _ rfl, Ended.score, Score.count_http2xx] at hm
      split at hm
      · rename_i hgood
        obtain ⟨hstatus, hgrpc⟩ := hbooks.ended x hx
        refine ⟨?_, hstatus ▸ hgood.2.1, hgrpc ▸ hgood.2.2⟩
        rw [hbooks.ends]
        refine List.mem_map.mpr ⟨x, hx, ?_⟩
        cases hterm : x.terminal <;> simp_all [Terminal.ending, Terminal.responses]
      · cases hm

/-- A call that succeeds and one that is reset before it is answered. -/
def honestCalls : List TrafficEvent :=
  [.tryStartRequest true (some {}), .tryStartRequest true (some {}),
    .decodeHeaders 0 200 none false [], .onResetStream 1 .remoteReset [],
    .decodeTrailers 0 (some 0) []]

theorem scored_honestCalls :
    ∃ w, Reaches (plainClient true) honestCalls w ∧ answered honestCalls = 2
      ∧ w.client.counters .http2xx = 1 ∧ w.client.counters .grpcError = 1
      ∧ Straight honestCalls ∧ Scored honestCalls w := by
  have hstraight : Straight honestCalls := by decide
  refine ⟨_, Lts.Run.of_foldlM_and rfl fun hrun => ?_⟩
  exact ⟨rfl, rfl, rfl, hstraight, (scored_iff_straight hrun rfl).mpr hstraight⟩

/-- The headers of a streaming response say that the call succeeded, and then the stream is reset.
-/
def resetCall : List TrafficEvent :=
  [.tryStartRequest true (some {}), .decodeHeaders 0 200 (some 0) false [],
    .onResetStream 0 .remoteReset []]

/-- The call is in no counter of gRPC calls but that of its status. -/
theorem unscored_after_reset :
    ∃ w, Reaches (plainClient true) resetCall w
      ∧ answered resetCall = 1 ∧ w.client.counters .streamResets = 1
      ∧ w.client.counters .http2xx = 0 ∧ w.client.counters .grpcError = 0
      ∧ ¬ Scored resetCall w := by
  refine ⟨_, Lts.Run.of_foldlM rfl, rfl, rfl, rfl, rfl, fun h => ?_⟩
  exact absurd h.answered (by decide)

end Traffic

end Sortie.Engine
