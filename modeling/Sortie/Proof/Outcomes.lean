import Sortie.Proof.Traffic

/-!
# Every request has one outcome

What holds of a client and its decoders in every state: the requests that have ended
and those that have not are the accepted ones, each once; the caller of a request that
has ended was called back once; and the counters are the sum of the scores of the
requests that have ended. Which requests have ended, how, and with which statuses, is
what the callbacks delivered, and not only what the decoders made of them. When `finish`
returns, what is still outstanding is counted as lost, and the counters account for
every request.
-/

namespace Sortie.Engine

/-! ## What was delivered -/

/-- How a callback ends a request. -/
inductive Ending where
  | response | reset | poolFailure
  deriving DecidableEq, Repr

def Terminal.ending : Terminal → Ending
  | .response => .response
  | .reset .. => .reset
  | .poolFailure _ => .poolFailure

namespace TrafficEvent

/-- The request that a callback ends, and how. -/
def ends : TrafficEvent → Option (Nat × Ending)
  | .decodeHeaders id _ _ endStream _ => if endStream then some (id, .response) else none
  | .decodeData id endStream _ _ => if endStream then some (id, .response) else none
  | .decodeTrailers id _ _ => some (id, .response)
  | .onResetStream id _ _ => some (id, .reset)
  | .onPoolFailure id _ => some (id, .poolFailure)
  | _ => none

/-- What is known of the response to a request, its HTTP status and its gRPC status, once a callback
has told more of it. -/
def tells (id : Nat) (known : Option Nat × Option Nat) :
    TrafficEvent → Option Nat × Option Nat
  | .decodeHeaders i status grpcStatus _ _ => if i = id then (some status, grpcStatus) else known
  | .decodeTrailers i grpcStatus _ => if i = id then (known.1, grpcStatus.or known.2) else known
  | _ => known

/-- The event is no callback on a decoder. -/
structure Silent (e : TrafficEvent) : Prop where
  ends : e.ends = none
  tells : ∀ id known, e.tells id known = known

end TrafficEvent

/-- The requests that callbacks have ended, and how. -/
def endings (es : List TrafficEvent) : List (Nat × Ending) := es.filterMap TrafficEvent.ends

/-- What callbacks have told of the response to a request. -/
def told (es : List TrafficEvent) (id : Nat) : Option Nat × Option Nat :=
  es.foldl (fun known e => e.tells id known) (none, none)

/-- The requests whose response ended. -/
def completed (es : List TrafficEvent) : Nat := (endings es).countP (·.2 = .response)

/-- The requests that ended with a response or a reset. -/
def answered (es : List TrafficEvent) : Nat := (endings es).countP (·.2 ≠ .poolFailure)

variable {es : List TrafficEvent} {e : TrafficEvent} {id : Nat} {c : BenchmarkClient}

theorem endings_append : endings (es ++ [e]) = endings es ++ e.ends.toList := by
  rw [endings, List.filterMap_append]
  cases h : e.ends <;> simp [h, endings]

theorem told_append : told (es ++ [e]) id = e.tells id (told es id) := List.foldl_append

namespace Traffic

variable {w w' : Traffic}

/-! ## What a step can do -/

/-- Handing a callback to the decoder of a request. -/
theorem callBack_some {terminal : StreamDecoder → Terminal}
    {f : StreamDecoder → BenchmarkClient → StreamDecoder.Result}
    (h : w.callBack id terminal f = some w') :
    ∃ d, (id, d) ∈ w.decoders ∧ w' = w.deliver id (terminal d) (f d w.client) := by
  unfold callBack at h
  split at h
  · cases h
  · rename_i i d hfind
    have hi : i = id := by simpa using List.find?_some hfind
    subst hi
    exact ⟨d, List.mem_of_find?_eq_some hfind, (Option.some.inj h).symm⟩

/-- A new decoder has seen nothing. -/
theorem tryStartRequest_decoder {c' : BenchmarkClient} {pool : Bool} {request : Option Request}
    {d : StreamDecoder} (h : c.tryStartRequest pool request = (some d, c')) :
    d.responseHeaders = none ∧ d.grpcStatus = none := by
  revert h
  fun_cases BenchmarkClient.tryStartRequest <;> intro h <;> cases h
  exact ⟨rfl, rfl⟩

/-- A callback on the decoder of a request: it tells the decoder what was delivered, and the caller
is called back when the callback ends the request. -/
structure CalledBack (c : BenchmarkClient) (e : TrafficEvent) (id : Nat) (d : StreamDecoder)
    (t : Terminal) (r : StreamDecoder.Result) : Prop where
  fits : r.Fits c t
  others : ∀ i known, i ≠ id → e.tells i known = known
  tells : (r.decoder.responseHeaders, r.decoder.grpcStatus)
    = e.tells id (d.responseHeaders, d.grpcStatus)
  ends : e.ends = r.called.map fun _ => (id, t.ending)

/-- The ways a step can go. -/
inductive Steps (w : Traffic) (e : TrafficEvent) : Traffic → Prop where
  /-- The client sees to itself, and no request begins or ends. -/
  | quiet {c : BenchmarkClient} : e.Silent → w.client.Moves c 0 [] →
      Steps w e { w with client := c }
  | accept {c : BenchmarkClient} {d : StreamDecoder} : e.Silent →
      d.responseHeaders = none ∧ d.grpcStatus = none →
      c.counters = w.client.counters → c.requestsOutstanding = w.client.requestsOutstanding + 1 →
      c.grpc = w.client.grpc → c.finished = w.client.finished →
      Steps w e { w with
        client := c
        accepted := w.accepted + 1
        decoders := w.decoders ++ [(w.accepted, d)] }
  | deliver {id : Nat} {d : StreamDecoder} {t : Terminal} {r : StreamDecoder.Result} :
      (id, d) ∈ w.decoders → CalledBack w.client e id d t r → Steps w e (w.deliver id t r)
  /-- A call of `finish` that has to wait. -/
  | wait : e.Silent → w.client.finished = false →
      Steps w e { w with
        client := { w.client with finished := true, waitingInFinish := true }
        finish := .waiting }
  /-- Another call of `finish`. -/
  | again : e.Silent → w.client.finished = true → w.finish ≠ .waiting →
      Steps w e { w with finish := .returned }
  /-- `finish` returns, having counted what is lost. -/
  | finish {c : BenchmarkClient} : e.Silent →
      c.counters = w.client.counters → c.requestsOutstanding = w.client.requestsOutstanding →
      c.grpc = w.client.grpc →
      (w.client.finished = false ∧ c.finished = true
        ∨ w.finish = .waiting ∧ c.finished = w.client.finished) →
      Steps w e { w with client := c.countLost, finish := .returned }

theorem steps (h : w.step e = some w') : w.Steps e w' := by
  revert h
  fun_cases w.step e <;> intro h
  case case3 i status s endStream plugins =>
    obtain ⟨d, hd, rfl⟩ := callBack_some h
    refine Steps.deliver hd ⟨d.fits_decodeHeaders _ _ _ _ _, fun _ _ hne => if_neg hne.symm, ?_, ?_⟩
    · cases endStream <;> exact (if_pos rfl).symm
    · cases endStream <;> rfl
  case case4 i endStream plugins dataPlugins =>
    obtain ⟨d, hd, rfl⟩ := callBack_some h
    refine Steps.deliver hd ⟨d.fits_decodeData _ _ _ _, fun _ _ _ => rfl, ?_, ?_⟩ <;>
      cases endStream <;> rfl
  case case5 =>
    obtain ⟨d, hd, rfl⟩ := callBack_some h
    exact Steps.deliver hd
      ⟨d.fits_decodeTrailers _ _ _, fun _ _ hne => if_neg hne.symm, (if_pos rfl).symm, rfl⟩
  case case6 =>
    obtain ⟨d, hd, rfl⟩ := callBack_some h
    exact Steps.deliver hd ⟨d.fits_onResetStream _ _ _, fun _ _ _ => rfl, rfl, rfl⟩
  case case7 =>
    obtain ⟨d, hd, rfl⟩ := callBack_some h
    exact Steps.deliver hd ⟨d.fits_onPoolFailure _ _, fun _ _ _ => rfl, rfl, rfl⟩
  all_goals cases h
  case case1 c heq =>
    have hc : c = w.client := by
      revert heq
      fun_cases BenchmarkClient.tryStartRequest <;> intro heq <;> cases heq <;> rfl
    rw [hc]
    exact Steps.quiet ⟨rfl, fun _ _ => rfl⟩ (BenchmarkClient.Moves.refl _)
  case case2 d c heq =>
    have hd := tryStartRequest_decoder heq
    revert heq
    fun_cases BenchmarkClient.tryStartRequest <;> intro heq <;> cases heq
    exact Steps.accept ⟨rfl, fun _ _ => rfl⟩ hd rfl rfl rfl rfl
  case case8 | case11 =>
    exact Steps.quiet ⟨rfl, fun _ _ => rfl⟩ ⟨fun _ _ => rfl, rfl, rfl, rfl⟩
  case case10 hphase =>
    fun_cases BenchmarkClient.finish w.client
    case case1 hf => exact Steps.again ⟨rfl, fun _ _ => rfl⟩ hf hphase
    case case2 hf _ _ => exact Steps.wait ⟨rfl, fun _ _ => rfl⟩ (by simpa using hf)
    case case3 hf _ _ =>
      exact Steps.finish (c := { w.client with finished := true }) ⟨rfl, fun _ _ => rfl⟩ rfl rfl rfl
        (Or.inl ⟨by simpa using hf, rfl⟩)
  case case13 hphase =>
    unfold BenchmarkClient.finishWait
    split
    · have : w.finishing (false, w.client) = { w with client := w.client } := by
        show { w with client := w.client, finish := .waiting } = _
        rw [← hphase]
      rw [this]
      exact Steps.quiet ⟨rfl, fun _ _ => rfl⟩ (BenchmarkClient.Moves.refl _)
    · exact Steps.finish (c := { w.client with waitingInFinish := false }) ⟨rfl, fun _ _ => rfl⟩
        rfl rfl rfl (Or.inr ⟨hphase, rfl⟩)

/-! ## The books -/

/-- What holds of a client and its decoders in every state that the calls `es` lead to. -/
structure Books (mode : Bool) (es : List TrafficEvent) (w : Traffic) : Prop where
  grpc : w.client.grpc = mode
  outstanding : w.client.requestsOutstanding = w.decoders.length
  ids : (w.ended.map Ended.id ++ w.decoders.map (·.1)).Perm (List.range w.accepted)
  callbacks : w.callbacks.map (·.1) = w.ended.map Ended.id
  counters : ∀ k : Counter, k.isPlugin = false → k ≠ .httpInflightLost →
    w.client.counters k = (w.ended.flatMap (·.score mode)).count k
  moved : ∀ x ∈ w.ended, ∀ k : Counter, k.isPlugin = false →
    x.moved k = decide (k ∈ x.score mode)
  phase : w.finish = .notCalled ↔ w.client.finished = false
  lost : w.finish ≠ .returned → w.client.counters .httpInflightLost = 0
  /-- a request has ended when a callback has ended it -/
  ends : endings es = w.ended.map (fun x => (x.id, x.terminal.ending))
  /-- it ended with the statuses that were delivered -/
  ended : ∀ x ∈ w.ended, x.status = (told es x.id).1.getD 0 ∧ x.grpcStatus = (told es x.id).2
  decoders : ∀ x ∈ w.decoders, (x.2.responseHeaders, x.2.grpcStatus) = told es x.1
  fresh : ∀ id, w.accepted ≤ id → told es id = (none, none)

variable {mode : Bool}

/-- A decoder that is called back and goes on keeps its place. -/
theorem map_fst_update (decoders : List (Nat × StreamDecoder)) (id : Nat) (d : StreamDecoder) :
    (decoders.map (fun x => if x.1 = id then (id, d) else x)).map (·.1) = decoders.map (·.1) := by
  rw [List.map_map]
  apply List.map_congr_left
  intro x _
  show (if x.1 = id then (id, d) else x).1 = x.1
  split
  · rename_i hx
    exact hx.symm
  · rfl

/-- The decoder of a request that has ended is the one that is taken out. -/
theorem perm_eraseP {decoders : List (Nat × StreamDecoder)} {d : StreamDecoder}
    (h : (id, d) ∈ decoders) :
    (decoders.map (·.1)).Perm (id :: (decoders.eraseP (·.1 = id)).map (·.1)) := by
  obtain ⟨x, l₁, l₂, -, hx, hl, herase⟩ :=
    List.exists_of_eraseP (p := fun x => decide (x.1 = id)) h (by simp)
  have hid : x.1 = id := by simpa using hx
  rw [herase, hl, List.map_append, List.map_cons, List.map_append, hid]
  exact List.perm_middle

section

variable (h : Books mode es w)

include h

theorem Books.silent (he : e.Silent) : Books mode (es ++ [e]) w := by
  have htold : told (es ++ [e]) = told es := by
    funext id
    rw [told_append, he.tells]
  have hends : endings (es ++ [e]) = endings es := by
    rw [endings_append, he.ends]
    exact List.append_nil _
  refine { h with ends := hends.trans h.ends, ended := ?_, decoders := ?_, fresh := ?_ } <;>
    rw [htold]
  · exact h.ended
  · exact h.decoders
  · exact h.fresh

theorem Books.quiet (hm : w.client.Moves c 0 []) : Books mode es { w with client := c } :=
  { h with
    grpc := hm.grpc.trans h.grpc
    outstanding := hm.outstanding.trans h.outstanding
    counters := fun k hk hl => (hm.counters k hk).trans (h.counters k hk hl)
    phase := by
      rw [hm.finished]
      exact h.phase
    lost := fun hr => (hm.counters _ rfl).trans (h.lost hr) }

theorem Books.nodup : (w.ended.map Ended.id ++ w.decoders.map (·.1)).Nodup :=
  h.ids.nodup_iff.mpr List.nodup_range

end

section Deliver

variable {d : StreamDecoder} {t : Terminal} {r : StreamDecoder.Result} (h : Books mode es w)
  (hd : (id, d) ∈ w.decoders) (hc : CalledBack w.client e id d t r)

include hc

theorem CalledBack.told_of_ne {i : Nat} (hne : i ≠ id) : told (es ++ [e]) i = told es i := by
  rw [told_append, hc.others _ _ hne]

include h hd

theorem Books.told_self :
    (r.decoder.responseHeaders, r.decoder.grpcStatus) = told (es ++ [e]) id := by
  rw [hc.tells, told_append, ← h.decoders _ hd]

/-- The requests that had ended before were told nothing. -/
theorem Books.told_ended : ∀ x ∈ w.ended, x.status = (told (es ++ [e]) x.id).1.getD 0
    ∧ x.grpcStatus = (told (es ++ [e]) x.id).2 := by
  intro x hx
  have hne : x.id ≠ id := fun hxid => List.disjoint_of_nodup_append h.nodup
    (List.mem_map_of_mem hx) (hxid ▸ List.mem_map_of_mem (f := (·.1)) hd)
  rw [hc.told_of_ne hne]
  exact h.ended x hx

theorem Books.told_fresh : ∀ i, w.accepted ≤ i → told (es ++ [e]) i = (none, none) := by
  intro i hi
  have hlt : id < w.accepted := List.mem_range.mp
    (h.ids.subset (List.mem_append_right _ (List.mem_map_of_mem (f := (·.1)) hd)))
  rw [hc.told_of_ne (by omega)]
  exact h.fresh i hi

/-- A callback after which the request goes on. -/
theorem Books.deliver_goes_on (hnone : r.called = none) (hm : w.client.Moves r.client 0 []) :
    Books mode (es ++ [e]) (w.deliver id t r) := by
  have hends := hc.ends
  unfold Traffic.deliver
  rw [hnone] at hends ⊢
  refine { h.quiet hm with
    outstanding := (h.quiet hm).outstanding.trans (List.length_map _).symm
    ids := ?_, ends := ?_, ended := h.told_ended hd hc, decoders := ?_
    fresh := h.told_fresh hd hc }
  · rw [map_fst_update]
    exact h.ids
  · rw [endings_append, hends, h.ends]
    exact List.append_nil _
  · intro x hx
    obtain ⟨y, hy, rfl⟩ := List.mem_map.mp hx
    by_cases hyid : y.1 = id
    · rw [if_pos hyid]
      exact h.told_self hd hc
    · rw [if_neg hyid, hc.told_of_ne hyid]
      exact h.decoders y hy

theorem Books.deliver : Books mode (es ++ [e]) (w.deliver id t r) := by
  rcases hc.fits with ⟨hnone, hm⟩ | ⟨args, hsome, hm⟩
  · exact h.deliver_goes_on hd hc hnone hm
  · have hends := hc.ends
    unfold Traffic.deliver
    rw [hsome] at hends ⊢
    rw [h.grpc] at hm
    have hmoves := hm.counters
    refine ⟨hm.grpc.trans h.grpc, ?_, ?_, ?_, ?_, ?_, ?_, ?_, ?_, ?_, ?_, h.told_fresh hd hc⟩
    · rw [hm.outstanding, h.outstanding, List.length_eraseP_of_mem hd (by simp)]
    · rw [List.map_append, List.append_assoc]
      exact ((perm_eraseP hd).symm.append_left _).trans h.ids
    · rw [List.map_append, List.map_append, h.callbacks]
      rfl
    · intro k hk hl
      rw [hmoves k hk, h.counters k hk hl, List.flatMap_append, List.count_append]
      simp only [List.flatMap_cons, List.flatMap_nil, List.append_nil]
      rfl
    · intro x hx k hk
      rcases List.mem_append.mp hx with hx | hx
      · exact h.moved x hx k hk
      · obtain rfl := List.mem_singleton.mp hx
        rw [decide_eq_decide, hmoves k hk]
        rw [← List.count_pos_iff]
        show _ ↔ 0 < (score mode (r.decoder.responseHeaders.getD 0) r.decoder.grpcStatus t).count k
        omega
    · rw [hm.finished]
      exact h.phase
    · intro hret
      rw [hmoves _ rfl, h.lost hret, Score.not_lost]
    · rw [endings_append, hends, h.ends, List.map_append]
      rfl
    · intro x hx
      rcases List.mem_append.mp hx with hx | hx
      · exact h.told_ended hd hc x hx
      · obtain rfl := List.mem_singleton.mp hx
        rw [← h.told_self hd hc]
        exact ⟨rfl, rfl⟩
    · intro x hx
      have hnodup := (perm_eraseP hd).nodup_iff.mp (List.nodup_append.mp h.nodup).2.1
      have hne : x.1 ≠ id := by
        intro hxid
        have := List.mem_map_of_mem (f := (·.1)) hx
        rw [hxid] at this
        exact (List.nodup_cons.mp hnodup).1 this
      rw [hc.told_of_ne hne]
      exact h.decoders x (List.mem_of_mem_eraseP hx)

end Deliver

/-- Counting what is lost moves one counter. -/
theorem counters_countLost (c : BenchmarkClient) (k : Counter) :
    c.countLost.counters k
      = c.counters k + if k = .httpInflightLost then c.requestsOutstanding else 0 := by
  unfold BenchmarkClient.countLost
  split
  · show (if k = .httpInflightLost then c.counters k + c.requestsOutstanding
      else c.counters k) = _
    split <;> rfl
  · rename_i h0
    have : c.requestsOutstanding = 0 := by omega
    rw [this, ite_self]
    rfl

theorem countLost_keeps (c : BenchmarkClient) :
    c.countLost.grpc = c.grpc ∧ c.countLost.requestsOutstanding = c.requestsOutstanding
      ∧ c.countLost.finished = c.finished := by
  unfold BenchmarkClient.countLost
  split <;> exact ⟨rfl, rfl, rfl⟩

theorem Books.finish (h : Books mode es w) (hc : c.counters = w.client.counters)
    (ho : c.requestsOutstanding = w.client.requestsOutstanding) (hg : c.grpc = w.client.grpc)
    (hf : c.finished = true) :
    Books mode es { w with client := c.countLost, finish := .returned } := by
  obtain ⟨hg', ho', hf'⟩ := countLost_keeps c
  refine { h with
    grpc := hg'.trans (hg.trans h.grpc)
    outstanding := ho'.trans (ho.trans h.outstanding)
    counters := ?_, phase := ?_, lost := fun hr => absurd rfl hr }
  · intro k hk hl
    rw [counters_countLost, if_neg hl, Nat.add_zero, hc]
    exact h.counters k hk hl
  · rw [hf', hf]
    constructor <;> intro h <;> cases h

/-- A `finish` that is not over has been called. -/
theorem Books.finished_of (h : Books mode es w) (hf : w.client.finished = false ∧ c.finished = true
      ∨ w.finish = .waiting ∧ c.finished = w.client.finished) : c.finished = true := by
  rcases hf with ⟨-, hf⟩ | ⟨hw, hf⟩
  · exact hf
  · rw [hf]
    by_contra hn
    have := h.phase.mpr (by simpa using hn)
    rw [hw] at this
    cases this

theorem Books.step (h : Books mode es w) (hs : w.Steps e w') : Books mode (es ++ [e]) w' := by
  cases hs with
  | quiet he hm => exact (h.silent he).quiet hm
  | deliver hd hc => exact h.deliver hd hc
  | @accept c d he hnew hc ho hg hf =>
    have h' := h.silent he
    refine { h' with
      grpc := hg.trans h.grpc
      outstanding := ?_, ids := ?_, counters := ?_, phase := ?_, lost := ?_, decoders := ?_
      fresh := fun id hid => h'.fresh id (Nat.le_of_succ_le hid) }
    · rw [ho, h.outstanding, List.length_append]
      rfl
    · rw [List.map_append, ← List.append_assoc, List.range_succ]
      exact h.ids.append_right _
    · intro k hk hl
      rw [hc]
      exact h.counters k hk hl
    · rw [hf]
      exact h.phase
    · intro hr
      rw [hc]
      exact h.lost hr
    · intro x hx
      rcases List.mem_append.mp hx with hx | hx
      · exact h'.decoders x hx
      · obtain rfl := List.mem_singleton.mp hx
        rw [hnew.1, hnew.2, h'.fresh _ le_rfl]
  | wait he hf =>
    refine { h.silent he with phase := ?_, lost := fun _ => ?_ }
    · constructor <;> intro hc <;> cases hc
    · exact h.lost (fun hr => by
        have := h.phase.mpr hf
        rw [this] at hr
        cases hr)
  | again he hf hw =>
    refine { h.silent he with phase := ?_, lost := fun hr => absurd rfl hr }
    rw [hf]
    constructor <;> intro hc <;> cases hc
  | finish he hc ho hg hf => exact (h.silent he).finish hc ho hg (h.finished_of hf)

theorem books_init (c : BenchmarkClient) : Books c.grpc [] (Traffic.init c) where
  grpc := rfl
  outstanding := rfl
  ids := List.Perm.refl _
  callbacks := rfl
  counters := fun _ _ _ => rfl
  moved := fun x hx => by cases hx
  phase := ⟨fun _ => rfl, fun _ => rfl⟩
  lost := fun _ => rfl
  ends := rfl
  ended := fun x hx => by cases hx
  decoders := fun x hx => by cases hx
  fresh := fun _ _ => rfl

theorem books_run (h : Reaches c es w) : Books c.grpc es w := by
  induction h with
  | nil => exact books_init c
  | snoc _ hs ih => exact ih.step (steps hs)

/-! ## The counters at the end -/

/-- The counters account for every request, on what the calls `es` delivered. -/
structure Accounted (es : List TrafficEvent) (w : Traffic) : Prop where
  requests : w.accepted = completed es + w.client.counters .streamResets
    + w.client.counters .poolOverflow + w.client.counters .poolConnectionFailure
    + w.client.counters .poolFailureTimeout + w.client.counters .httpInflightLost
  statusClasses : w.client.grpc = false →
    completed es = w.client.counters .http1xx + w.client.counters .http2xx
      + w.client.counters .http3xx + w.client.counters .http4xx
      + w.client.counters .http5xx + w.client.counters .httpXxx
  grpcStatuses : w.client.grpc = true →
    completed es + w.client.counters .streamResets = ∑ᶠ s, w.client.counters (.grpcStatus s)
  resetPhases : w.client.counters .streamResets
    = w.client.counters .streamResetsBeforeHeaders + w.client.counters .streamResetsIncompleteBody
  resetReasons : w.client.counters .streamResets
    = (StreamResetReason.all.map (fun r => w.client.counters (.streamResetReason r))).sum
  connectionFailures : w.client.counters .poolConnectionFailure
    = w.client.counters .poolFailureLocalConnectionFailure
      + w.client.counters .poolFailureRemoteConnectionFailure
  /-- a caller was called back once when a callback ended its request, and never otherwise -/
  callbacks : ∀ id < w.accepted, (w.callbacks.map (·.1)).count id
    = if id ∈ (endings es).map (·.1) then 1 else 0

/-- Counting is adding up ones. -/
theorem countP_eq_sum {α : Type*} (p : α → Bool) (l : List α) :
    l.countP p = (l.map (fun x => if p x then 1 else 0)).sum := by
  induction l with
  | nil => rfl
  | cons x l ih => rw [List.countP_cons, ih, List.map_cons, List.sum_cons, Nat.add_comm]

section

variable (h : Books mode es w)

include h

theorem Books.completed_eq :
    completed es = (w.ended.map (fun x => x.terminal.responses)).sum := by
  rw [completed, h.ends, List.countP_map, countP_eq_sum]
  congr 2
  funext x
  cases hx : x.terminal <;> simp [hx, Terminal.ending, Terminal.responses]

theorem Books.answered_count :
    answered es = w.ended.countP (fun x => x.terminal.answers = 1) := by
  rw [answered, h.ends, List.countP_map]
  congr 1
  funext x
  cases hx : x.terminal <;> simp [hx, Terminal.ending, Terminal.answers]

theorem Books.answered_eq :
    answered es = (w.ended.map (fun x => x.terminal.answers)).sum := by
  rw [h.answered_count, countP_eq_sum]
  congr 2
  funext x
  cases x.terminal <;> rfl

/-- A counter is the sum of the entries that the requests have for it. -/
theorem Books.counter (k : Counter) (hk : k.isPlugin = false)
    (hl : k ≠ .httpInflightLost) :
    w.client.counters k = (w.ended.map (fun e => (e.score mode).count k)).sum := by
  rw [h.counters k hk hl, List.count_flatMap]
  rfl

theorem Books.length : w.accepted = w.ended.length + w.decoders.length := by
  have := h.ids.length_eq
  rw [List.length_append, List.length_map, List.length_map, List.length_range] at this
  exact this.symm

/-- What holds of the entries of every request, for these counters, holds of the counters. -/
theorem Books.sum_eq {f : Ended → Nat} (ks : List Counter)
    (hks : ∀ k ∈ ks, k.isPlugin = false ∧ k ≠ .httpInflightLost)
    (hf : ∀ x, f x = (ks.map ((x.score mode).count ·)).sum) :
    (w.ended.map f).sum = (ks.map w.client.counters).sum := by
  obtain rfl : f = _ := funext hf
  clear hf
  induction ks with
  | nil => simp
  | cons k ks ih =>
    obtain ⟨hk, hks⟩ := List.forall_mem_cons.mp hks
    simp only [List.map_cons, List.sum_cons]
    rw [List.sum_map_add, ih hks, ← h.counter k hk.1 hk.2]

/-- Every request that ended ended in one way. -/
theorem Books.outcomes :
    w.ended.length = completed es + w.client.counters .streamResets
      + w.client.counters .poolOverflow + w.client.counters .poolConnectionFailure
      + w.client.counters .poolFailureTimeout := by
  have hone : (fun _ : Ended => 1) = fun e => e.terminal.responses + ([.streamResets,
      .poolOverflow, .poolConnectionFailure, .poolFailureTimeout].map
        ((e.score mode).count ·)).sum := by
    funext e
    exact Score.one_outcome mode e.status e.grpcStatus e.terminal
  have hlength : w.ended.length = (w.ended.map (fun _ => 1)).sum := by
    rw [List.map_const', List.sum_replicate_nat, Nat.mul_one]
  rw [hlength, hone, List.sum_map_add, ← h.completed_eq,
    h.sum_eq _ (by decide) fun _ => rfl]
  simp only [List.map_cons, List.map_nil, List.sum_cons, List.sum_nil]
  omega

theorem Books.answers :
    answered es = completed es + w.client.counters .streamResets := by
  have heq : (fun e : Ended => e.terminal.answers) = fun e =>
      e.terminal.responses + (e.score mode).count .streamResets := by
    funext e
    exact Score.answers_eq mode e.status e.grpcStatus e.terminal
  rw [h.answered_eq, heq, List.sum_map_add, ← h.completed_eq, ← h.counter .streamResets rfl nofun]

theorem Books.resetPhases :
    w.client.counters .streamResets
      = w.client.counters .streamResetsBeforeHeaders
        + w.client.counters .streamResetsIncompleteBody :=
  (h.counter .streamResets rfl nofun).trans (h.sum_eq
    [.streamResetsBeforeHeaders, .streamResetsIncompleteBody] (by decide) fun e =>
      Score.reset_phases mode e.status e.grpcStatus e.terminal)

theorem Books.connectionFailures :
    w.client.counters .poolConnectionFailure
      = w.client.counters .poolFailureLocalConnectionFailure
        + w.client.counters .poolFailureRemoteConnectionFailure :=
  (h.counter .poolConnectionFailure rfl nofun).trans (h.sum_eq
    [.poolFailureLocalConnectionFailure, .poolFailureRemoteConnectionFailure] (by decide) fun e =>
      Score.connection_failures mode e.status e.grpcStatus e.terminal)

theorem Books.resetReasons :
    w.client.counters .streamResets
      = (StreamResetReason.all.map (fun r => w.client.counters (.streamResetReason r))).sum :=
  (h.counter .streamResets rfl nofun).trans (h.sum_eq
    (StreamResetReason.all.map Counter.streamResetReason) (by decide) fun e =>
      Score.reset_reasons mode e.status e.grpcStatus e.terminal)

theorem Books.callbacks_once (id : Nat) :
    (w.callbacks.map (·.1)).count id = if id ∈ (endings es).map (·.1) then 1 else 0 := by
  have hids : (endings es).map (·.1) = w.ended.map Ended.id := by
    rw [h.ends, List.map_map]
    rfl
  rw [h.callbacks, hids, (List.nodup_append.mp h.nodup).1.count]

end

theorem Books.statusClasses (h : Books false es w) :
    completed es = w.client.counters .http1xx + w.client.counters .http2xx
      + w.client.counters .http3xx + w.client.counters .http4xx
      + w.client.counters .http5xx + w.client.counters .httpXxx := by
  rw [h.completed_eq, h.sum_eq [.http1xx, .http2xx, .http3xx, .http4xx, .http5xx, .httpXxx]
    (by decide) fun e => Score.status_classes e.status e.grpcStatus e.terminal]
  simp only [List.map_cons, List.map_nil, List.sum_cons, List.sum_nil]
  omega

/-- The multiplicities of the entries of a list add up to its length. -/
theorem finsum_count {α : Type*} [BEq α] [LawfulBEq α] (l : List α) :
    ∑ᶠ a, l.count a = l.length := by
  classical
  obtain rfl := lawful_beq_subsingleton ‹BEq α› instBEqOfDecidableEq
  rw [finsum_eq_sum_of_support_subset _ (s := l.toFinset), List.sum_toFinset_count_eq_length]
  intro a ha
  rw [Finset.mem_coe, List.mem_toFinset]
  exact List.count_pos_iff.mp (Nat.pos_of_ne_zero ha)

theorem Books.grpcStatuses (h : Books true es w) :
    answered es = ∑ᶠ s, w.client.counters (.grpcStatus s) := by
  have heq : (fun s => w.client.counters (.grpcStatus s)) = fun s =>
      ((w.ended.filter (fun e => e.terminal.answers = 1)).map Ended.grpcStatus).count s := by
    funext s
    rw [h.counter (.grpcStatus s) rfl nofun]
    induction w.ended with
    | nil => rfl
    | cons e l ih =>
      have he : (e.score true).count (.grpcStatus s)
          = if e.grpcStatus = s then e.terminal.answers else 0 :=
        Score.grpc_status e.status e.grpcStatus e.terminal s
      rw [List.map_cons, List.sum_cons, ih, he, List.filter_cons]
      by_cases ha : e.terminal.answers = 1
      · rw [if_pos (decide_eq_true ha), List.map_cons, List.count_cons, ha, Nat.add_comm]
        congr 1
        by_cases hs : e.grpcStatus = s
        · rw [if_pos hs, if_pos (by simp [hs])]
        · rw [if_neg hs, if_neg (by simpa using hs)]
      · have h0 : e.terminal.answers = 0 := by
          cases ht : e.terminal with
          | poolFailure reason => rfl
          | response => rw [ht] at ha; exact absurd rfl ha
          | reset phase reason => rw [ht] at ha; exact absurd rfl ha
        rw [h0, ite_self, Nat.zero_add, if_neg (by decide)]
  rw [heq, finsum_count, List.length_map, ← List.countP_eq_length_filter, h.answered_count]

/-- The books are complete once everything outstanding is counted as lost. -/
theorem Books.accounted (h : Books mode es w)
    (hlost : w.client.counters .httpInflightLost = w.decoders.length) : Accounted es w where
  requests := by
    rw [h.length, hlost, h.outcomes]
  statusClasses := fun hg => by
    obtain rfl : mode = false := h.grpc.symm.trans hg
    exact h.statusClasses
  grpcStatuses := fun hg => by
    obtain rfl : mode = true := h.grpc.symm.trans hg
    rw [← h.answers]
    exact h.grpcStatuses
  resetPhases := h.resetPhases
  resetReasons := h.resetReasons
  connectionFailures := h.connectionFailures
  callbacks := fun id _ => h.callbacks_once id

/-- When `finish` returns, the counters account for every request that was accepted, and the callers
of those that have ended were called back. -/
theorem accounted_of_finish (h : Reaches c es w) (hs : w.step e = some w')
    (hf : w.finish ≠ .returned) (hr : w'.finish = .returned) : Accounted (es ++ [e]) w' := by
  have hbooks := books_run h
  have hsteps := steps hs
  refine (hbooks.step hsteps).accounted ?_
  cases hsteps with
  | quiet | accept => exact absurd hr hf
  | @deliver id d t r hd hfits =>
    have hkeep : (w.deliver id t r).finish = w.finish := by
      unfold Traffic.deliver
      split <;> rfl
    rw [hkeep] at hr
    exact absurd hr hf
  | wait => cases hr
  | again _ hfin hw =>
    -- a client that has finished is waiting, or has returned before
    exfalso
    cases hphase : w.finish with
    | notCalled =>
      rw [hbooks.phase.mp hphase] at hfin
      cases hfin
    | waiting => exact hw hphase
    | returned => exact hf hphase
  | @finish c' _ hc ho hg hfin =>
    rw [counters_countLost, if_pos rfl, hc, hbooks.lost hf, ho, hbooks.outstanding, Nat.zero_add]

/-- A client without backpressure. -/
def plainClient (grpc : Bool) : BenchmarkClient where
  protocol := .http2
  provideResourceBackpressure := false
  grpc := grpc

/-- A call that succeeds, one that is reset and one that is lost. -/
def oneLost : List TrafficEvent :=
  [.tryStartRequest true (some {}), .tryStartRequest true (some {}),
    .tryStartRequest true (some {}), .decodeHeaders 1 200 none false [],
    .onResetStream 0 .connectionTermination [], .finish, .decodeTrailers 1 (some 0) [],
    .finishTimer]

theorem accounted_of_finish_oneLost :
    ∃ w', Reaches (plainClient true) (oneLost ++ [.finishWait]) w' ∧ w'.accepted = 3
      ∧ endings (oneLost ++ [.finishWait]) = [(0, .reset), (1, .response)]
      ∧ w'.client.counters .http2xx = 1 ∧ w'.client.counters .streamResets = 1
      ∧ w'.client.counters .httpInflightLost = 1 ∧ Accounted (oneLost ++ [.finishWait]) w' := by
  obtain ⟨w, w', hrun, hs, hf, hr, ha, h2, hsr, hl⟩ : ∃ w w' : Traffic,
      Reaches (plainClient true) oneLost w
        ∧ w.step .finishWait = some w' ∧ w.finish ≠ .returned ∧ w'.finish = .returned
        ∧ w'.accepted = 3 ∧ w'.client.counters .http2xx = 1
        ∧ w'.client.counters .streamResets = 1 ∧ w'.client.counters .httpInflightLost = 1 :=
    ⟨_, _, Lts.Run.of_foldlM rfl, rfl, nofun, rfl, rfl, rfl, rfl, rfl⟩
  exact ⟨w', hrun.snoc hs, ha, rfl, h2, hsr, hl, accounted_of_finish hrun hs hf hr⟩

/-- **The books balance at every moment**: a request that was accepted has ended in one way and its
caller was called back once, or it is outstanding and its caller was not. -/
theorem balanced_of_reaches (h : Reaches c es w) :
    w.accepted = completed es + w.client.counters .streamResets
        + w.client.counters .poolOverflow + w.client.counters .poolConnectionFailure
        + w.client.counters .poolFailureTimeout + w.client.requestsOutstanding
      ∧ ∀ id < w.accepted, (w.callbacks.map (·.1)).count id
          + (w.decoders.map (·.1)).count id = 1 := by
  have hbooks := books_run h
  refine ⟨?_, fun id hid => ?_⟩
  · rw [hbooks.length, hbooks.outcomes, hbooks.outstanding]
  · rw [hbooks.callbacks, ← List.count_append, hbooks.ids.count_eq]
    exact List.nodup_range.count.trans (if_pos (List.mem_range.mpr hid))

/-- One of two requests has ended. -/
theorem balanced_oneOutstanding : ∃ w, Reaches (plainClient true)
    [.tryStartRequest true (some {}), .tryStartRequest true (some {}),
      .onResetStream 0 .connectionTermination []] w
    ∧ w.accepted = w.client.counters .streamResets + w.client.requestsOutstanding :=
  ⟨_, Lts.Run.of_foldlM_and rfl fun h => (balanced_of_reaches h).1⟩

end Traffic

end Sortie.Engine
