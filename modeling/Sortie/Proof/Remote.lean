import Sortie.Engine.RemoteProcess
import Sortie.Proof.Messages

/-!
# What a remote run returns

A client that sends one start gets at most one response: its stream starts at most one
execution, and without a progress interval that execution writes nothing but its final
response. So the client's assertion holds, and `run` returns true exactly when the
stream ended OK and carried that response. What the response says is not looked at, so
an execution that failed with an `error_detail` counts as a success.
-/

namespace Sortie.Engine.ServiceImpl

open RemoteProcessImpl Api

variable {c : Config} {w w' : Served} {v v' : Service} {s k : Nat} {e : Event} {max : UInt32}
  {x x' : Execution} {es : List MessageEvent}
variable {calls : Setup} {r : StartRequest}

/-! ## One execution per start -/

/-- A start was read and has not been accepted or refused. -/
def StreamPc.hasStart : StreamPc → Bool
  | .checkDone | .waitPrevious | .claimSlot => true
  | _ => false

/-- The executions of stream `s`, and the one it may still start. -/
def Service.startsOn (v : Service) (s : Nat) : Nat :=
  (v.executions.map (·.stream)).count s + if (v.streams s).pc.hasStart then 1 else 0

/-- The streams of the executions stay what they are; only a slot adds one. -/
theorem Inv.map_stream (hi : Inv v) (h : v.step max e = some v') (he : ∀ s, e ≠ .claimSlot s) :
    v'.executions.map (·.stream) = v.executions.map (·.stream) := by
  refine List.ext_getElem? fun k => ?_
  rw [List.getElem?_map, List.getElem?_map]
  cases hx : v.executions[k]? with
  | some x =>
    obtain ⟨x', hx', hch⟩ := hi.persists h hx
    rw [hx', Option.map_some, Option.map_some, hch.stream (hi.sound k x hx)]
  | none =>
    have hlen := hi.length_step h he
    have : v'.executions[k]? = none := by
      rw [List.getElem?_eq_none_iff] at hx ⊢
      omega
    rw [this]

/-- The event delivers a start on stream `s`. -/
def Event.readsStart (s : Nat) : Event → Bool
  | .read t .start => t == s
  | _ => false

/-- Where a slot is taken, a start that was read becomes an execution. -/
theorem Service.startsOn_claimSlot {t : Nat} (h : v.step max (.claimSlot t) = some v') :
    v'.startsOn s ≤ v.startsOn s := by
  obtain ⟨-, hstep⟩ := Service.steps h
  by_cases hts : t = s
  · subst hts
    cases hstep with
    | refuse hpc _ =>
      simp [Service.startsOn, Service.goTo, Service.setStream, hpc, StreamPc.hasStart]
    | accept hpc _ =>
      simp [Service.startsOn, Service.goTo, Service.setStream, Service.accept, hpc,
        StreamPc.hasStart]
  · have hne : s ≠ t := Ne.symm hts
    cases hstep with
    | refuse hpc _ =>
      simp [Service.startsOn, Service.goTo, Service.setStream, Function.update_of_ne hne]
    | accept hpc _ =>
      simp [Service.startsOn, Service.goTo, Service.setStream, Service.accept,
        Function.update_of_ne hne, List.count_append, hts]

/-- **A stream starts no more executions than starts were read on it.** -/
theorem Inv.startsOn_step (hi : Inv v) (h : v.step max e = some v') :
    v'.startsOn s ≤ v.startsOn s + if e.readsStart s then 1 else 0 := by
  by_cases hslot : ∃ t, e = .claimSlot t
  · obtain ⟨t, rfl⟩ := hslot
    exact Nat.le_trans (Service.startsOn_claimSlot h) (Nat.le_add_right _ _)
  · have hmap := hi.map_stream h (fun t ht => hslot ⟨t, ht⟩)
    unfold Service.startsOn
    rw [hmap]
    by_cases hs : e.stream = some s
    · obtain ⟨-, hstep⟩ := Service.steps h
      -- unless a start was read, a stream that has one after the step had it before
      have hflag : (v'.streams s).pc.hasStart = true →
          (v.streams s).pc.hasStart = true ∨ e.readsStart s = true := by
        intro hpc'
        cases hstep with
        | @read t r hpc =>
          cases hs
          cases r with
          | start => exact Or.inr (by simp [Event.readsStart])
          | cancellation =>
            simp only [Service.readRequest] at hpc'
            split at hpc'
            · exact Or.inl hpc'
            · simp [Service.goTo, Service.setStream, StreamPc.hasStart] at hpc'
          | empty => exact Or.inl hpc'
          | _ => simp
              [Service.readRequest, Service.goTo, Service.setStream, StreamPc.hasStart] at hpc'
        | checkDone hpc _ _ | waitPrevious hpc _ _ =>
          cases hs
          exact Or.inl (by rw [hpc]; rfl)
        | @cancel t k x hpc hk hx =>
          cases hs
          rw [Service.streams_cancelExecution] at hpc'
          simp [Service.goTo, Service.setStream, StreamPc.hasStart] at hpc'
        | thread _ _ => exact absurd hs (by simp [Event.stream])
        | refuse _ _ | accept _ _ => exact absurd ⟨_, rfl⟩ hslot
        | create _ | createFails _ | giveBack _ | finish _ _ =>
          cases hs
          simp [Service.goTo, Service.setStream, StreamPc.hasStart] at hpc'
      cases hpc' : (v'.streams s).pc.hasStart with
      | false => simp only [Bool.false_eq_true, if_false]; omega
      | true => rcases hflag hpc' with h0 | h0 <;> simp [h0]
    · rw [Service.streams_step h hs]
      exact Nat.le_add_right _ _

/-! ## Nothing but the final response -/

/-- The execution was not asked for progress, and reports none. -/
structure Execution.Silent (x : Execution) : Prop where
  interval : x.interval = 0
  progress : x.progress = .absent
  responses : ∀ r ∈ x.responses, r.isFinal = true

/-- A start that asks for no progress runs without its timer. -/
theorem prepare_interval {interval : Int} (hnone : calls.progressInterval = none)
    (h : prepare calls = .process interval) : interval = 0 := by
  revert h
  fun_cases prepare calls <;> intro h <;> cases h
  all_goals simp_all [progressMillis]

theorem Execution.Silent.act {a : Action} {effect : Effect} (hsilent : x.Silent)
    (h : x.act k a = some (x', effect))
    (ha : ∀ calls, a = .setup calls → calls.progressInterval = none) : x'.Silent := by
  obtain ⟨hint, hprog, hresp⟩ := hsilent
  cases Execution.acts h with
  | startProgress _ hpos =>
    rw [hint] at hpos
    exact absurd hpos (by decide)
  | @setup calls interval _ hprep =>
    exact ⟨prepare_interval (ha calls rfl) hprep, hprog, hresp⟩
  | wake hp | snapshot hp | snapshotNothing hp | snapshotThrows hp | endProgressWrite hp =>
    exact nomatch hprog.symm.trans hp
  | beginWrite _ => exact ⟨hint, hprog, List.forall_mem_cons.mpr ⟨rfl, hresp⟩⟩
  | @leaveRun ok _ => cases ok <;> exact ⟨hint, hprog, hresp⟩
  | @stopNoProgress t _ _ | @joinProgress t _ _ => cases t <;> exact ⟨hint, hprog, hresp⟩
  | _ => exact ⟨hint, hprog, hresp⟩

theorem Changes.silent (hsilent : x.Silent) (h : Changes v k x e x')
    (he : ∀ calls, e = .thread k (.setup calls) → calls.progressInterval = none) : x'.Silent := by
  cases h with
  | same _ => exact hsilent
  | act hact => exact hsilent.act hact (fun calls ha => he calls (by rw [ha]))
  | read _ | start _ | giveBack _ =>
    exact ⟨hsilent.interval, hsilent.progress, hsilent.responses⟩
  | cancel _ _ | call _ _ _ =>
    rw [requestCancellation_eq]
    exact ⟨hsilent.interval, hsilent.progress, hsilent.responses⟩

/-- A silent execution has written its final response, or nothing. -/
theorem Execution.Silent.responses_eq (hsilent : x.Silent) (hs : Sound k x.pc x) :
    x.responses = [] ∨ x.responses = [.final x.error] := by
  obtain ⟨ps, hps, hresponses⟩ := hs.responses
  have hnone : ps = [] := by
    cases ps with
    | nil => rfl
    | cons r ps =>
      have hr := hps r List.mem_cons_self
      have hmem : r ∈ x.responses := by
        rw [hresponses]
        split <;> simp
      rw [hr] at hmem
      exact absurd (hsilent.responses _ hmem) (by simp [Response.isFinal])
  rw [hresponses, hnone]
  split
  · exact Or.inr rfl
  · exact Or.inl rfl

/-! ## Along a run -/

/-- What was delivered is a start. -/
def isStart : Option Message → Bool
  | some (.start _) => true
  | _ => false

/-- What any run of the service keeps, and what it says about the messages `delivered`. -/
structure Served.Attends (c : Config) (delivered : Nat → List (Option Message)) (w : Served) :
    Prop where
  inv : Inv w.service
  tracks : w.Tracks c
  last : ∀ s m, w.last s = some m → some m ∈ delivered s
  /-- every execution was started by a message of its stream, and reports as it asks -/
  started : ∀ (k : Nat) (x : Execution) (r : StartRequest), w.service.executions[k]? = some x →
    w.starts[k]? = some r →
    some (.start r) ∈ delivered x.stream ∧ (r.progressInterval = none → x.Silent)
  count : ∀ s, w.service.startsOn s ≤ (delivered s).countP isStart

variable {D D' : Nat → List (Option Message)}

/-- A step that takes no slot and makes no calls, whatever is delivered with it. -/
theorem Served.Attends.keep (ha : w.Attends c D)
    (h : w.service.step c.maxConcurrentExecutions e = some v) (hslot : ∀ s, e ≠ .claimSlot s)
    (hsetup : ∀ k calls, e ≠ .thread k (.setup calls)) (hD : ∀ s, D s ⊆ D' s)
    (last : Nat → Option Message) (hlast : ∀ s m, last s = some m → some m ∈ D' s)
    (hcount : ∀ s, v.startsOn s ≤ (D' s).countP isStart) (down : Option Down) :
    ({ w with service := v, last, down } : Served).Attends c D' := by
  refine ⟨ha.inv.step h, ha.tracks.keep ha.inv h hslot hsetup _ _, hlast,
    fun k x' r hx' hr => ?_, hcount⟩
  obtain ⟨x, hx, hch⟩ := ha.inv.changes_old h hslot hx'
  obtain ⟨hsent, hsilent⟩ := ha.started k x r hx hr
  rw [hch.stream (ha.inv.sound k x hx)]
  exact ⟨hD _ hsent, fun hnone =>
    hch.silent (hsilent hnone) (fun calls hc => absurd hc (hsetup k calls))⟩

theorem Served.Attends.claimSlot (ha : w.Attends c D) (hlast : w.last s = some (.start r))
    (h : w.service.step c.maxConcurrentExecutions (.claimSlot s) = some v) :
    ({ w with service := v, starts := w.accepted c r } : Served).Attends c D := by
  have hlen := ha.tracks.length
  -- an execution that was there has the start it had; a new one has this start
  have hcases : ∀ (k : Nat) (x' : Execution) (r' : StartRequest), v.executions[k]? = some x' →
      (w.accepted c r)[k]? = some r' →
      (∃ x, w.service.executions[k]? = some x ∧ w.starts[k]? = some r'
        ∧ Changes w.service k x (.claimSlot s) x') ∨ (x' = { stream := s } ∧ r' = r) := by
    intro k x' r' hx' hr'
    unfold Served.accepted at hr'
    rcases ha.inv.changes h hx' with ⟨x, hx, hch⟩ | ⟨hk, t, ht, hnew⟩
    · left
      have hk : k < w.starts.length := by
        rw [hlen]
        exact (List.getElem?_eq_some_iff.mp hx).1
      refine ⟨x, hx, ?_, hch⟩
      split at hr'
      · exact hr'
      · rwa [List.getElem?_append_left hk] at hr'
    · right
      obtain rfl := Event.claimSlot.inj ht
      refine ⟨hnew, ?_⟩
      split at hr'
      · rw [List.getElem?_eq_none (by omega)] at hr'
        cases hr'
      · rw [hk, ← hlen, List.getElem?_concat_length] at hr'
        exact (Option.some.inj hr').symm
  refine ⟨ha.inv.step h, ha.tracks.claimSlot ha.inv h r, ha.last, ?_, ?_⟩
  · intro k x' r' hx' hr'
    rcases hcases k x' r' hx' hr' with ⟨x, hx, hr, hch⟩ | ⟨rfl, rfl⟩
    · obtain ⟨hsent, hsilent⟩ := ha.started k x r' hx hr
      rw [hch.stream (ha.inv.sound k x hx)]
      exact ⟨hsent, fun hnone => hch.silent (hsilent hnone) (fun _ hc => absurd hc (by simp))⟩
    · exact ⟨ha.last s _ hlast, fun _ => ⟨rfl, rfl, by simp⟩⟩
  · exact fun t => Nat.le_trans (Service.startsOn_claimSlot h) (ha.count t)

theorem Served.Attends.setup {process : Call} (ha : w.Attends c D) (hr : w.starts[k]? = some r)
    (hcalls : c.setup r process = some calls)
    (h : w.service.step c.maxConcurrentExecutions (.thread k (.setup calls)) = some v) :
    ({ w with service := v, setups := Function.update w.setups k (some calls) } : Served).Attends
      c D := by
  refine ⟨ha.inv.step h, ha.tracks.setup ha.inv hr hcalls h, ha.last, ?_, ?_⟩
  · intro j x' r' hx' hr'
    obtain ⟨x, hx, hch⟩ := ha.inv.changes_old h (fun _ => by simp) hx'
    obtain ⟨hsent, hsilent⟩ := ha.started j x r' hx hr'
    rw [hch.stream (ha.inv.sound j x hx)]
    refine ⟨hsent, fun hnone => hch.silent (hsilent hnone) ?_⟩
    rintro calls' ⟨rfl, rfl⟩
    obtain rfl := Option.some.inj (hr.symm.trans hr')
    rw [(Config.setup_eq hcalls).2, hnone]
  · intro s
    have := ha.inv.startsOn_step (s := s) h
    exact Nat.le_trans this (ha.count s)

/-- What the events `es` deliver on each stream. -/
def deliveries (es : List MessageEvent) (s : Nat) : List (Option Message) :=
  es.filterMap (MessageEvent.deliveredOn s)

theorem deliveries_snoc (es : List MessageEvent) (e : MessageEvent) (s : Nat) :
    deliveries (es ++ [e]) s = deliveries es s ++ (e.deliveredOn s).toList := by
  unfold deliveries
  rw [List.filterMap_append]
  congr 1

/-- Reading `m` on stream `s` adds to what is delivered there, and nowhere else. -/
theorem Served.Attends.read {m : Message} (ha : w.Attends c (deliveries es))
    (h : w.service.step c.maxConcurrentExecutions (.read s m.request) = some v)
    (down : Option Down) :
    ({ w with service := v, last := Function.update w.last s (some m), down } : Served).Attends c
      (deliveries (es ++ [.read s m])) := by
  refine ha.keep h (fun _ => by simp) (fun _ _ => by simp) ?_ _ ?_ ?_ down
  · intro t
    rw [deliveries_snoc]
    exact List.subset_append_left _ _
  · intro t m' hm'
    rw [deliveries_snoc, List.mem_append]
    by_cases hts : t = s
    · subst hts
      obtain rfl : m = m' := by simpa using hm'
      exact Or.inr (by simp [MessageEvent.deliveredOn])
    · exact Or.inl (ha.last t m' (by simpa [Function.update_of_ne hts] using hm'))
  · intro t
    have hstep := ha.inv.startsOn_step (s := t) h
    have hbefore := ha.count t
    rw [deliveries_snoc, List.countP_append]
    have hnew : (if (Event.read s m.request).readsStart t then 1 else 0)
        ≤ ((MessageEvent.read s m).deliveredOn t).toList.countP isStart := by
      by_cases hts : s = t
      · subst hts
        cases m <;> simp [Event.readsStart, Message.request, MessageEvent.deliveredOn, isStart]
      · cases m <;> simp [Event.readsStart, Message.request, hts]
    omega

/-- **Every run attends to what is delivered in it.** -/
theorem attends_run (h : Served.Reaches c es w) : w.Attends c (deliveries es) := by
  induction h with
  | nil =>
    refine ⟨Inv.init, .init, fun _ _ h => absurd h (by simp), fun _ _ _ h => absurd h (by simp),
      fun s => ?_⟩
    simp [Service.startsOn, StreamPc.hasStart]
  | @snoc es e w w' _ hs ha =>
    have hquiet : ∀ {e : MessageEvent}, (∀ s, e.deliveredOn s = none) →
        deliveries (es ++ [e]) = deliveries es := by
      intro e he
      funext s
      rw [deliveries_snoc, he s]
      simp
    have hmono : ∀ s, deliveries es s ⊆ deliveries (es ++ [e]) s := by
      intro s
      rw [deliveries_snoc]
      exact List.subset_append_left _ _
    cases Served.steps hs with
    | read hstep => exact ha.read hstep _
    | @endOfStream s v hstep =>
      refine ha.keep hstep (fun _ => by simp) (fun _ _ => by simp) hmono _ ?_ ?_ w.down
      · intro t m hm
        by_cases hts : t = s
        · subst hts
          simp at hm
        · exact hmono t (ha.last t m (by simpa [Function.update_of_ne hts] using hm))
      · intro t
        have hstarts := ha.inv.startsOn_step (s := t) hstep
        have hbefore := ha.count t
        rw [deliveries_snoc, List.countP_append]
        simp only [Event.readsStart, Bool.false_eq_true, if_false] at hstarts
        omega
    | claimSlot hlast hstep =>
      rw [hquiet (fun _ => rfl)]
      exact ha.claimSlot hlast hstep
    | setup hr hcalls hstep =>
      rw [hquiet (fun _ => rfl)]
      exact ha.setup hr hcalls hstep
    | emptyOptional _ _ =>
      rw [hquiet (fun _ => rfl)]
      exact ⟨ha.inv.congr rfl rfl, ⟨ha.tracks.length, ha.tracks.tracked, ha.tracks.fresh⟩,
        ha.last, ha.started, ha.count⟩
    | @other e v hmsg hstep =>
      rw [hquiet (fun _ => rfl)]
      refine ha.keep hstep ?_ ?_ (fun _ => List.Subset.refl _) _ ha.last ?_ w.down
      · rintro s rfl
        exact absurd hmsg (by simp [Event.carriesMessage])
      · rintro k calls rfl
        exact absurd hmsg (by simp [Event.carriesMessage])
      · intro t
        have hstarts := ha.inv.startsOn_step (s := t) hstep
        have hno : e.readsStart t = false := by
          cases e with
          | read _ _ => exact absurd hmsg (by simp [Event.carriesMessage])
          | _ => rfl
        rw [hno] at hstarts
        exact Nat.le_trans hstarts (ha.count t)

/-! ## The property -/

/-- **A client that sends one start gets its final response, or nothing.** -/
theorem Served.Attends.responsesOn (ha : w.Attends c D) (hclient : D s <+: [some (.start r), none])
    (hr : r.progressInterval = none) :
    w.service.responsesOn s = [] ∨ ∃ error, w.service.responsesOn s = [.final error] := by
  have hone : (w.service.executions.filter (·.stream == s)).length ≤ 1 := by
    have hcount := ha.count s
    have hstart : (D s).countP isStart ≤ 1 := by
      exact Nat.le_trans (hclient.sublist.countP_le (p := isStart)) (Nat.le_of_eq rfl)
    unfold Service.startsOn at hcount
    rw [List.count, List.countP_map, List.countP_eq_length_filter] at hcount
    have hsame : w.service.executions.filter ((· == s) ∘ (·.stream))
        = w.service.executions.filter (·.stream == s) := rfl
    rw [hsame] at hcount
    omega
  unfold Service.responsesOn
  cases hf : w.service.executions.filter (·.stream == s) with
  | nil => exact Or.inl rfl
  | cons x rest =>
    rw [hf] at hone
    obtain rfl : rest = [] := List.length_eq_zero_iff.mp (by simpa using hone)
    have hmem : x ∈ w.service.executions.filter (·.stream == s) := by rw [hf]; simp
    obtain ⟨hx, hstream⟩ := List.mem_filter.mp hmem
    obtain ⟨k, hk⟩ := List.getElem?_of_mem hx
    have hlen : k < w.starts.length := by
      rw [ha.tracks.length]
      exact (List.getElem?_eq_some_iff.mp hk).1
    have hget := List.getElem?_eq_getElem hlen
    -- the start of the only execution is the one the client sent
    obtain ⟨hsent, hsilent⟩ := ha.started k x _ hk hget
    rw [beq_iff_eq.mp hstream] at hsent
    have heq : w.starts[k] = r := by
      have := hclient.subset hsent
      simpa using this
    have hsilent := hsilent (by rw [heq]; exact hr)
    rcases hsilent.responses_eq (ha.inv.sound k x hk) with h0 | h0
    · exact Or.inl (by simp [h0])
    · exact Or.inr ⟨x.error, by simp [h0]⟩

end Sortie.Engine.ServiceImpl

namespace Sortie.Engine.RemoteProcessImpl

open ServiceImpl Checks

/-- The stream ended OK and carried one final response, without an error. -/
def Exchange.Succeeded (x : Exchange) : Prop := x.endedOk = true ∧ x.responses = [.final none]

/-- The stream ended OK and carried one final response, with an error. -/
def Exchange.AnsweredWithError (x : Exchange) : Prop :=
  x.endedOk = true ∧ ∃ error, x.responses = [.final (some error)]

theorem startRequest_progressInterval {m : OptionsImpl.Members} (h : startRequest m = .ok r) :
    r.progressInterval = none := by
  obtain ⟨o, -, h⟩ := bind_ok_iff.mp h
  cases h
  rfl

/-- Options that were validated can be sent. -/
theorem startRequest_of_validate {m : OptionsImpl.Members} {env : Outside}
    (h : m.validate env = .ok ()) : ∃ r, startRequest m = .ok r := by
  have hmessage : m.validateMessage env = .ok () := by
    iterate 8 obtain ⟨_, -, h⟩ := bind_ok_iff.mp h
    exact h
  obtain ⟨message, hmessage, -⟩ := bind_ok_iff.mp hmessage
  refine ⟨{ options := { message with nighthawkService := some "" } }, ?_⟩
  rw [startRequest, hmessage]
  rfl

/-- `run` does not look at what the response says. -/
theorem run_eq_true_iff {x : Exchange}
    (hok : x.endedOk = true → x.written = true ∧ x.halfClosed = true)
    (hone : x.responses = [] ∨ ∃ error, x.responses = [.final error]) :
    run x ≠ none
      ∧ (run x = some true ↔ x.endedOk = true ∧ ∃ error, x.responses = [.final error]) := by
  unfold run performNighthawkBenchmark
  cases hend : x.endedOk with
  | true =>
    obtain ⟨hw, hc⟩ := hok hend
    rcases hone with hr | ⟨error, hr⟩ <;> simp [hw, hc, hr]
  | false =>
    cases x.written <;> cases x.halfClosed <;> rcases hone with hr | ⟨error, hr⟩ <;> simp [hr]

/--
**A remote run never aborts, and it returns true exactly for an execution that succeeded
unless the execution was answered with an error.**
-/
theorem run_iff_succeeded_iff {m : OptionsImpl.Members} {env : Outside}
    (hm : m.validate env = .ok ()) :
    ∃ r, startRequest m = .ok r ∧ ∀ (c : Config) (es : List MessageEvent) (w : Served) (s : Nat)
      (x : Exchange), Served.Reaches c es w → deliveries es s <+: [some (.start r), none] →
      w.Shows s x →
      run x ≠ none ∧ ((run x = some true ↔ x.Succeeded) ↔ ¬x.AnsweredWithError) := by
  obtain ⟨r, hr⟩ := startRequest_of_validate hm
  refine ⟨r, hr, fun c es w s x hrun hclient hshows => ?_⟩
  have hresponses := (attends_run hrun).responsesOn hclient (startRequest_progressInterval hr)
  have hboth : (x.endedOk = true → x.written = true ∧ x.halfClosed = true)
      ∧ (x.responses = [] ∨ ∃ error, x.responses = [.final error]) := by
    cases hshows with
    | @ended status written halfClosed _ hclosed =>
      refine ⟨fun hend => hclosed ?_, hresponses⟩
      simpa [Exchange.endedOk] using hend
    | @broken written halfClosed seen hseen =>
      refine ⟨fun hend => absurd hend (by simp [Exchange.endedOk]), ?_⟩
      rcases hresponses with h0 | ⟨error, h0⟩
      · rw [h0] at hseen
        exact Or.inl (List.prefix_nil.mp hseen)
      · rw [h0] at hseen
        rcases List.prefix_cons_iff.mp hseen with h1 | ⟨t, h1, h2⟩
        · exact Or.inl h1
        · exact Or.inr ⟨error, by rw [h1, List.prefix_nil.mp h2]⟩
  obtain ⟨hnone, htrue⟩ := run_eq_true_iff hboth.1 hboth.2
  refine ⟨hnone, ?_⟩
  rw [htrue]
  constructor
  · rintro hiff ⟨hend, error, hr'⟩
    have := (hiff.mp ⟨hend, some error, hr'⟩).2
    rw [hr'] at this
    cases this
  · intro hno
    constructor
    · rintro ⟨hend, error, hr'⟩
      cases error with
      | none => exact ⟨hend, hr'⟩
      | some d => exact absurd ⟨hend, d, hr'⟩ hno
    · rintro ⟨hend, hr'⟩
      exact ⟨hend, none, hr'⟩

/-- A service on a machine where every name is that of a local server. -/
def localConfig : Config :=
  { bareConfig with
    outside := { bareConfig.outside with hostPath := fun _ => ("127.0.0.1:80", "/") } }

/-- Options with a target, and nothing else set. -/
def localMembers : OptionsImpl.Members := { uri := some "http://127.0.0.1:80/" }

/-- What a client with these options sends. -/
def localRequest : StartRequest :=
  (startRequest localMembers).toOption.getD { options := {} }

/-- One start, a run with this result, and the end of the stream. -/
def remoteEvents (result : Bool) : List MessageEvent :=
  [.read 0 (.start localRequest), .claimSlot 0, .other (.create 0 none), .setup 0 .returned,
    .other (.thread 0 .publish), .other (.thread 0 (.startProgress true)),
    .other (.thread 0 (.enterRun .starts)), .other (.thread 0 (.leaveRun (some result))),
    .other (.thread 0 .stopProgress), .other (.thread 0 (.finish true)),
    .other (.thread 0 .unpublish), .other (.thread 0 .release), .other (.thread 0 .markDone),
    .other (.thread 0 .beginWrite), .other (.thread 0 .endWrite), .other (.thread 0 .destroy),
    .other (.thread 0 .exit), .endOfStream 0, .other (.finish 0)]

/-- A run that succeeded. -/
theorem run_iff_succeeded_local :
    ∃ w x, Served.Reaches localConfig (remoteEvents true) w ∧ w.Shows 0 x ∧ run x = some true
      ∧ x.Succeeded ∧ ((run x = some true ↔ x.Succeeded) ↔ ¬x.AnsweredWithError) := by
  have hvalid : localMembers.validate localConfig.outside = .ok () := rfl
  obtain ⟨r, hr, hall⟩ := run_iff_succeeded_iff hvalid
  obtain rfl : localRequest = r := Except.ok.inj ((rfl : _ = Except.ok localRequest).symm.trans hr)
  refine ⟨_, _, Lts.Run.of_foldlM_and rfl fun hrun =>
    ⟨.ended rfl (fun _ => ⟨rfl, rfl⟩), rfl, ⟨rfl, rfl⟩, ?_⟩⟩
  exact (hall localConfig _ _ 0 _ hrun (List.prefix_refl _) (.ended rfl fun _ => ⟨rfl, rfl⟩)).2

/-- A run that failed: the service says so in its response, and the client returns true. -/
theorem run_of_failed_execution :
    startRequest localMembers = .ok localRequest
    ∧ ∃ w x, Served.Reaches localConfig (remoteEvents false) w ∧ w.Shows 0 x
      ∧ x.responses = [.final (some unknownFailure)] ∧ run x = some true ∧ ¬x.Succeeded := by
  refine ⟨rfl, _, _, Lts.Run.of_foldlM rfl, .ended rfl (fun _ => ⟨rfl, rfl⟩), rfl, rfl, ?_⟩
  rintro ⟨-, h⟩
  cases h

end Sortie.Engine.RemoteProcessImpl
