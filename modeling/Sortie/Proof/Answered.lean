import Sortie.Engine.Options
import Sortie.Proof.Service

/-!
# Every accepted start is answered, unless a call throws

The thread of an execution writes its final response through one lambda, and every
way on which it writes one writes exactly one. An exception takes another way: it
unwinds the thread, which answers nothing, and if it came out of `Process::run` after
`shutdown_` was set to false it aborts the service, since the Process is destroyed
before the guard that gives the slot back runs.

So an execution is answered exactly when none of its calls threw. `threw_run` ties
what the state says about that to the events of the run.
-/

namespace Sortie.Engine.ServiceImpl

variable {w w' : Service} {k : Nat} {max : UInt32} {e : Event} {es : List Event} {x : Execution}

/-- A call of execution `k` threw an exception that nothing catches. -/
def Event.throwsIn (k : Nat) : Event → Bool
  | .thread j a => j == k && a.throws
  | _ => false

/-- Its Process was destroyed while `shutdown_` was false. -/
def Execution.destroyedRunning (x : Execution) : Bool :=
  x.aborted && (x.pc == .destroy .answer || x.pc == .destroy .unwind)

/-- Exactly one final response, and the Process was shut down when it was destroyed. -/
def Execution.AnsweredOnce (x : Execution) : Prop :=
  x.responses.countP Response.isFinal = 1 ∧ x.destroyedRunning = false

/-- The thread has left `handleExecutionRequest`, or has taken the service with it. -/
def Execution.HasLeft (x : Execution) : Prop :=
  x.pc = .ended .answer ∨ x.pc = .ended .unwind ∨ x.aborted = true

/-! ## What the state says about the calls -/

theorem Changes.threw {x' : Execution} (hs : Sound k x.pc x) (h : Changes w k x e x') :
    x'.threw = (x.threw || e.throwsIn k) := by
  have hquiet : ∀ e : Event, e.throwsIn k = false → x.threw = (x.threw || e.throwsIn k) := by
    intro e he
    rw [he, Bool.or_false]
  cases h with
  | same hsubj =>
    apply hquiet
    cases e with
    | thread j a =>
      have hjk : j ≠ k := by
        rintro rfl
        exact hsubj rfl
      simp [Event.throwsIn, hjk]
    | _ => rfl
  | act hact =>
    rw [(Execution.acted hs hact).threw]
    simp [Event.throwsIn]
  | read _ => exact hquiet _ rfl
  | start hpc =>
    rw [← hquiet _ rfl]
    simp [Execution.threw, hpc, Pc.unwinding]
  | giveBack hpc =>
    rw [← hquiet _ rfl]
    simp [Execution.threw, Execution.giveSlotBack, hpc, Pc.unwinding]
  | cancel _ _ | call _ _ _ =>
    rw [← hquiet _ rfl, requestCancellation_eq]
    rfl

/-- **Whether an execution has thrown is whether one of its calls has.** -/
theorem threw_run (h : Service.Reaches max es w) (k : Nat) :
    (∀ x, w.executions[k]? = some x → x.threw = es.any (Event.throwsIn k))
      ∧ (w.executions.length ≤ k → es.any (Event.throwsIn k) = false) := by
  induction h with
  | nil => exact ⟨fun x hx => absurd hx (by simp), fun _ => rfl⟩
  | @snoc es e w w' hr hs ih =>
    obtain ⟨ihsome, ihnone⟩ := ih
    have hi : Inv w := Inv.run hr
    simp only [List.any_append, List.any_cons, List.any_nil, Bool.or_false]
    constructor
    · intro x' hx'
      rcases hi.changes hs hx' with ⟨x, hx, hch⟩ | ⟨hk, s, rfl, rfl⟩
      · rw [hch.threw (hi.sound k x hx), ihsome x hx]
      · rw [ihnone (by omega)]
        rfl
    · intro hk
      have hlen := Service.step_length hs
      rw [ihnone (by omega), Bool.false_or]
      obtain ⟨-, hstep⟩ := Service.steps hs
      cases hstep with
      | @thread j a x x' effect hx _ =>
        have hj := (List.getElem?_eq_some_iff.mp hx).1
        have hjk : j ≠ k := by omega
        simp [Event.throwsIn, hjk]
      | _ => rfl

/-! ## An abort is the end of the service -/

theorem Changes.aborted {x' : Execution} (hs : Sound k x.pc x) (h : Changes w k x e x')
    (hx : x.aborted = false) (hx' : x'.aborted = true) :
    ∃ a, e = .thread k a ∧ x.act k a = some (x', .abort) := by
  cases h with
  | @act a x' effect hact =>
    have habort := (Execution.acted hs hact).aborted
    rw [hx, hx', Bool.false_or] at habort
    obtain rfl : effect = .abort := by simpa using habort.symm
    exact ⟨a, rfl, hact⟩
  | cancel _ _ | call _ _ _ =>
    rw [requestCancellation_eq] at hx'
    exact nomatch hx.symm.trans hx'
  | _ => exact nomatch hx.symm.trans hx'

/-- The service died with an execution that aborted, which had answered nothing. -/
theorem aborted_run (h : Service.Reaches max es w) (hx : w.executions[k]? = some x)
    (ha : x.aborted = true) : w.crashed = true ∧ x.pc.answered = false := by
  induction h generalizing x with
  | nil => exact absurd hx (by simp)
  | @snoc es e w w' hr hs ih =>
    have hi : Inv w := Inv.run hr
    obtain ⟨halive, hstep⟩ := Service.steps hs
    rcases hi.changes hs hx with ⟨y, hy, hch⟩ | ⟨-, s, -, rfl⟩
    · have hya : y.aborted = false := by
        rw [← Bool.not_eq_true]
        intro h0
        exact nomatch (ih hy h0).1.symm.trans halive
      obtain ⟨a, rfl, hact⟩ := hch.aborted (hi.sound k y hy) hya ha
      refine ⟨?_, (Execution.acted (hi.sound k y hy) hact).abort rfl⟩
      cases hstep with
      | @thread j a z z' effect hz hact' =>
        obtain rfl := Option.some.inj (hy.symm.trans hz)
        obtain ⟨-, rfl⟩ := Prod.mk.inj (Option.some.inj (hact.symm.trans hact'))
        rfl
    · cases ha

/-! ## The final response -/

theorem Sound.countP_final {q : Pc} (hs : Sound k q x) :
    x.responses.countP Response.isFinal = if q.answered then 1 else 0 := by
  obtain ⟨ps, hps, hresp⟩ := hs.responses
  have hzero : ps.countP Response.isFinal = 0 := by
    rw [List.countP_eq_zero]
    intro r hr
    rw [hps r hr]
    exact Bool.false_ne_true
  rw [hresp]
  split
  · rw [List.countP_cons_of_pos rfl, hzero]
  · exact hzero

theorem Pc.not_answered_of_unwinding {q : Pc} (h : q.unwinding = true) : q.answered = false := by
  cases q with
  | destroy t | exit t | ended t =>
    cases t
    · exact absurd h (by decide)
    · rfl
  | _ => first | rfl | exact absurd h (by decide)

theorem Pc.eq_ended_answer {q : Pc} (hover : q.isOver = true) (ht : q.threaded = true)
    (hunw : q.unwinding = false) : q = .ended .answer := by
  cases q with
  | ended t =>
    cases t
    · rfl
    · exact absurd hunw (by decide)
  | gaveBack => exact absurd ht (by decide)
  | _ => exact absurd hover (by simp [Pc.isOver])

/-! ## The property -/

/-- **A thread that has left has answered exactly once, and shut its Process down before it was
destroyed, exactly when none of its calls threw.** And as long as none has, the thread can be
brought to such an end. -/
theorem answeredOnce_iff (h : Service.Reaches max es w) (hx : w.executions[k]? = some x)
    (ht : x.pc.threaded = true) :
    (x.HasLeft → (x.AnsweredOnce ↔ ∀ e ∈ es, e.throwsIn k = false))
      ∧ (w.crashed = false → (∀ e ∈ es, e.throwsIn k = false) →
          ∃ es' w' x', Service.Leads max w es' w' ∧ (∀ e ∈ es', e.throwsIn k = false)
            ∧ w'.executions[k]? = some x' ∧ x'.HasLeft ∧ x'.AnsweredOnce) := by
  have hany : ∀ l : List Event, (∀ e ∈ l, e.throwsIn k = false)
      ↔ l.any (Event.throwsIn k) = false := by
    intro l
    simp [List.any_eq_false]
  have hended : ∀ {es : List Event} {w : Service} {x : Execution}, Service.Reaches max es w →
      w.executions[k]? = some x → x.threw = false → x.pc = .ended .answer → x.AnsweredOnce := by
    intro es w x h hx hthrew hpc
    refine ⟨?_, ?_⟩
    · rw [((Inv.run h).sound k x hx).countP_final, hpc]
      rfl
    · unfold Execution.destroyedRunning
      rw [(Bool.or_eq_false_iff.mp hthrew).2, Bool.false_and]
  constructor
  · intro hleft
    rw [hany, ← (threw_run h k).1 x hx]
    constructor
    · intro hans
      -- an execution that threw has written no final response
      rw [← Bool.not_eq_true]
      intro hthrew
      have hnot : x.pc.answered = false := by
        rcases (Bool.or_eq_true _ _).mp hthrew with hunw | habort
        · exact Pc.not_answered_of_unwinding hunw
        · exact (aborted_run h hx habort).2
      have hcount := hans.1
      rw [((Inv.run h).sound k x hx).countP_final, hnot] at hcount
      exact absurd hcount (by decide)
    · intro hthrew
      refine hended h hx hthrew ?_
      obtain ⟨hunw, habort⟩ := Bool.or_eq_false_iff.mp hthrew
      rcases hleft with hpc | hpc | ha
      · exact hpc
      · rw [hpc] at hunw
        exact absurd hunw (by decide)
      · exact nomatch habort.symm.trans ha
  · intro halive hquiet
    have hthrew : x.threw = false := by
      rw [(threw_run h k).1 x hx]
      exact (hany es).mp hquiet
    have hunw : x.pc.unwinding = false := (Bool.or_eq_false_iff.mp hthrew).1
    obtain ⟨es', w', x', hrun, hes', hx', hover, ht', hthrew'⟩ :=
      (Inv.run h).completes hx ht halive (Execution.safe_of_not_unwinding hunw)
    have hend := Pc.eq_ended_answer hover ht'
      (Bool.or_eq_false_iff.mp (hthrew'.trans hthrew)).1
    refine ⟨es', w', x', hrun, ?_, hx', Or.inl hend,
      hended (h.append hrun) hx' (hthrew'.trans hthrew) hend⟩
    intro e he
    obtain ⟨a, rfl, ha⟩ := hes' e he
    simp [Event.throwsIn, ha]

/-- A start that is accepted and whose run gets as far as its workers. -/
def upToWorkers : List Event :=
  [.read 0 .start, .claimSlot 0, .create 0 none, .thread 0 (.setup {}), .thread 0 .publish,
    .thread 0 (.startProgress true)]

/-- A run that fails is answered, and its Process is shut down. -/
theorem answeredOnce_startFails :
    ∃ w x, Service.Reaches 1 (upToWorkers ++ [.thread 0 (.enterRun .startFails),
        .thread 0 .stopProgress, .thread 0 (.finish true), .thread 0 .unpublish, .thread 0 .release,
        .thread 0 .markDone, .thread 0 .beginWrite, .thread 0 .endWrite, .thread 0 .destroy,
        .thread 0 .exit]) w ∧ w.executions[0]? = some x ∧ x.AnsweredOnce := by
  refine ⟨_, _, Lts.Run.of_foldlM_and rfl fun hrun => ⟨rfl, ?_⟩⟩
  exact ((answeredOnce_iff (k := 0) hrun rfl rfl).1 (Or.inl rfl)).mpr (by decide)

/-- A ramp of 0.5 s in an execution of 0.9 s, which the engine takes for one of 0 s: the limiter's
factory throws out of the block that starts the workers, and the service dies unanswered. -/
theorem not_answeredOnce_startThrows :
    checkRampTime (Proto.ParsedDuration.ofMillis 500).toDuration
        (.ofProto
          { durationOptions := some (.duration (Proto.ParsedDuration.ofMillis 900).toDuration) })
      = .error "ramp_time must be less than or equal to time specified by --duration"
    ∧ ∃ w x, Service.Reaches 1 (upToWorkers ++ [.thread 0 (.enterRun .startThrows),
          .thread 0 .stopProgress, .thread 0 .unpublish, .thread 0 .destroy]) w
        ∧ w.executions[0]? = some x ∧ x.pc.threaded = true ∧ x.HasLeft ∧ ¬x.AnsweredOnce
        ∧ x.responses = [] ∧ x.destroyedRunning = true ∧ w.crashed = true := by
  refine ⟨by decide, _, _, Lts.Run.of_foldlM rfl, rfl, rfl, Or.inr (Or.inr rfl), ?_, rfl, rfl, rfl⟩
  rintro ⟨hcount, -⟩
  exact absurd hcount (by decide)

/-- **No thread reaches a destroyed Process**, neither a stream through what is published nor the
progress thread, whatever the interleaving. -/
theorem process_alive (h : Service.Reaches max es w) (hx : w.executions[k]? = some x)
    (hused : x.process ≠ none ∨ x.progress ≠ .absent ∧ x.progress ≠ .finished) :
    x.process = some k ∧ ∃ p, x.own = some p ∧ p.destroyed = false := by
  have hs := (Inv.run h).sound k x hx
  have hpublished : x.pc.published = true := by
    rcases hused with hprocess | ⟨habsent, hfinished⟩
    · rw [hs.process] at hprocess
      by_contra hnot
      exact hprocess (if_neg hnot)
    · -- the progress thread is joined before the Process is unpublished
      have hin := hs.inProgress habsent hfinished
      revert hin
      cases x.pc <;> simp [Pc.inProgress, Pc.published]
  refine ⟨by rw [hs.process, if_pos hpublished], hs.alive ?_⟩
  rw [Pc.hasProcess, hpublished, Bool.or_true]

theorem process_alive_upToWorkers : ∃ w x, Service.Reaches 1 upToWorkers w
    ∧ w.executions[0]? = some x ∧ ∃ p, x.own = some p ∧ p.destroyed = false := by
  obtain ⟨w, x, hrun, hx, hprocess⟩ : ∃ w x, Service.Reaches 1 upToWorkers w
      ∧ w.executions[0]? = some x ∧ x.process = some 0 := ⟨_, _, Lts.Run.of_foldlM rfl, rfl, rfl⟩
  exact ⟨w, x, hrun, hx, (process_alive hrun hx (Or.inl (by simp [hprocess]))).2⟩

end Sortie.Engine.ServiceImpl
