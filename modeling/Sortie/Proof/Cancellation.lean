import Sortie.Proof.Service

/-!
# Cancellations, and the writes on a stream

A cancellation is read by the stream's thread and acted on in a later step, so the
execution's thread may do anything in between. What becomes of it is decided under
the execution's lock: the published Process is called, or a note is left that the
publication carries out, or the Process is gone.

Three counts make sure that none is lost: the cancellations read, those acted on, and
the calls they led to.
-/

namespace Sortie.Engine.ServiceImpl

variable {w w' : Service} {s j k : Nat} {max : UInt32} {e : Event} {es : List Event}
  {x x' : Execution}

/-- A cancellation of execution `k` was read on stream `s` and has not been acted on. -/
def Service.Pending (w : Service) (s k : Nat) : Prop :=
  w.streams s = { pc := .cancelling, execution := some k }

instance : Decidable (w.Pending s k) := inferInstanceAs (Decidable (_ = _))

/-- The calls of `requestExecutionCancellation` that were made on the Process of `k`. -/
def Service.callsOn (w : Service) (k : Nat) : Nat := w.calls.countP (·.process == k)

/-- The calls that the cancellations of an execution account for. -/
def Execution.delivered (x : Execution) : Nat :=
  x.cancels.count .called + if x.honoured then 1 else 0

/-! ## Which cancellations are pending -/

theorem Service.pending_setStream {s₀ : Nat} {st : Stream} (hold : (w.streams s₀).pc ≠ .cancelling)
    (hnew : st.pc ≠ .cancelling) : (w.setStream s₀ st).Pending s k ↔ w.Pending s k := by
  unfold Service.Pending Service.setStream
  by_cases hs : s = s₀
  · subst hs
    simp only [Function.update_self]
    constructor
    · exact fun h => absurd (by rw [h]) hnew
    · exact fun h => absurd (by rw [h]) hold
  · simp only [Function.update_of_ne hs]

theorem Service.streams_cancelExecution (k : Nat) (x : Execution) :
    (w.cancelExecution s k x).streams = (w.goTo s .reading).streams := by
  unfold Service.cancelExecution
  split
  · rfl
  · split <;> rfl

/-- A cancellation becomes pending when it is read, and is so until it is acted on. -/
theorem Service.pending_step (h : Service.step max w e = some w') :
    w'.Pending s k ↔ (w.Pending s k ∧ e ≠ .cancel s)
      ∨ (e = .read s .cancellation ∧ (w.streams s).execution = some k) := by
  -- most steps have nothing to do with it
  have hother : ∀ {s₀ : Nat} {st : Stream}, (w.streams s₀).pc ≠ .cancelling →
      st.pc ≠ .cancelling → (∀ s, e ≠ .cancel s) → (∀ s, e ≠ .read s .cancellation) →
      ((w.setStream s₀ st).Pending s k ↔ (w.Pending s k ∧ e ≠ .cancel s)
        ∨ (e = .read s .cancellation ∧ (w.streams s).execution = some k)) := by
    intro s₀ st hold hnew hc hr
    rw [Service.pending_setStream hold hnew]
    simp [hc, hr]
  obtain ⟨-, hstep⟩ := Service.steps h
  cases hstep with
  | @read s₀ r hpc =>
    have hold : (w.streams s₀).pc ≠ .cancelling := by rw [hpc]; decide
    cases r with
    | cancellation =>
      simp only [Service.readRequest]
      split
      · rename_i hnone
        by_cases hs : s = s₀
        · subst hs
          simp [hnone]
        · simp [Ne.symm hs]
      · rename_i j hcur
        unfold Service.Pending Service.goTo Service.setStream Service.modify
        by_cases hs : s = s₀
        · subst hs
          have hno : w.streams s ≠ { pc := .cancelling, execution := some k } :=
            fun h0 => hold (by rw [h0])
          simp [hcur, hno]
        · simp [Function.update_of_ne hs, Ne.symm hs]
    | start => exact hother hold (by split <;> simp) (by simp) (by simp)
    | update | endOfStream => exact hother hold (by simp) (by simp) (by simp)
    | empty =>
      show w.Pending s k ↔ _
      simp
  | checkDone hpc _ _ =>
    exact hother (by rw [hpc]; decide) (by split <;> simp) (by simp) (by simp)
  | waitPrevious hpc _ _ | refuse hpc _ | accept hpc _ =>
    exact hother (by rw [hpc]; decide) (by simp) (by simp) (by simp)
  | create hpc | createFails hpc | giveBack hpc | finish hpc _ =>
    exact hother (by rw [hpc]; simp) (by simp) (by simp) (by simp)
  | @cancel s₀ k₀ x hpc _ _ =>
    unfold Service.Pending
    rw [Service.streams_cancelExecution]
    unfold Service.goTo Service.setStream
    by_cases hs : s = s₀
    · subst hs
      simp
    · simp [Function.update_of_ne hs, Ne.symm hs]
  | @thread k₀ a x x' effect _ _ =>
    have hstreams : (w.apply k₀ x' effect).streams = w.streams := by cases effect <;> rfl
    unfold Service.Pending
    rw [hstreams]
    simp

/-! ## Which calls are made -/

theorem Sound.process_eq {q : Pc} {p : Nat} (hs : Sound k q x) (hp : x.process = some p) :
    p = k ∧ q.published = true := by
  rw [hs.process] at hp
  split at hp
  · rename_i hq
    exact ⟨(Option.some.inj hp).symm, hq⟩
  · cases hp

theorem Service.calls_cancelExecution_none (h : x.done = true ∨ x.process = none) :
    (w.cancelExecution s k x).calls = w.calls := by
  unfold Service.cancelExecution
  rcases h with h | h
  · rw [if_pos h]
    rfl
  · rw [h]
    split <;> rfl

section

variable (hi : Inv w) (hx : w.executions[k]? = some x)
include hi hx

theorem Inv.calls_cancelExecution (hdone : x.done = false) (hp : x.process = some k) :
    (w.cancelExecution s k x).calls
      = { stream := s, execution := k, process := k, alive := true } :: w.calls := by
  have hs := hi.sound k x hx
  obtain ⟨p, hown, hlive⟩ := hs.alive (by unfold Pc.hasProcess; rw [(hs.process_eq hp).2]; simp)
  -- the note is taken first, and leaves the Process as it is
  have halive : ((w.modify k Execution.requestCancellation).goTo s .reading).alive k = true := by
    show (((w.modify k Execution.requestCancellation).executions[k]?).bind Execution.own).any _ = _
    rw [Service.getElem?_modify, hx]
    simp only [Option.map_some, Option.bind_some]
    rw [requestCancellation_eq]
    simp [hown, hlive]
  unfold Service.cancelExecution
  simp only [hdone, hp, Bool.false_eq_true, if_false, Service.callCancel, halive]
  rfl

theorem Inv.alive_publish {effect : Effect} (hact : x.act k .publish = some (x', effect)) :
    Service.alive { w with executions := w.executions.set k x' } k = true := by
  have hs' := (hi.sound k x hx).act hact
  have hpc : x'.pc = .startProgress := by
    cases Execution.acts hact <;> rfl
  rw [hpc] at hs'
  obtain ⟨p, hown, hlive⟩ := hs'.alive rfl
  have hk := (List.getElem?_eq_some_iff.mp hx).1
  simp [Service.alive, hk, hown, hlive]

/-- The stream that started an execution is at it as long as the execution runs. -/
theorem Inv.current_of_threaded (ht : x.pc.threaded = true) (hover : x.pc.isOver = false) :
    (w.streams x.stream).execution = some k := by
  have hold := (hi.owned k x hx).resolve_left (by rw [hover]; simp)
  have hcreated : (w.streams x.stream).pc.creates ≠ some k := by
    intro h
    obtain ⟨y, hy, -, hyc⟩ := hi.created _ k h
    obtain rfl := Option.some.inj (hx.symm.trans hy)
    rw [hyc] at ht
    exact absurd ht (by decide)
  unfold Stream.Holds at hold
  split at hold
  case h_1 hpc | h_2 hpc =>
    rw [hpc] at hcreated
    exact absurd (congrArg some hold) hcreated
  case h_5 => exact hold
  all_goals exact hold.elim

end

/-- A call reaches the Process of the execution that its stream is at, and it is alive. -/
structure CancelCall.Proper (c : CancelCall) (w : Service) : Prop where
  own : c.process = c.execution
  alive : c.alive = true
  current : (w.streams c.stream).execution = some c.execution

theorem Service.calls_readRequest (r : Request) : (w.readRequest s r).calls = w.calls := by
  cases r with
  | cancellation =>
    simp only [Service.readRequest]
    split <;> rfl
  | _ => rfl

/-- A step calls no Process, or that of the execution it acts on. -/
theorem Inv.newCall (hi : Inv w) (h : Service.step max w e = some w') :
    w'.calls = w.calls
      ∨ ∃ c, w'.calls = c :: w.calls ∧ c.Proper w ∧ w.subject e = some c.execution := by
  obtain ⟨-, hstep⟩ := Service.steps h
  cases hstep with
  | read _ => exact Or.inl (Service.calls_readRequest _)
  | @cancel s k x hpc hcur hx =>
    by_cases hcall : x.done = true ∨ x.process = none
    · exact Or.inl (Service.calls_cancelExecution_none hcall)
    · rw [not_or] at hcall
      obtain ⟨p, hp⟩ := Option.ne_none_iff_exists'.mp hcall.2
      obtain ⟨rfl, -⟩ := (hi.sound k x hx).process_eq hp
      right
      exact ⟨_, hi.calls_cancelExecution hx (by simpa using hcall.1) hp, ⟨rfl, rfl, hcur⟩, hcur⟩
  | @thread k a x x' effect hx hact =>
    cases effect with
    | cancelOwn =>
      right
      have hacted := Execution.acted (hi.sound k x hx) hact
      obtain rfl : a = .publish := by cases Execution.acts hact; rfl
      refine ⟨_, rfl, ⟨rfl, hi.alive_publish hx hact, ?_⟩, rfl⟩
      rw [hacted.stream]
      exact hi.current_of_threaded hx hacted.threaded.1 hacted.running
    | _ => exact Or.inl rfl
  | _ => exact Or.inl rfl

/-! ## The counts agree -/

theorem delivered_cancel (h : x.done = true ∨ x.process = none) :
    x.requestCancellation.delivered = x.delivered
      ∧ x.requestCancellation.cancels.length = x.cancels.length + 1
      ∧ x.requestCancellation.cancelsRead = x.cancelsRead := by
  unfold Execution.requestCancellation
  rcases h with h | h
  · rw [if_pos h]
    exact ⟨by simp [Execution.delivered], rfl, rfl⟩
  · rw [if_pos h]
    split <;> exact ⟨by simp [Execution.delivered], rfl, rfl⟩

theorem delivered_call (hdone : x.done = false) (hp : x.process = some k) :
    x.requestCancellation = { x with cancels := .called :: x.cancels } := by
  unfold Execution.requestCancellation
  rw [if_neg (by rw [hdone]; simp), if_neg (by rw [hp]; simp)]

theorem Service.callsOn_cons {c : CancelCall} (h : w'.calls = c :: w.calls) (k : Nat) :
    w'.callsOn k = w.callsOn k + if c.process = k then 1 else 0 := by
  unfold Service.callsOn
  rw [h, List.countP_cons]
  simp

section

variable (hi : Inv w) (h : Service.step max w e = some w')
include hi h

/-- A step that does not act on execution `k` does not call its Process. -/
theorem Inv.callsOn_same (hsubj : w.subject e ≠ some k) : w'.callsOn k = w.callsOn k := by
  rcases hi.newCall h with hsame | ⟨c, hc, hproper, hacts⟩
  · unfold Service.callsOn
    rw [hsame]
  · rw [Service.callsOn_cons hc, if_neg, Nat.add_zero]
    rintro rfl
    exact hsubj (hproper.own ▸ hacts)

theorem Inv.delivered_step (hx : w.executions[k]? = some x) (hch : Changes w k x e x') :
    w'.callsOn k + x.delivered = w.callsOn k + x'.delivered := by
  obtain ⟨-, hstep⟩ := Service.steps h
  cases hch with
  | same hsubj => rw [hi.callsOn_same h hsubj]
  | act hact =>
    have hacted := Execution.acted (hi.sound k x hx) hact
    have hhon := hacted.honoured
    cases hstep with
    | @thread _ a y y' effect hy hact' =>
      obtain rfl := Option.some.inj (hx.symm.trans hy)
      obtain ⟨rfl, rfl⟩ := Prod.mk.inj (Option.some.inj (hact'.symm.trans hact))
      unfold Execution.delivered
      rw [hacted.cancels]
      cases effect with
      | cancelOwn =>
        rw [if_pos rfl] at hhon
        rw [Service.callsOn_cons rfl, if_pos rfl, hhon.1, hhon.2]
        simp only [Bool.false_eq_true, if_false, if_true]
        omega
      | _ =>
        rw [if_neg (by decide)] at hhon
        rw [hhon]
        rfl
  | @read s hst =>
    cases hstep with
    | read _ =>
      simp only [Service.readRequest, hst]
      rfl
  | start _ | giveBack _ => cases hstep; rfl
  | @cancel s hst hno =>
    cases hstep with
    | cancel _ hcur hy =>
      obtain rfl : _ = k := Option.some.inj (hcur.symm.trans (by rw [hst]))
      obtain rfl := Option.some.inj (hx.symm.trans hy)
      unfold Service.callsOn
      rw [Service.calls_cancelExecution_none hno, (delivered_cancel hno).1]
  | @call s hst hdone hp =>
    cases hstep with
    | cancel _ hcur hy =>
      obtain rfl : _ = k := Option.some.inj (hcur.symm.trans (by rw [hst]))
      obtain rfl := Option.some.inj (hx.symm.trans hy)
      rw [Service.callsOn_cons (hi.calls_cancelExecution hx hdone hp), if_pos rfl,
        delivered_call hdone hp]
      show _ + x.delivered
        = _ + (List.count .called (.called :: x.cancels) + if x.honoured then 1 else 0)
      rw [List.count_cons_self]
      unfold Execution.delivered
      omega

theorem Inv.acted_step (hx : w.executions[k]? = some x) (hch : Changes w k x e x')
    (hc : x.cancelsRead = x.cancels.length + if w.Pending x.stream k then 1 else 0) :
    x'.cancelsRead = x'.cancels.length + if w'.Pending x'.stream k then 1 else 0 := by
  have hs := hi.sound k x hx
  have hpend := Service.pending_step (s := x.stream) (k := k) h
  rw [hch.stream hs]
  -- the stream that acts on a cancellation of `k` is the one that started it
  have hstream : ∀ s, (w.streams s).execution = some k → s = x.stream := by
    intro s hcur
    obtain ⟨y, hy, hys, -⟩ := hi.current s k hcur
    obtain rfl := Option.some.inj (hx.symm.trans hy)
    exact hys.symm
  cases hch with
  | same hsubj =>
    have hsame : w'.Pending x.stream k ↔ w.Pending x.stream k := by
      rw [hpend]
      constructor
      · rintro (h0 | ⟨rfl, hcur⟩)
        · exact h0.1
        · exact absurd hcur hsubj
      · intro h0
        refine Or.inl ⟨h0, ?_⟩
        rintro rfl
        exact hsubj (by simp only [Service.subject]; rw [h0])
    simp only [hsame]
    exact hc
  | act hact =>
    have hacted := Execution.acted hs hact
    have hsame : w'.Pending x.stream k ↔ w.Pending x.stream k := by simp [hpend]
    simp only [hacted.cancels, hacted.cancelsRead, hsame]
    exact hc
  | start _ | giveBack _ =>
    have hsame : w'.Pending x.stream k ↔ w.Pending x.stream k := by simp [hpend]
    simp only [hsame]
    exact hc
  | @read s hst =>
    obtain rfl := hstream s (by rw [hst])
    have hno : ¬w.Pending x.stream k := by
      unfold Service.Pending
      rw [hst]
      simp
    rw [if_neg hno] at hc
    rw [if_pos (hpend.mpr (Or.inr ⟨rfl, by rw [hst]⟩))]
    exact congrArg Nat.succ hc
  | @cancel s hst hcall =>
    obtain rfl := hstream s (by rw [hst])
    obtain ⟨-, hlen, hread⟩ := delivered_cancel hcall
    rw [if_pos (show w.Pending x.stream k from hst)] at hc
    rw [if_neg (by rw [hpend]; simp), hlen, hread]
    exact hc
  | @call s hst hdone hp =>
    obtain rfl := hstream s (by rw [hst])
    rw [if_pos (show w.Pending x.stream k from hst)] at hc
    rw [if_neg (by rw [hpend]; simp), delivered_call hdone hp]
    exact hc

/-- What the counts say, and where the calls went. -/
structure Accounted (w : Service) : Prop where
  acted : ∀ (k : Nat) (x : Execution), w.executions[k]? = some x →
    x.cancelsRead = x.cancels.length + if w.Pending x.stream k then 1 else 0
  delivered : ∀ (k : Nat) (x : Execution), w.executions[k]? = some x → w.callsOn k = x.delivered
  calls : ∀ c ∈ w.calls, c.process = c.execution ∧ c.alive = true
    ∧ ∃ x, w.executions[c.execution]? = some x ∧ x.stream = c.stream

theorem Accounted.calls_step (ha : Accounted w) :
    ∀ c ∈ w'.calls, c.process = c.execution ∧ c.alive = true
      ∧ ∃ x, w'.executions[c.execution]? = some x ∧ x.stream = c.stream := by
  have hkeep : ∀ {k s : Nat}, (∃ x, w.executions[k]? = some x ∧ x.stream = s) →
      ∃ x, w'.executions[k]? = some x ∧ x.stream = s := by
    rintro k s ⟨x, hx, hstream⟩
    obtain ⟨x', hx', hch⟩ := hi.persists h hx
    exact ⟨x', hx', (hch.stream (hi.sound k x hx)).trans hstream⟩
  have hold : ∀ c ∈ w.calls, c.process = c.execution ∧ c.alive = true
      ∧ ∃ x, w'.executions[c.execution]? = some x ∧ x.stream = c.stream :=
    fun c hc => ⟨(ha.calls c hc).1, (ha.calls c hc).2.1, hkeep (ha.calls c hc).2.2⟩
  rcases hi.newCall h with hsame | ⟨c, hcons, hproper, -⟩
  · rw [hsame]
    exact hold
  · rw [hcons]
    refine List.forall_mem_cons.mpr ⟨⟨hproper.own, hproper.alive, hkeep ?_⟩, hold⟩
    obtain ⟨x, hx, hstream, -⟩ := hi.current _ _ hproper.current
    exact ⟨x, hx, hstream⟩

theorem Accounted.step (ha : Accounted w) :
    Accounted w' := by
  refine ⟨?_, ?_, ha.calls_step hi h⟩
  · intro k x' hx'
    rcases hi.changes h hx' with ⟨x, hx, hch⟩ | ⟨hk, s, rfl, rfl⟩
    · exact hi.acted_step h hx hch (ha.acted k x hx)
    · -- nothing has been read about an execution that is new
      rw [if_neg]
      · rfl
      · rw [Service.pending_step h]
        rintro (⟨hpend, -⟩ | ⟨h0, -⟩)
        · obtain ⟨y, hy, -⟩ := hi.current s k (by rw [hpend])
          have := (List.getElem?_eq_some_iff.mp hy).1
          omega
        · cases h0
  · intro k x' hx'
    rcases hi.changes h hx' with ⟨x, hx, hch⟩ | ⟨hk, s, rfl, rfl⟩
    · have hstep := hi.delivered_step h hx hch
      have hbefore := ha.delivered k x hx
      omega
    · rw [hi.callsOn_same h (by simp [Service.subject])]
      show w.callsOn k = 0
      unfold Service.callsOn
      rw [List.countP_eq_zero]
      intro c hc
      obtain ⟨hown, -, y, hy, -⟩ := ha.calls c hc
      have := (List.getElem?_eq_some_iff.mp hy).1
      simp only [beq_iff_eq]
      omega

end

theorem accounted_run (h : Service.Reaches max es w) : Accounted w := by
  refine h.invariant_under Inv.run ?_ fun _ _ _ hi ha hs => ha.step hi hs
  exact ⟨fun _ _ h0 => absurd h0 (by simp), fun _ _ h0 => absurd h0 (by simp),
    fun _ h0 => absurd h0 (by simp)⟩

/-! ## Writes -/

theorem Stream.Holds.eq {st : Stream} (hj : st.Holds j) (hk : st.Holds k) : j = k := by
  unfold Stream.Holds at hj hk
  split at hj <;> simp_all

end Sortie.Engine.ServiceImpl
