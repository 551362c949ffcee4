import Sortie.Engine.Service
import Sortie.Proof.Thread

/-!
# The streams of a service and their executions

`Sound` is about one execution. What ties the executions to the streams is that an
execution which is not over is held by the stream that started it: the stream's
thread cannot return, or start another execution, before it is. `Inv` puts the two
together, and every step of the service keeps it.
-/

namespace Sortie.Engine.ServiceImpl

variable {x x' : Execution}

@[simp]
theorem Service.streams_setStream (w : Service) (s : Nat) (st : Stream) :
    (w.setStream s st).streams s = st := Function.update_self ..

@[simp]
theorem Service.streams_goTo (w : Service) (s : Nat) (pc : StreamPc) :
    (w.goTo s pc).streams s = { w.streams s with pc } := Function.update_self ..

/-- The execution whose thread the stream's thread is about to create. -/
def StreamPc.creates : StreamPc → Option Nat
  | .creating k | .givingBack k _ => some k
  | _ => none

/-- The stream's thread has not let go of execution `k`. -/
def Stream.Holds (st : Stream) (k : Nat) : Prop :=
  match st.pc with
  | .creating j | .givingBack j _ => j = k
  | .claimSlot | .returned _ => False
  | _ => st.execution = some k

/-- Execution `k` is one of stream `s`. -/
def Service.Owns (w : Service) (s k : Nat) (P : Pc → Prop) : Prop :=
  ∃ x, w.executions[k]? = some x ∧ x.stream = s ∧ P x.pc

structure Inv (w : Service) : Prop where
  sound : ∀ k x, w.executions[k]? = some x → Sound k x.pc x
  owned : ∀ k x, w.executions[k]? = some x → x.pc.isOver = true ∨ (w.streams x.stream).Holds k
  current : ∀ s k, (w.streams s).execution = some k → w.Owns s k (·.threaded = true)
  created : ∀ s k, (w.streams s).pc.creates = some k → w.Owns s k (· = .created)

variable {w w' : Service} {s j k : Nat} {max : UInt32} {e : Event}

/-- What a step of the service can be, and when. -/
inductive Service.Steps (max : UInt32) (w : Service) : Event → Service → Prop where
  | read {s : Nat} {r : Request} : (w.streams s).pc = .reading →
      Steps max w (.read s r) (w.readRequest s r)
  | checkDone {s k : Nat} {x : Execution} : (w.streams s).pc = .checkDone →
      (w.streams s).execution = some k → w.executions[k]? = some x →
      Steps max w (.checkDone s) (w.goTo s (if x.done then .waitPrevious
        else .finishing
          { code := .internal, message := "This stream already has an execution running." }))
  | waitPrevious {s k : Nat} : (w.streams s).pc = .waitPrevious →
      (w.streams s).execution = some k → w.threadOver k = true →
      Steps max w (.waitPrevious s) (w.goTo s .claimSlot)
  | refuse {s : Nat} : (w.streams s).pc = .claimSlot → max ≤ w.active →
      Steps max w (.claimSlot s) (w.goTo s (.returned (w.refusal max)))
  | accept {s : Nat} : (w.streams s).pc = .claimSlot → w.active < max →
      Steps max w (.claimSlot s) ((w.accept s).goTo s (.creating w.executions.length))
  | create {s k : Nat} : (w.streams s).pc = .creating k →
      Steps max w (.create s none)
        ((w.modify k fun x => { x with pc := .setup }).setStream s { execution := some k })
  | createFails {s k : Nat} {text : String} : (w.streams s).pc = .creating k →
      Steps max w (.create s (some text)) (w.goTo s (.givingBack k text))
  | giveBack {s k : Nat} {text : String} : (w.streams s).pc = .givingBack k text →
      Steps max w (.giveBack s)
        ({ w.modify k (·.giveSlotBack .gaveBack) with active := w.active - 1 }.setStream s
          { pc := .returned
              { code := .internal, message := "Unable to start the execution: " ++ text } })
  | cancel {s k : Nat} {x : Execution} : (w.streams s).pc = .cancelling →
      (w.streams s).execution = some k → w.executions[k]? = some x →
      Steps max w (.cancel s) (w.cancelExecution s k x)
  | finish {s : Nat} {status : Status} : (w.streams s).pc = .finishing status →
      (w.streams s).execution.all w.threadOver = true →
      Steps max w (.finish s) (w.goTo s (.returned status))
  | thread {k : Nat} {a : Action} {x x' : Execution} {effect : Effect} :
      w.executions[k]? = some x → x.act k a = some (x', effect) →
      Steps max w (.thread k a) (w.apply k x' effect)

/-- **A service that has not aborted does one of these.** -/
theorem Service.steps (h : Service.step max w e = some w') :
    w.crashed = false ∧ Service.Steps max w e w' := by
  have hup : w.crashed = false := by
    refine eq_false_of_ne_true fun hcrashed => ?_
    rw [Service.step.eq_def, if_pos hcrashed] at h
    cases h
  refine ⟨hup, ?_⟩
  revert h
  fun_cases Service.step max w e <;> intro h
  case case16 hk hpc =>
    obtain ⟨x, hx, rfl⟩ := Option.map_eq_some_iff.mp h
    exact .cancel hpc hk hx
  case case21 =>
    obtain ⟨x, hx, h⟩ := Option.bind_eq_some_iff.mp h
    obtain ⟨⟨x', effect⟩, hact, h⟩ := Option.bind_eq_some_iff.mp h
    cases h
    exact .thread hx hact
  all_goals cases h
  case case4 x hx hpc =>
    obtain ⟨k, hk, hx⟩ := Option.bind_eq_some_iff.mp hx
    exact .checkDone hpc hk hx
  case case6 h =>
    obtain ⟨k, hk, hover⟩ := (Option.any_eq_true _ _).mp h.2
    exact .waitPrevious h.1 hk hover
  case case9 hpc hcap => exact .accept hpc (UInt32.not_le.mp hcap)
  all_goals constructor <;> assumption

theorem Service.getElem?_modify (f : Execution → Execution) (j : Nat) :
    (w.modify k f).executions[j]? = w.executions[j]?.map fun x => if k = j then f x else x :=
  List.getElem?_modify f k w.executions j

/-- The rest of the service does not matter. -/
theorem Inv.congr (hi : Inv w) (hx : w'.executions = w.executions) (hs : w'.streams = w.streams) :
    Inv w' := by
  obtain ⟨h1, h2, h3, h4⟩ := hi
  unfold Service.Owns at h3 h4
  rw [← hx] at h1 h2 h3 h4
  rw [← hs] at h2 h3 h4
  exact ⟨h1, h2, h3, h4⟩

/-- A stream's thread moves on, and keeps the execution it has. -/
theorem Inv.goTo (hi : Inv w) (pc : StreamPc)
    (hheld : ∀ k x, w.executions[k]? = some x → (w.streams s).Holds k →
      x.pc.isOver = true ∨ Stream.Holds { w.streams s with pc := pc } k)
    (hcreates : ∀ k, pc.creates = some k → (w.streams s).pc.creates = some k) :
    Inv (w.goTo s pc) := by
  have hother : ∀ s' ≠ s, (w.goTo s pc).streams s' = w.streams s' :=
    fun _ hs => Function.update_of_ne hs ..
  refine ⟨hi.sound, fun k x hx => ?_, fun s' k h => hi.current s' k ?_,
    fun s' k h => hi.created s' k ?_⟩
  · rcases hi.owned k x hx with hover | hold
    · exact Or.inl hover
    · by_cases hs : x.stream = s
      · rw [hs] at hold ⊢
        rw [Service.streams_goTo]
        exact hheld k x hx hold
      · rw [hother _ hs]
        exact Or.inr hold
  · by_cases hs : s' = s
    · rwa [hs, Service.streams_goTo, ← hs] at h
    · rwa [hother _ hs] at h
  · by_cases hs : s' = s
    · rw [hs, Service.streams_goTo] at h
      exact hs ▸ hcreates k h
    · rwa [hother _ hs] at h

/-- One execution changes, or is new, and the thread of its stream moves on. -/
theorem Inv.update (hi : Inv w) (x' : Execution) (st : Stream)
    (hget : ∀ j, w'.executions[j]? = if j = k then some x' else w.executions[j]?)
    (hstreams : w'.streams = Function.update w.streams x'.stream st)
    (hsame : ∀ x, w.executions[k]? = some x → x.stream = x'.stream)
    (hsound : Sound k x'.pc x') (howned : x'.pc.isOver = true ∨ st.Holds k)
    (hholds : ∀ j ≠ k, (w.streams x'.stream).Holds j → st.Holds j)
    (hcurrent : ∀ j, st.execution = some j →
      if j = k then x'.pc.threaded = true else (w.streams x'.stream).execution = some j)
    (hcreates : ∀ j, st.pc.creates = some j →
      if j = k then x'.pc = .created else (w.streams x'.stream).pc.creates = some j) :
    Inv w' := by
  have hself : w'.streams x'.stream = st := by rw [hstreams, Function.update_self]
  have hother : ∀ s ≠ x'.stream, w'.streams s = w.streams s := by
    intro s hs
    rw [hstreams, Function.update_of_ne hs]
  -- an execution that is not the `k`th is still one of its stream
  have howns : ∀ {s j P}, j ≠ k → w.Owns s j P → w'.Owns s j P := by
    rintro s j P hj ⟨y, hy, hP⟩
    exact ⟨y, by rw [hget, if_neg hj, hy], hP⟩
  have hmoves : ∀ (field : Stream → Option Nat) (P : Pc → Prop),
      (∀ s j, field (w.streams s) = some j → w.Owns s j P) →
      (∀ j, field st = some j →
        if j = k then P x'.pc else field (w.streams x'.stream) = some j) →
      ∀ s j, field (w'.streams s) = some j → w'.Owns s j P := by
    intro field P hbefore hst s j h
    by_cases hs : s = x'.stream
    · rw [hs, hself] at h
      rw [hs]
      by_cases hj : j = k
      · rw [hj]
        exact ⟨x', by rw [hget, if_pos rfl], rfl, by simpa only [if_pos hj] using hst j h⟩
      · exact howns hj (hbefore _ j (by simpa only [if_neg hj] using hst j h))
    · rw [hother s hs] at h
      obtain ⟨y, hy, hys, hP⟩ := hbefore s j h
      refine howns ?_ ⟨y, hy, hys, hP⟩
      rintro rfl
      exact hs (hys.symm.trans (hsame y hy))
  refine ⟨fun j y hy => ?_, fun j y hy => ?_, hmoves (·.execution) _ hi.current hcurrent,
    hmoves (·.pc.creates) _ hi.created hcreates⟩
  all_goals
    rw [hget] at hy
    split at hy
  · rename_i hj
    cases hy
    exact hj ▸ hsound
  · exact hi.sound j y hy
  · rename_i hj
    cases hy
    rw [hself, hj]
    exact howned
  · rename_i hj
    refine (hi.owned j y hy).imp_right fun hold => ?_
    by_cases hs : y.stream = x'.stream
    · rw [hs] at hold ⊢
      exact hself ▸ hholds j hj hold
    · rwa [hother _ hs]

theorem Service.getElem?_modify_of_some {f : Execution → Execution} (hx : w.executions[k]? = some x)
    (j : Nat) :
    (w.modify k f).executions[j]? = if j = k then some (f x) else w.executions[j]? := by
  rw [Service.getElem?_modify]
  by_cases hj : j = k
  · rw [hj, hx, if_pos rfl, Option.map_some, if_pos rfl]
  · simp only [if_neg hj, if_neg (Ne.symm hj), Option.map_id']

theorem Service.getElem?_apply {effect : Effect} (hx : w.executions[k]? = some x) (j : Nat) :
    (w.apply k x' effect).executions[j]? = if j = k then some x' else w.executions[j]? := by
  have hk : k < w.executions.length := (List.getElem?_eq_some_iff.mp hx).1
  have hset : (w.apply k x' effect).executions = w.executions.set k x' := by cases effect <;> rfl
  rw [hset, List.getElem?_set]
  by_cases hj : j = k
  · rw [hj, if_pos rfl, if_pos hk, if_pos rfl]
  · rw [if_neg hj, if_neg (Ne.symm hj)]

theorem Service.getElem?_accept (s j : Nat) :
    (w.accept s).executions[j]?
      = if j = w.executions.length then some { stream := s } else w.executions[j]? := by
  show (w.executions ++ [_])[j]? = _
  rcases Nat.lt_trichotomy j w.executions.length with hj | hj | hj
  · rw [List.getElem?_append_left hj, if_neg hj.ne]
  · rw [hj, List.getElem?_concat_length, if_pos rfl]
  · rw [List.getElem?_eq_none (by simp; omega), if_neg hj.ne', List.getElem?_eq_none hj.le]

/-- An execution changes without its thread moving. -/
theorem Inv.modify (hi : Inv w) (f : Execution → Execution)
    (hsound : ∀ x, w.executions[k]? = some x → Sound k x.pc (f x))
    (hkeep : ∀ x, (f x).stream = x.stream ∧ (f x).pc = x.pc) : Inv (w.modify k f) := by
  cases hx : w.executions[k]? with
  | none =>
    refine hi.congr (List.ext_getElem? fun j => ?_) rfl
    rw [Service.getElem?_modify]
    by_cases hj : k = j
    · rw [← hj, hx, Option.map_none]
    · simp only [if_neg hj, Option.map_id']
  | some x =>
    obtain ⟨hstream, hpc⟩ := hkeep x
    refine hi.update (f x) _ (Service.getElem?_modify_of_some hx) (Function.update_eq_self _ _).symm
      ?_ (hpc ▸ hsound x hx) (hpc ▸ hstream ▸ hi.owned k x hx) (fun _ _ h => h) ?_ ?_
    · intro y hy
      rw [hstream, Option.some.inj (hy.symm.trans hx)]
    · intro j h
      split
      · rename_i hj
        obtain ⟨y, hy, -, ht⟩ := hi.current _ _ (hj ▸ h)
        rwa [hpc, Option.some.inj (hx.symm.trans hy)]
      · exact h
    · intro j h
      split
      · rename_i hj
        obtain ⟨y, hy, -, hc⟩ := hi.created _ _ (hj ▸ h)
        rwa [hpc, Option.some.inj (hx.symm.trans hy)]
      · exact h

/-! ## One step -/

/-- While a thread of execution `k` acts, it is not over. -/
theorem Inv.thread (hi : Inv w) {a : Action} {effect : Effect} (hx : w.executions[k]? = some x)
    (h : x.act k a = some (x', effect)) : Inv (w.apply k x' effect) := by
  have hs := hi.sound k x hx
  have hacted := Execution.acted hs h
  have hstreams : (w.apply k x' effect).streams = w.streams := by cases effect <;> rfl
  refine hi.update x' _ (Service.getElem?_apply hx)
    (hstreams.trans (Function.update_eq_self _ _).symm) ?_ (hs.act h) (Or.inr ?_)
    (fun _ _ h0 => h0) ?_ ?_
  · intro y hy
    rw [hacted.stream, Option.some.inj (hy.symm.trans hx)]
  · rw [hacted.stream]
    exact (hi.owned k x hx).resolve_left (by rw [hacted.running]; simp)
  · intro j h0
    split
    · exact hacted.threaded.2
    · exact h0
  · intro j h0
    split
    · -- it is not the stream's thread that acts
      rename_i hj
      obtain ⟨y, hy, -, hc⟩ := hi.created _ _ (hj ▸ h0)
      have ht := hacted.threaded.1
      rw [Option.some.inj (hx.symm.trans hy), hc] at ht
      cases ht
    · exact h0

theorem Inv.accept (hi : Inv w) (hpc : (w.streams s).pc = .claimSlot) :
    Inv ((w.accept s).goTo s (.creating w.executions.length)) := by
  have hnone : w.executions[w.executions.length]? = none := List.getElem?_eq_none (Nat.le_refl _)
  refine hi.update { stream := s } { w.streams s with pc := .creating w.executions.length }
    (Service.getElem?_accept s) rfl ?_ (Sound.init s) (Or.inr rfl) ?_ ?_ ?_
  · intro x hx
    cases hnone.symm.trans hx
  · -- a stream at the cap's block holds nothing
    intro j _ hold
    simp only [Stream.Holds, hpc] at hold
  · intro j h
    split
    · rename_i hj
      obtain ⟨y, hy, -⟩ := hi.current s j h
      cases hnone.symm.trans (hj ▸ hy)
    · exact h
  · intro j h
    rw [if_pos (Option.some.inj h).symm]

/-- A stream busy with an execution holds no other. -/
theorem Stream.eq_of_creates {st : Stream} (hc : st.pc.creates = some k) (hj : st.Holds j) :
    j = k := by
  unfold Stream.Holds at hj
  unfold StreamPc.creates at hc
  split at hc
  all_goals cases hc
  all_goals
    rename_i hp
    rw [hp] at hj
    exact hj.symm

/-- The thread of an execution is created, or given up: its execution moves with the stream. -/
theorem Inv.fromCreated (hi : Inv w) (hc : (w.streams s).pc.creates = some k)
    (f : Execution → Execution) (st : Stream) (hstream : ∀ x, (f x).stream = x.stream)
    (hsound : ∀ x, Sound k .created x → Sound k (f x).pc (f x))
    (hpc : ∀ x, (f x).pc.isOver = true ∨ st.Holds k)
    (hcurrent : ∀ j, st.execution = some j → j = k ∧ ∀ x, (f x).pc.threaded = true)
    (hcreates : st.pc.creates = none) : Inv ((w.modify k f).setStream s st) := by
  obtain ⟨x, hx, rfl, hxc⟩ := hi.created s k hc
  refine hi.update (f x) st (Service.getElem?_modify_of_some hx) (by rw [hstream]; rfl) ?_
    (hsound x (hxc ▸ hi.sound k x hx)) (hpc x) ?_ ?_ ?_
  · intro y hy
    rw [hstream, Option.some.inj (hy.symm.trans hx)]
  · intro j hj hold
    exact absurd (Stream.eq_of_creates hc (hstream x ▸ hold)) hj
  · intro j h
    obtain ⟨hj, ht⟩ := hcurrent j h
    rw [if_pos hj]
    exact ht x
  · intro j h
    cases hcreates.symm.trans h

theorem Inv.callCancel (hi : Inv w) (p : Nat) : Inv (w.callCancel s k p) := by
  have hmod : Inv (w.modify p (·.withProcess fun q => { q with cancelled := true })) :=
    hi.modify _ (fun x hx => (hi.sound p x hx).cancelled) (fun _ => ⟨rfl, rfl⟩)
  exact hmod.congr rfl rfl

theorem Inv.cancelExecution (hi : Inv w) (hpc : (w.streams s).pc = .cancelling) (x : Execution) :
    Inv (w.cancelExecution s k x) := by
  have hmod : Inv (w.modify k Execution.requestCancellation) := by
    refine hi.modify _ (fun y hy => (hi.sound k y hy).requestCancellation) (fun y => ?_)
    rw [requestCancellation_eq]
    exact ⟨rfl, rfl⟩
  have hread : Inv ((w.modify k Execution.requestCancellation).goTo s .reading) := by
    refine hmod.goTo .reading ?_ nofun
    intro j y _ hold
    right
    have hold' : (w.streams s).Holds j := hold
    simp only [Stream.Holds, hpc] at hold'
    exact hold'
  unfold Service.cancelExecution
  split
  · exact hread
  · split
    · exact hread
    · exact hread.callCancel _

theorem Inv.readRequest (hi : Inv w) (hpc : (w.streams s).pc = .reading) (r : Request) :
    Inv (w.readRequest s r) := by
  -- a stream that reads holds the execution it started last
  have hholds : ∀ j, (w.streams s).Holds j → (w.streams s).execution = some j := by
    intro j hj
    simp only [Stream.Holds, hpc] at hj
    exact hj
  cases r with
  | start =>
    refine hi.goTo _ ?_ ?_
    · intro j y _ hold
      right
      rw [if_neg (by rw [hholds j hold]; simp)]
      exact hholds j hold
    · intro j h
      split at h <;> exact absurd h (by simp [StreamPc.creates])
  | cancellation =>
    simp only [Service.readRequest]
    split
    · exact hi
    · rename_i k _
      have hmod : Inv (w.modify k fun x => { x with cancelsRead := x.cancelsRead + 1 }) :=
        hi.modify _ (fun x hx => { hi.sound k x hx with }) (fun _ => ⟨rfl, rfl⟩)
      refine hmod.goTo .cancelling ?_ nofun
      exact fun j y _ hold => Or.inr (hholds j hold)
  | update | endOfStream =>
    exact hi.goTo _ (fun j y _ hold => Or.inr (hholds j hold))
      nofun
  | empty => exact hi.congr rfl rfl

theorem Service.over_of_threadOver (h : w.threadOver k = true) (hx : w.executions[k]? = some x) :
    x.pc.isOver = true := by
  unfold Service.threadOver at h
  rw [hx] at h
  simp only [Option.any_some, Bool.or_eq_true, beq_iff_eq] at h
  rcases h with h | h <;> rw [h] <;> rfl

/-- **Every step keeps the invariant.** -/
theorem Inv.step (hi : Inv w) (h : Service.step max w e = some w') : Inv w' := by
  obtain ⟨-, hstep⟩ := Service.steps h
  cases hstep with
  | read hpc => exact hi.readRequest hpc _
  | checkDone hpc _ _ =>
    refine hi.goTo _ ?_ ?_
    · intro j y _ hold
      right
      simp only [Stream.Holds, hpc] at hold
      split <;> exact hold
    · intro j h0
      split at h0 <;> exact absurd h0 (by simp [StreamPc.creates])
  | waitPrevious hpc hcur hover =>
    refine hi.goTo _ ?_ nofun
    intro j y hy hold
    left
    simp only [Stream.Holds, hpc] at hold
    obtain rfl := Option.some.inj (hcur.symm.trans hold)
    exact Service.over_of_threadOver hover hy
  | refuse hpc _ =>
    refine hi.goTo _ ?_ nofun
    intro j y _ hold
    simp only [Stream.Holds, hpc] at hold
  | accept hpc _ => exact hi.accept hpc
  | create hpc =>
    refine hi.fromCreated (by rw [hpc]; rfl) _ _ (fun _ => rfl) ?_ (fun _ => Or.inr rfl) ?_ rfl
    · exact fun x hs => { hs.move .setup rfl with }
    · exact fun j h0 => ⟨(Option.some.inj h0).symm, fun _ => rfl⟩
  | createFails hpc =>
    refine hi.goTo _ ?_ ?_
    · intro j y _ hold
      right
      simp only [Stream.Holds, hpc] at hold
      exact hold
    · intro j h0
      rw [hpc]
      exact h0
  | @giveBack s k text hpc =>
    have hback : Inv ((w.modify k (·.giveSlotBack .gaveBack)).setStream s
        { pc := .returned
            { code := .internal, message := "Unable to start the execution: " ++ text } }) :=
      hi.fromCreated (by rw [hpc]; rfl) _ _ (fun _ => rfl) (fun x hs => hs.gaveBack)
        (fun _ => Or.inl rfl) (fun _ h0 => absurd h0 (by simp)) rfl
    exact hback.congr rfl rfl
  | cancel hpc _ _ => exact hi.cancelExecution hpc _
  | finish hpc hover =>
    refine hi.goTo _ ?_ nofun
    intro j y hy hold
    left
    simp only [Stream.Holds, hpc] at hold
    rw [hold] at hover
    exact Service.over_of_threadOver hover hy
  | thread hx hact => exact hi.thread hx hact

theorem Inv.init : Inv {} where
  sound := fun _ _ h => absurd h (by simp)
  owned := fun _ _ h => absurd h (by simp)
  current := nofun
  created := nofun

/-- **The invariant holds whatever the threads do.** -/
theorem Inv.run {es : List Event} (h : Service.Reaches max es w) : Inv w :=
  h.invariant Inv.init (fun _ _ _ hi hs => hi.step hs)

/-- A thread that is not on its way to an abort can be brought to its end. -/
theorem Inv.completes (hi : Inv w) (hx : w.executions[k]? = some x) (ht : x.pc.threaded = true)
    (halive : w.crashed = false) (hsafe : x.Safe) :
    ∃ es w' x', Service.Leads max w es w' ∧ (∀ e ∈ es, ∃ a, e = .thread k a ∧ a.throws = false)
      ∧ w'.executions[k]? = some x' ∧ x'.pc.isOver = true ∧ x'.pc.threaded = true
      ∧ x'.threw = x.threw := by
  -- on how far the thread is from its end
  induction hn : x.rank using Nat.strong_induction_on generalizing w x with
  | _ n ih =>
    have hs := hi.sound k x hx
    cases hover : x.pc.isOver with
    | true => exact ⟨[], w, x, .nil, by simp, hx, hover, ht, rfl⟩
    | false =>
      obtain ⟨a, y, effect, hact, hquiet, hlive, hrank⟩ := hs.canGoOn ht hover hsafe
      have hacted := Execution.acted hs hact
      have hstep : Service.step max w (.thread k a) = some (w.apply k y effect) := by
        simp [Service.step, halive, hx, hact]
      have hy : (w.apply k y effect).executions[k]? = some y := by
        rw [Service.getElem?_apply hx, if_pos rfl]
      have halive' : (w.apply k y effect).crashed = false := by
        cases effect with
        | abort => exact absurd rfl hlive
        | _ => exact halive
      obtain ⟨es, w', x', hrun, hes, hx', hover', ht', hthrew⟩ :=
        ih y.rank (hn ▸ hrank) (hi.step hstep) hy hacted.threaded.2 halive'
          (hsafe.act hs (Execution.not_throwsRunning hquiet) hact).1 rfl
      refine ⟨.thread k a :: es, w', x', .cons hstep hrun, ?_, hx', hover', ht', ?_⟩
      · exact List.forall_mem_cons.mpr ⟨⟨a, rfl, hquiet⟩, hes⟩
      · rw [hthrew, hacted.threw, hquiet, Bool.or_false]

/-! ## What a step does to one execution -/

/-- The execution an event acts on. -/
def Service.subject (w : Service) : Event → Option Nat
  | .thread k _ => some k
  | .read s .cancellation => (w.streams s).execution
  | .cancel s => (w.streams s).execution
  | .create s none => (w.streams s).pc.creates
  | .giveBack s => (w.streams s).pc.creates
  | _ => none

/-- The ways an execution changes. -/
inductive Changes (w : Service) (k : Nat) (x : Execution) : Event → Execution → Prop where
  | same {e : Event} : w.subject e ≠ some k → Changes w k x e x
  | act {a : Action} {x' : Execution} {effect : Effect} :
      x.act k a = some (x', effect) → Changes w k x (.thread k a) x'
  | read {s : Nat} : w.streams s = { pc := .reading, execution := some k } →
      Changes w k x (.read s .cancellation) { x with cancelsRead := x.cancelsRead + 1 }
  | start {s : Nat} : x.pc = .created → Changes w k x (.create s none) { x with pc := .setup }
  | giveBack {s : Nat} : x.pc = .created → Changes w k x (.giveBack s) (x.giveSlotBack .gaveBack)
  | cancel {s : Nat} :
      w.streams s = { pc := .cancelling, execution := some k } →
        (x.done = true ∨ x.process = none) →
      Changes w k x (.cancel s) x.requestCancellation
  | call {s : Nat} : w.streams s = { pc := .cancelling, execution := some k } → x.done = false →
      x.process = some k →
      Changes w k x (.cancel s)
        (x.requestCancellation.withProcess fun p => { p with cancelled := true })

theorem changes_modify {f : Execution → Execution} (hx' : (w.modify k f).executions[j]? = some x')
    (hsubj : w.subject e = some k) (hf : ∀ x, w.executions[k]? = some x → Changes w k x e (f x)) :
    ∃ x, w.executions[j]? = some x ∧ Changes w j x e x' := by
  rw [Service.getElem?_modify] at hx'
  obtain ⟨x, hx, rfl⟩ := Option.map_eq_some_iff.mp hx'
  refine ⟨x, hx, ?_⟩
  split
  · rename_i hkj
    subst hkj
    exact hf x hx
  · rename_i hkj
    exact Changes.same (by rw [hsubj]; simpa using hkj)

theorem Inv.changes_cancel (hi : Inv w) (hpc : (w.streams s).pc = .cancelling)
    (hcur : (w.streams s).execution = some k) (hx : w.executions[k]? = some x)
    (hx' : (w.cancelExecution s k x).executions[j]? = some x') :
    ∃ y, w.executions[j]? = some y ∧ Changes w j y (.cancel s) x' := by
  have hs := hi.sound k x hx
  have hst : w.streams s = { pc := .cancelling, execution := some k } := by rw [← hpc, ← hcur]
  have hrequest : x.done = true ∨ x.process = none → ∀ y, w.executions[k]? = some y →
      Changes w k y (.cancel s) y.requestCancellation := by
    intro hor y hy
    obtain rfl := Option.some.inj (hx.symm.trans hy)
    exact Changes.cancel hst hor
  unfold Service.cancelExecution at hx'
  split at hx'
  · rename_i hdone
    exact changes_modify hx' hcur (hrequest (Or.inl hdone))
  · rename_i hdone
    split at hx'
    · rename_i hnone
      exact changes_modify hx' hcur (hrequest (Or.inr hnone))
    · rename_i p hp
      -- the Process that is published is the execution's own
      have hpk : p = k := by
        have := hs.process
        rw [hp] at this
        split at this
        · exact Option.some.inj this
        · cases this
      subst hpk
      have hx'' : ((w.modify p Execution.requestCancellation).modify p
          (·.withProcess fun q => { q with cancelled := true })).executions[j]? = some x' := hx'
      rw [Service.getElem?_modify, Service.getElem?_modify, Option.map_map] at hx''
      obtain ⟨y, hy, rfl⟩ := Option.map_eq_some_iff.mp hx''
      refine ⟨y, hy, ?_⟩
      by_cases hpj : p = j
      · subst hpj
        obtain rfl := Option.some.inj (hx.symm.trans hy)
        simp only [Function.comp_apply, if_true]
        exact Changes.call hst (by simpa using hdone) hp
      · simp only [Function.comp_apply, if_neg hpj]
        exact Changes.same (by simp only [Service.subject, hcur]; simpa using hpj)

/-- **What a step does to one execution**, unless it is the step that accepts it. -/
theorem Inv.changes (hi : Inv w) (h : Service.step max w e = some w')
    (hx' : w'.executions[k]? = some x') :
    (∃ x, w.executions[k]? = some x ∧ Changes w k x e x')
      ∨ (k = w.executions.length ∧ ∃ s, e = .claimSlot s ∧ x' = { stream := s }) := by
  obtain ⟨-, hstep⟩ := Service.steps h
  cases hstep with
  | @read s r hpc =>
    left
    cases r with
    | cancellation =>
      simp only [Service.readRequest] at hx'
      split at hx'
      · rename_i hnone
        exact ⟨x', hx', Changes.same (by simp [Service.subject, hnone])⟩
      · rename_i j hcur
        exact changes_modify hx' hcur (fun x _ => Changes.read (by rw [← hpc, ← hcur]))
    | _ => exact ⟨x', hx', Changes.same (by simp [Service.subject])⟩
  | checkDone _ _ _ | waitPrevious _ _ _ | refuse _ _ | createFails _ | finish _ _ =>
    exact Or.inl ⟨x', hx', Changes.same (by simp [Service.subject])⟩
  | @accept s _ _ =>
    have hx'' := (Service.getElem?_accept s k).symm.trans hx'
    split at hx''
    · rename_i hk
      exact Or.inr ⟨hk, s, rfl, (Option.some.inj hx'').symm⟩
    · exact Or.inl ⟨x', hx'', Changes.same (by simp [Service.subject])⟩
  | @create s j hpc =>
    left
    obtain ⟨y, hy, -, hyc⟩ := hi.created s j (by rw [hpc]; rfl)
    refine changes_modify hx' (by simp [Service.subject, hpc, StreamPc.creates]) (fun x hx => ?_)
    obtain rfl := Option.some.inj (hx.symm.trans hy)
    exact Changes.start hyc
  | @giveBack s j text hpc =>
    left
    obtain ⟨y, hy, -, hyc⟩ := hi.created s j (by rw [hpc]; rfl)
    refine changes_modify hx' (by simp [Service.subject, hpc, StreamPc.creates]) (fun x hx => ?_)
    obtain rfl := Option.some.inj (hx.symm.trans hy)
    exact Changes.giveBack hyc
  | cancel hpc hcur hx => exact Or.inl (hi.changes_cancel hpc hcur hx hx')
  | @thread j a x y effect hx hact =>
    left
    rw [Service.getElem?_apply hx] at hx'
    split at hx'
    · rename_i hk
      subst hk
      cases hx'
      exact ⟨x, hx, Changes.act hact⟩
    · rename_i hk
      exact ⟨x', hx', Changes.same (by simpa [Service.subject, eq_comm] using hk)⟩

/-! ## Executions stay where they are -/

theorem Service.step_length (h : Service.step max w e = some w') :
    w.executions.length ≤ w'.executions.length := by
  obtain ⟨-, hstep⟩ := Service.steps h
  cases hstep with
  | @read s r hpc =>
    cases r with
    | cancellation =>
      simp only [Service.readRequest]
      split
      · exact Nat.le_refl _
      · simp [Service.goTo, Service.setStream, Service.modify]
    | _ => exact Nat.le_refl _
  | accept _ _ => simp [Service.goTo, Service.setStream, Service.accept]
  | create _ | giveBack _ => simp [Service.setStream, Service.modify]
  | cancel _ _ _ =>
    unfold Service.cancelExecution
    split
    · simp [Service.goTo, Service.setStream, Service.modify]
    · split <;> simp [Service.goTo, Service.setStream, Service.modify, Service.callCancel]
  | @thread k a x x' effect _ _ => cases effect <;> simp [Service.apply]
  | _ => exact Nat.le_refl _

theorem Changes.stream (hs : Sound k x.pc x) (h : Changes w k x e x') : x'.stream = x.stream := by
  cases h with
  | act hact => exact (Execution.acted hs hact).stream
  | cancel _ _ | call _ _ _ => exact (congrArg Execution.stream (requestCancellation_eq x) :)
  | _ => rfl

theorem Inv.persists (hi : Inv w) (h : Service.step max w e = some w')
    (hx : w.executions[k]? = some x) : ∃ x', w'.executions[k]? = some x' ∧ Changes w k x e x' := by
  have hk := (List.getElem?_eq_some_iff.mp hx).1
  have hk' := Nat.lt_of_lt_of_le hk (Service.step_length h)
  refine ⟨w'.executions[k], List.getElem?_eq_getElem hk', ?_⟩
  rcases hi.changes h (List.getElem?_eq_getElem hk') with ⟨y, hy, hch⟩ | ⟨hlen, -⟩
  · obtain rfl := Option.some.inj (hx.symm.trans hy)
    exact hch
  · exact absurd hk (by omega)

end Sortie.Engine.ServiceImpl
