import Sortie.Proof.Handler

/-!
# What the thread of an execution does to the service, and that it gets there

`Acted` says what an action changes besides the place of its thread: whether it gives
the slot back, cancels the Process, throws, or takes the service down. The service
dies only of a call that throws while `shutdown_` is false (`Safe.act`), and a thread
that is not on its way there can always go on (`canGoOn`).
-/

namespace Sortie.Engine.ServiceImpl

variable {k : Nat} {q : Pc} {x x' : Execution} {a : Action} {effect : Effect}
variable {t : Tail}

/-- An exception has left the thread, or the progress thread. -/
def Execution.threw (x : Execution) : Bool := x.pc.unwinding || x.aborted

/-- What an action changes, and what it leaves alone. -/
structure Acted (x : Execution) (a : Action) (x' : Execution) (effect : Effect) : Prop where
  stream : x'.stream = x.stream
  cancels : x'.cancels = x.cancels
  cancelsRead : x'.cancelsRead = x.cancelsRead
  /-- a slot is given back once -/
  released : if effect = .releaseSlot then x.released = false ∧ x'.released = true
    else x'.released = x.released
  honoured : if effect = .cancelOwn then x.honoured = false ∧ x'.honoured = true
    else x'.honoured = x.honoured
  aborted : x'.aborted = (x.aborted || effect == .abort)
  /-- the service does not die of an answered execution -/
  abort : effect = .abort → x'.pc.answered = false
  threw : x'.threw = (x.threw || a.throws)
  threaded : x.pc.threaded = true ∧ x'.pc.threaded = true
  running : x.pc.isOver = false

/-- The places a thread goes between, as far as `Acted` reads them. -/
def Pc.goes (q q' : Pc) (throws : Bool) : Bool :=
  q'.unwinding == (q.unwinding || throws) && q.threaded && q'.threaded && !q.isOver

/-- An action that only the execution itself can see. -/
theorem Acted.quiet {q' : Pc} (hq : x.pc = q) (hq' : x'.pc = q')
    (h : q.goes q' a.throws = true)
    (hkeep : (x'.stream, x'.cancels, x'.cancelsRead, x'.released, x'.honoured, x'.aborted)
      = (x.stream, x.cancels, x.cancelsRead, x.released, x.honoured, x.aborted)) :
    Acted x a x' .none := by
  simp only [Prod.mk.injEq] at hkeep
  obtain ⟨h1, h2, h3, h4, h5, h6⟩ := hkeep
  simp only [Pc.goes, Bool.and_eq_true, beq_iff_eq, Bool.not_eq_true'] at h
  obtain ⟨⟨⟨hunw, ht⟩, ht'⟩, hover⟩ := h
  subst hq hq'
  refine ⟨h1, h2, h3, by simpa using h4, by simpa using h5, ?_, fun h0 => absurd h0 (by decide), ?_,
    ⟨ht, ht'⟩, hover⟩
  · exact h6.trans (Bool.or_false _).symm
  · unfold Execution.threw
    rw [hunw, h6, Bool.or_right_comm]

theorem Pc.goes_self_of_inProgress (h : q.inProgress = true) : q.goes q false = true := by
  cases q with
  | stopProgress t => cases t <;> rfl
  | joinProgress t => cases t <;> rfl
  | run => rfl
  | running => rfl
  | _ => exact absurd h (by simp [Pc.inProgress])

/-- The progress thread acts while its execution is under way. -/
theorem Acted.quiet_progress {pc : ProgressPc} {rs : List Response} (hin : x.pc.inProgress = true)
    (hno : a.throws = false) :
    Acted x a { x with progress := pc, responses := rs } .none := by
  refine Acted.quiet rfl rfl ?_ rfl
  rw [hno]
  exact Pc.goes_self_of_inProgress hin

theorem Acted.leave {r : Option Bool} (hpc : x.pc = .run ∨ x.pc = .running)
    (h : a.throws = r.isNone) (own : Option Process) :
    Acted x a ({ x with own := own }.leave r) .none := by
  rcases hpc with hpc | hpc <;> rcases r with _ | _ | _ <;>
    exact Acted.quiet hpc rfl (by rw [h]; rfl) rfl

theorem Acted.afterProgress (hpc : x.pc = .stopProgress t ∨ x.pc = .joinProgress t)
    (h : a.throws = false) : Acted x a (x.afterProgress t) .none := by
  rcases hpc with hpc | hpc <;> cases t <;> exact Acted.quiet hpc rfl (by rw [h]; rfl) rfl

theorem Acted.giveSlotBack {q' : Pc} (hq : x.pc = q) (hrel : x.released = false)
    (h : q.goes q' a.throws = true) : Acted x a (x.giveSlotBack q') .releaseSlot := by
  have hquiet : Acted x a { x with pc := q' } .none := Acted.quiet hq rfl h rfl
  exact { hquiet with
    released := ⟨hrel, rfl⟩
    honoured := rfl
    aborted := by simp [Execution.giveSlotBack]
    abort := fun h0 => absurd h0 (by decide) }

/-- **What an action changes, and what it leaves alone.** -/
theorem Execution.acted (hs : Sound k x.pc x) (h : x.act k a = some (x', effect)) :
    Acted x a x' effect := by
  cases Execution.acts h
  case setupAnswers hpc hprep | setupThrows hpc hprep | setup hpc hprep =>
    exact Acted.quiet hpc rfl (by simp only [Action.throws, hprep]; rfl) rfl
  case publishCancelled hpc _ =>
    have hhon : x.honoured = false := by
      have hyet := hs.unpublishedYet (by rw [hpc]; rfl)
      cases hh : x.honoured with
      | false => rfl
      | true => cases hyet.symm.trans (hs.honoured hh)
    have hquiet : Acted x .publish { x with pc := .startProgress } .none :=
      Acted.quiet hpc rfl rfl rfl
    exact { hquiet with
      released := rfl
      honoured := ⟨hhon, rfl⟩
      aborted := by simp [Execution.withProcess]
      abort := by rintro ⟨⟩ }
  case runReturnsFalse hpc => exact Acted.leave (r := some false) (Or.inl hpc) rfl x.own
  case runThrows hpc => exact Acted.leave (r := none) (Or.inl hpc) rfl x.own
  case startFails hpc _ => exact Acted.leave (r := some false) (Or.inl hpc) rfl _
  case startThrows hpc _ => exact Acted.leave (r := none) (Or.inl hpc) rfl _
  case leaveRun hpc => exact Acted.leave (Or.inr hpc) rfl _
  case leaveRunThrows hpc => exact Acted.leave (r := none) (Or.inr hpc) rfl x.own
  case stopNoProgress hpc _ => exact Acted.afterProgress (Or.inl hpc) rfl
  case joinProgress hpc _ => exact Acted.afterProgress (Or.inr hpc) rfl
  case stopProgress t hpc _ | destroyNothing t hpc _ | exitReleased t hpc _
    | destroy t _ hpc _ _ =>
    exact Acted.quiet hpc rfl (by cases t <;> rfl) rfl
  case release hpc hrel => exact Acted.giveSlotBack hpc hrel rfl
  case exit t hpc hrel =>
    rw [hpc] at hs
    cases t with
    | answer => cases hs.released.symm.trans hrel
    | unwind => exact Acted.giveSlotBack hpc hrel rfl
  case abort t p hpc hp hshut =>
    rw [hpc] at hs
    cases t with
    | answer => cases (hs.shutdown rfl p hp).symm.trans hshut
    | unwind =>
      -- the abort is the end of an unwinding that was under way
      refine ⟨rfl, rfl, rfl, rfl, rfl, by simp, fun _ => by rw [hpc]; rfl, ?_,
        by simp [hpc, Pc.threaded], by rw [hpc]; rfl⟩
      simp [Execution.threw, hpc, Pc.unwinding]
  case snapshotThrows hp =>
    have hin : x.pc.inProgress = true := hs.inProgress (by simp [hp]) (by simp [hp])
    have hq : Acted x .wake { x with responses := x.responses } .none :=
      Acted.quiet_progress hin rfl
    exact { hq with
      aborted := by simp
      abort := fun _ => Pc.not_answered_of_inProgress hin
      threw := by simp [Execution.threw, Action.throws] }
  case wake hp | snapshot hp | snapshotNothing hp | endProgressWrite hp =>
    exact Acted.quiet_progress (hs.inProgress (by simp [hp]) (by simp [hp])) rfl
  all_goals exact Acted.quiet ‹x.pc = _› rfl rfl rfl

/-! ## Exceptions that do no harm -/

/-- An exception does not meet a Process that is running. -/
def Execution.Safe (x : Execution) : Prop :=
  x.pc.unwinding = true → ∀ p, x.own = some p → p.shutdown = true

/-- A call throws while `shutdown_` is false, or on the progress thread. -/
def Execution.throwsRunning (x : Execution) : Action → Bool
  | .enterRun r => r == .startThrows
  | .leaveRun result => result.isNone && x.own.any (!·.shutdown)
  | .finish returned => !returned && x.own.any (!·.shutdown)
  | .snapshot s => s == .threw
  | _ => false

theorem Execution.not_throwsRunning (h : a.throws = false) : x.throwsRunning a = false := by
  cases a with
  | enterRun r => cases r <;> first | rfl | exact absurd h (by decide)
  | leaveRun result => cases result <;> first | rfl | exact absurd h (by decide)
  | finish returned => cases returned <;> first | rfl | exact absurd h (by decide)
  | snapshot s => cases s <;> first | rfl | exact absurd h (by decide)
  | _ => rfl

theorem Execution.Safe.of_own (hsafe : x.Safe) (hown : x'.own = x.own)
    (hpc : x'.pc.unwinding = true → x.pc.unwinding = true) : x'.Safe := by
  intro h p hp
  exact hsafe (hpc h) p (hown ▸ hp)

theorem Execution.safe_of_not_unwinding (h : x.pc.unwinding = false) : x.Safe := by
  intro h'
  exact nomatch h.symm.trans h'

theorem Execution.safe_of_shutdown (h : ∀ p, x.own = some p → p.shutdown = true)
    (hown : x'.own = x.own) : x'.Safe := by
  intro _ p hp
  exact h p (hown ▸ hp)

theorem Execution.Safe.afterProgress (hsafe : x.Safe)
    (hpc : x.pc = .stopProgress t ∨ x.pc = .joinProgress t) : (x.afterProgress t).Safe := by
  cases t with
  | answer => exact Execution.safe_of_not_unwinding rfl
  | unwind =>
    refine hsafe.of_own rfl (fun _ => ?_)
    rcases hpc with hpc | hpc <;> rw [hpc] <;> rfl

/-- Where the Process is destroyed it is shut down, unless an exception met it running. -/
theorem Execution.Safe.shutdown (hs : Sound k x.pc x) (hsafe : x.Safe) (hpc : x.pc = .destroy t) :
    ∀ p, x.own = some p → p.shutdown = true := by
  cases t with
  | unwind => exact hsafe (by rw [hpc]; rfl)
  | answer => exact hs.shutdown (by rw [hpc]; rfl)

/-- **Only a call that throws while the Process is running leads to an abort.** -/
theorem Execution.Safe.act (hs : Sound k x.pc x) (hsafe : x.Safe)
    (hquiet : x.throwsRunning a = false) (h : x.act k a = some (x', effect)) :
    x'.Safe ∧ effect ≠ .abort := by
  have hany : x.own.any (!·.shutdown) = false → ∀ p, x.own = some p → p.shutdown = true := by
    intro h p hp
    rw [hp] at h
    simpa using h
  cases Execution.acts h
  case startThrows | snapshotThrows => exact absurd hquiet (by simp [Execution.throwsRunning])
  case abort hpc hp hshut => exact nomatch (hsafe.shutdown hs hpc _ hp).symm.trans hshut
  all_goals refine ⟨?_, by decide⟩
  case setupThrows hpc _ | startProgressThrows hpc | runThrows hpc =>
    exact Execution.safe_of_shutdown (hs.shutdown (by rw [hpc]; rfl)) rfl
  case leaveRunThrows | finishThrows => exact Execution.safe_of_shutdown (hany hquiet) rfl
  case leaveRun ok _ => cases ok <;> exact Execution.safe_of_not_unwinding rfl
  case stopNoProgress hpc _ => exact hsafe.afterProgress (Or.inl hpc)
  case joinProgress hpc _ => exact hsafe.afterProgress (Or.inr hpc)
  case stopProgress t hpc _ | exitReleased t hpc _ =>
    exact hsafe.of_own rfl (by rw [hpc]; cases t <;> exact id)
  case unpublishUnwinding hpc | markDoneUnwinding hpc =>
    exact hsafe.of_own rfl (fun _ => by rw [hpc]; rfl)
  case destroyNothing hpc _ => exact Execution.safe_of_shutdown (hsafe.shutdown hs hpc) rfl
  case destroy hshut =>
    rintro - p' hp'
    cases hp'
    exact hshut
  case exit t hpc hrel =>
    refine hsafe.of_own rfl (fun _ => ?_)
    rw [hs.released, hpc] at hrel
    rw [hpc]
    cases t
    · exact absurd hrel (by decide)
    · rfl
  case wake | snapshot | snapshotNothing | endProgressWrite => exact hsafe.of_own rfl id
  all_goals exact Execution.safe_of_not_unwinding rfl

/-! ## A thread can always go on -/

/-- How far the thread is from its end. -/
def Pc.rank : Pc → Nat
  | .created => 16
  | .setup => 15
  | .publish => 14
  | .startProgress => 13
  | .run => 12
  | .running => 11
  | .stopProgress _ => 10
  | .joinProgress _ => 9
  | .finish => 8
  | .unpublish _ => 7
  | .release => 6
  | .markDone .answer => 5
  | .write => 4
  | .writing => 3
  | .destroy .answer => 2
  | .exit .answer => 1
  -- the other way to the end goes through the same places in another order
  | .destroy .unwind => 3
  | .exit .unwind => 2
  | .markDone .unwind => 1
  | .gaveBack | .ended _ => 0

theorem Pc.rank_exit_lt (t : Tail) : (Pc.exit t).rank < (Pc.destroy t).rank := by
  cases t <;> decide

/-- How far the progress thread is from being stopped. -/
def ProgressPc.rank : ProgressPc → Nat
  | .absent | .finished => 0
  | .waiting => 1
  | .awake | .writing => 2

def Execution.rank (x : Execution) : Nat := 3 * x.pc.rank + x.progress.rank

/-- A next action that throws nothing and leads on. -/
def Execution.CanGoOn (x : Execution) (k : Nat) : Prop :=
  ∃ a x' effect, x.act k a = some (x', effect) ∧ a.throws = false ∧ effect ≠ .abort
    ∧ x'.rank < x.rank

theorem ProgressPc.rank_lt (p : ProgressPc) : p.rank < 3 := by
  cases p <;> decide

/-- Moving on by one place outweighs whatever the progress thread does. -/
theorem Execution.rank_lt (hp : x'.pc.rank < x.pc.rank) : x'.rank < x.rank := by
  have := ProgressPc.rank_lt x'.progress
  unfold Execution.rank
  omega

/-- An action that throws nothing and moves the thread on. -/
theorem Execution.CanGoOn.of_act (hpc : x.pc = q) (a : Action) (q' : Pc)
    (h : x.act k a = some (x', effect)) (heffect : effect ≠ .abort := by decide)
    (hquiet : a.throws = false := by rfl) (hpc' : x'.pc = q' := by rfl)
    (hrank : q'.rank < q.rank := by decide) : x.CanGoOn k :=
  ⟨a, x', effect, h, hquiet, heffect, Execution.rank_lt (by rw [hpc, hpc']; exact hrank)⟩

/-- The progress thread makes way for whoever waits for its lock. -/
theorem canGoOn_of_progress (h : x.progress = .awake ∨ x.progress = .writing) : x.CanGoOn k := by
  rcases h with h | h
  · refine ⟨.snapshot .nothing, { x with progress := .waiting }, .none, ?_, rfl, by simp, ?_⟩
    · simp [Execution.act, h]
    · simp [Execution.rank, h, ProgressPc.rank]
  · refine ⟨.endProgressWrite, { x with progress := .waiting }, .none, ?_, rfl, by simp, ?_⟩
    · simp [Execution.act, h]
    · simp [Execution.rank, h, ProgressPc.rank]

theorem Execution.rank_afterProgress (t : Tail) : (x.afterProgress t).pc.rank ≤ 8 := by
  cases t
  · exact Nat.le_refl 8
  · exact Nat.le_succ 7

theorem Sound.canGoOn_stopProgress (hpc : x.pc = .stopProgress t) : x.CanGoOn k := by
  cases hp : x.progress with
  | absent =>
    exact .of_act hpc .stopProgress _ (by simp only [Execution.act, hpc, hp, if_true]; rfl)
      (by decide) rfl rfl (Nat.lt_of_le_of_lt (Execution.rank_afterProgress t) (by decide : 8 < 10))
  | awake => exact canGoOn_of_progress (Or.inl hp)
  | writing => exact canGoOn_of_progress (Or.inr hp)
  | waiting | finished =>
    exact .of_act hpc .stopProgress (.joinProgress t)
      (by simp [Execution.act, hpc, hp, Execution.progressLockFree]; exact ⟨rfl, rfl⟩)
        (by decide) rfl
      rfl (Nat.lt_succ_self 9)

theorem Sound.canGoOn_joinProgress (hs : Sound k x.pc x) (hpc : x.pc = .joinProgress t) :
    x.CanGoOn k := by
  rw [hpc] at hs
  obtain ⟨hstop, hpresent⟩ := hs.joining rfl
  cases hp : x.progress with
  | absent => exact absurd hp hpresent
  | awake => exact canGoOn_of_progress (Or.inl hp)
  | writing => exact canGoOn_of_progress (Or.inr hp)
  | waiting =>
    -- the flag is set, so the thread finds it and is gone
    refine ⟨.wake, { x with progress := .finished }, .none, ?_, rfl, by simp, ?_⟩
    · simp [Execution.act, hp, hstop]
    · simp [Execution.rank, hp, ProgressPc.rank]
  | finished =>
    exact .of_act hpc .joinProgress _ (by simp only [Execution.act, hpc, hp, if_true]; rfl)
      (by decide) rfl rfl (Nat.lt_of_le_of_lt (Execution.rank_afterProgress t) (by decide : 8 < 9))

/-- **A thread that exists and is not over can go on**, unless it is on its way to abort. -/
theorem Sound.canGoOn (hs : Sound k x.pc x) (ht : x.pc.threaded = true)
    (hover : x.pc.isOver = false)
    (hsafe : x.Safe) : x.CanGoOn k := by
  cases hpc : x.pc with
  | created | gaveBack => rw [hpc] at ht; exact absurd ht (by decide)
  | setup => exact .of_act hpc (.setup {}) .publish (if_pos hpc)
  | publish =>
    cases hc : x.cancelRequested with
    | true => exact .of_act hpc .publish .startProgress ((if_pos hpc).trans (if_pos hc))
    | false =>
      exact .of_act hpc .publish .startProgress ((if_pos hpc).trans (if_neg (by rw [hc]; nofun)))
  | startProgress =>
    by_cases hint : x.interval ≤ 0
    · exact .of_act hpc (.startProgress true) .run ((if_pos hpc).trans (if_pos hint))
    · exact .of_act hpc (.startProgress true) .run ((if_pos hpc).trans (if_neg hint))
  | run => exact .of_act hpc (.enterRun .returnsFalse) (.stopProgress .answer) (if_pos hpc)
  | running => exact .of_act hpc (.leaveRun (some true)) (.stopProgress .answer) (if_pos hpc)
  | stopProgress t => exact Sound.canGoOn_stopProgress hpc
  | joinProgress t => exact hs.canGoOn_joinProgress hpc
  | finish => exact .of_act hpc (.finish true) (.unpublish .answer) (if_pos hpc)
  | unpublish t =>
    cases t with
    | unwind =>
      exact .of_act hpc .unpublish (.destroy .unwind) (by simp only [Execution.act, hpc]; rfl)
    | answer => exact .of_act hpc .unpublish .release (by simp only [Execution.act, hpc]; rfl)
  | release =>
    have hrel : x.released = false := by rw [hs.released, hpc]; rfl
    exact .of_act hpc .release (.markDone .answer) (by simp only [Execution.act, hpc, hrel]; rfl)
  | markDone t =>
    cases t with
    | unwind =>
      exact .of_act hpc .markDone (.ended .unwind) (by simp only [Execution.act, hpc]; rfl)
    | answer => exact .of_act hpc .markDone .write (by simp only [Execution.act, hpc]; rfl)
  | write => exact .of_act hpc .beginWrite .writing (if_pos hpc)
  | writing => exact .of_act hpc .endWrite (.destroy .answer) (if_pos hpc)
  | destroy t =>
    cases hown : x.own with
    | none =>
      exact .of_act hpc .destroy (.exit t) (by simp only [Execution.act, hpc, hown]; rfl)
        (by decide) rfl rfl (Pc.rank_exit_lt t)
    | some p =>
      have hshut := hsafe.shutdown hs hpc p hown
      exact .of_act hpc .destroy (.exit t)
        (by simp only [Execution.act, hpc, hown, hshut, if_true]; rfl)
        (by decide) rfl rfl (Pc.rank_exit_lt t)
  | exit t =>
    have hrel : x.released = (Pc.exit t).released := by rw [hs.released, hpc]
    cases t with
    | unwind =>
      exact .of_act hpc .exit (.markDone .unwind) (by simp only [Execution.act, hpc, hrel]; rfl)
    | answer =>
      exact .of_act hpc .exit (.ended .answer) (by simp only [Execution.act, hpc, hrel]; rfl)
  | ended t => rw [hpc] at hover; exact absurd hover (by simp [Pc.isOver])

end Sortie.Engine.ServiceImpl
