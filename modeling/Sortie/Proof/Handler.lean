import Sortie.Engine.Handler

/-!
# What holds wherever the thread of an execution is

Almost everything about an execution can be read off the place its thread has
reached: whether its slot was given back, whether its Process is published, whether
it is unwinding. `Sound` says so, for the fields the threads share, and every action
of the threads keeps it. `acts` says once what an action can be.
-/

namespace Sortie.Engine.ServiceImpl

/-! ## Reading a place -/

namespace Pc

/-- Nothing more happens. -/
def isOver : Pc → Bool
  | .gaveBack | .ended _ => true
  | _ => false

/-- The thread exists, or existed. -/
def threaded : Pc → Bool
  | .created | .gaveBack => false
  | _ => true

/-- The slot was given back. -/
def released : Pc → Bool
  | .gaveBack | .markDone _ | .write | .writing | .destroy .answer | .exit .answer
  | .ended _ => true
  | _ => false

/-- The execution is marked as done. -/
def done : Pc → Bool
  | .write | .writing | .destroy .answer | .exit .answer | .ended _ => true
  | _ => false

/-- The Process is published. -/
def published : Pc → Bool
  | .startProgress | .run | .running | .stopProgress _ | .joinProgress _ | .finish
  | .unpublish _ => true
  | _ => false

/-- There is a Process, and it is not destroyed. -/
def hasProcess (q : Pc) : Bool := q == .publish || q.published

/-- There has been no Process yet. -/
def unpublishedYet : Pc → Bool
  | .created | .gaveBack | .setup | .publish => true
  | _ => false

/-- The progress thread may exist. -/
def inProgress : Pc → Bool
  | .run | .running | .stopProgress _ | .joinProgress _ => true
  | _ => false

/-- The progress thread is being joined. -/
def joining : Pc → Bool
  | .joinProgress _ => true
  | _ => false

/-- `shutdown_` may be false. -/
def mayRun : Pc → Bool
  | .running | .stopProgress _ | .joinProgress _ | .finish | .unpublish .unwind
  | .destroy .unwind => true
  | _ => false

/-- An exception is leaving the thread. -/
def unwinding : Pc → Bool
  | .stopProgress .unwind | .joinProgress .unwind | .unpublish .unwind | .destroy .unwind
  | .exit .unwind | .markDone .unwind | .ended .unwind => true
  | _ => false

/-- The write of the final response was begun. -/
def answered : Pc → Bool
  | .writing | .destroy .answer | .exit .answer | .ended .answer => true
  | _ => false

end Pc

variable {k : Nat} {q : Pc} {x x' : Execution} {a : Action} {effect : Effect}

/-! ## What an action can be -/

/-- The ways the threads of execution `k` go on, and when. -/
inductive Acts (k : Nat) (x : Execution) : Action → Execution → Effect → Prop where
  | setupAnswers {c : Setup} {error : ErrorDetail} : x.pc = .setup → prepare c = .answer error →
      Acts k x (.setup c) { x with error := some error, pc := .release } .none
  | setupThrows {c : Setup} : x.pc = .setup → prepare c = .unwind →
      Acts k x (.setup c) { x with pc := .destroy .unwind } .none
  | setup {c : Setup} {interval : Int} : x.pc = .setup → prepare c = .process interval →
      Acts k x (.setup c) { x with own := some {}, interval, pc := .publish } .none
  | publishCancelled : x.pc = .publish → x.cancelRequested = true →
      Acts k x .publish
        { x.withProcess (fun p => { p with cancelled := true }) with
          process := some k, published := true, honoured := true, pc := .startProgress } .cancelOwn
  | publish : x.pc = .publish → x.cancelRequested = false →
      Acts k x .publish { x with process := some k, published := true, pc := .startProgress } .none
  | noProgress : x.pc = .startProgress → Acts k x (.startProgress true) { x with pc := .run } .none
  | startProgress : x.pc = .startProgress → 0 < x.interval →
      Acts k x (.startProgress true) { x with progress := .waiting, pc := .run } .none
  | startProgressThrows : x.pc = .startProgress →
      Acts k x (.startProgress false) { x with pc := .unpublish .unwind } .none
  | runReturnsFalse : x.pc = .run → Acts k x (.enterRun .returnsFalse) (x.leave (some false)) .none
  | runThrows : x.pc = .run → Acts k x (.enterRun .throws) (x.leave none) .none
  | runCancelled : x.pc = .run → Acts k x (.enterRun .starts) { x with pc := .running } .none
  | start {p : Process} : x.pc = .run → x.own = some p →
      Acts k x (.enterRun .starts) { x with
        own := some { p with shutdown := false, workersRunning := true }, pc := .running } .none
  | startFails {p : Process} : x.pc = .run → x.own = some p →
      Acts k x (.enterRun .startFails)
        ({ x with own := some { p with shutdown := false } }.leave (some false)) .none
  | startThrows {p : Process} : x.pc = .run → x.own = some p →
      Acts k x (.enterRun .startThrows)
        ({ x with own := some { p with shutdown := false } }.leave none) .none
  | leaveRun {ok : Bool} : x.pc = .running →
      Acts k x (.leaveRun (some ok))
        ((x.withProcess fun p => { p with workersRunning := false }).leave (some ok)) .none
  | leaveRunThrows : x.pc = .running → Acts k x (.leaveRun none) (x.leave none) .none
  | stopNoProgress {t : Tail} : x.pc = .stopProgress t → x.progress = .absent →
      Acts k x .stopProgress (x.afterProgress t) .none
  | stopProgress {t : Tail} : x.pc = .stopProgress t → x.progress ≠ .absent →
      Acts k x .stopProgress { x with stop := true, pc := .joinProgress t } .none
  | joinProgress {t : Tail} : x.pc = .joinProgress t → x.progress = .finished →
      Acts k x .joinProgress (x.afterProgress t) .none
  | finish : x.pc = .finish →
      Acts k x (.finish true) { x.withProcess (fun p => { p with shutdown := true }) with
        pc := .unpublish .answer } .none
  | finishThrows : x.pc = .finish →
      Acts k x (.finish false) { x with pc := .unpublish .unwind } .none
  | unpublish : x.pc = .unpublish .answer →
      Acts k x .unpublish { x with process := none, pc := .release } .none
  | unpublishUnwinding : x.pc = .unpublish .unwind →
      Acts k x .unpublish { x with process := none, pc := .destroy .unwind } .none
  | releasedBefore : x.pc = .release → x.released = true →
      Acts k x .release { x with pc := .write } .none
  | release : x.pc = .release → x.released = false →
      Acts k x .release (x.giveSlotBack (.markDone .answer)) .releaseSlot
  | markDone : x.pc = .markDone .answer →
      Acts k x .markDone { x with done := true, pc := .write } .none
  | markDoneUnwinding : x.pc = .markDone .unwind →
      Acts k x .markDone { x with done := true, pc := .ended .unwind } .none
  | beginWrite : x.pc = .write →
      Acts k x .beginWrite
        { x with responses := .final x.error :: x.responses, pc := .writing } .none
  | endWrite : x.pc = .writing → Acts k x .endWrite { x with pc := .destroy .answer } .none
  | destroyNothing {t : Tail} : x.pc = .destroy t → x.own = none →
      Acts k x .destroy { x with pc := .exit t } .none
  | destroy {t : Tail} {p : Process} : x.pc = .destroy t → x.own = some p → p.shutdown = true →
      Acts k x .destroy { x with own := some { p with destroyed := true }, pc := .exit t } .none
  | abort {t : Tail} {p : Process} : x.pc = .destroy t → x.own = some p → p.shutdown = false →
      Acts k x .destroy { x with aborted := true } .abort
  | exitReleased {t : Tail} : x.pc = .exit t → x.released = true →
      Acts k x .exit { x with pc := .ended t } .none
  | exit {t : Tail} : x.pc = .exit t → x.released = false →
      Acts k x .exit (x.giveSlotBack (.markDone .unwind)) .releaseSlot
  | wake : x.progress = .waiting →
      Acts k x .wake { x with progress := if x.stop then .finished else .awake } .none
  | snapshot : x.progress = .awake →
      Acts k x (.snapshot .taken)
        { x with responses := .progress :: x.responses, progress := .writing } .none
  | snapshotNothing : x.progress = .awake →
      Acts k x (.snapshot .nothing) { x with progress := .waiting } .none
  | snapshotThrows : x.progress = .awake →
      Acts k x (.snapshot .threw) { x with aborted := true } .abort
  | endProgressWrite : x.progress = .writing →
      Acts k x .endProgressWrite { x with progress := .waiting } .none

/-- **An action is one of these.** -/
theorem Execution.acts (h : x.act k a = some (x', effect)) : Acts k x a x' effect := by
  revert h
  fun_cases Execution.act x k a <;> intro h
  case case17 hpc r p _ _ hown _ =>
    obtain ⟨y, hy, h⟩ := Option.map_eq_some_iff.mp h
    obtain ⟨rfl, rfl⟩ := Prod.mk.inj h
    cases r <;> simp only [Execution.startWorkers, Option.some.injEq, reduceCtorEq] at hy <;>
      subst hy
    · exact .start hpc hown
    · exact .startFails hpc hown
    · exact .startThrows hpc hown
  case case6 hpc _ hc =>
    obtain ⟨rfl, rfl⟩ := Prod.mk.inj (Option.some.inj h)
    exact .publish hpc (by simpa using hc)
  -- what does not come next is refused
  all_goals cases h
  case case10 hpc hpos => exact .startProgress hpc (Int.not_le.mp hpos)
  all_goals try simp only [Bool.not_eq_true] at *
  case case11 created hpc _ hno =>
    subst hno
    exact .startProgressThrows hpc
  case case31 returned hpc hno =>
    subst hno
    exact .finishThrows hpc
  all_goals constructor <;> assumption

/-! ## What a place says -/

theorem Pc.released_of_answered (h : q.answered = true) : q.released = true := by
  cases q with
  | destroy t | exit t => cases t <;> first | rfl | exact absurd h (by decide)
  | _ => first | rfl | exact absurd h (by simp [Pc.answered])

theorem Pc.released_of_over (h : q.isOver = true) : q.released = true := by
  cases q <;> first | rfl | exact absurd h (by simp [Pc.isOver])

/-- Going from `q` to `q'` changes nothing that `Sound` says of the rest. -/
def Pc.leadsTo (q q' : Pc) : Bool :=
  q'.released == q.released && q'.done == q.done && q'.published == q.published
    && q'.answered == q.answered && (q'.mayRun || !q.mayRun) && (q'.inProgress || !q.inProgress)
    && (!q'.unpublishedYet || q.unpublishedYet) && (!q'.hasProcess || q.hasProcess)
    && (!q'.joining || q.joining)

/-- What the place `q` of a thread says about its execution `k`. -/
structure Sound (k : Nat) (q : Pc) (x : Execution) : Prop where
  released : x.released = q.released
  releases : x.releases = if q.released then 1 else 0
  done : x.done = q.done
  process : x.process = if q.published then some k else none
  alive : q.hasProcess = true → ∃ p, x.own = some p ∧ p.destroyed = false
  shutdown : q.mayRun = false → ∀ p, x.own = some p → p.shutdown = true
  progress : q.inProgress = false → x.progress = .absent ∨ x.progress = .finished
  joining : q.joining = true → x.stop = true ∧ x.progress ≠ .absent
  responses : ∃ ps, (∀ r ∈ ps, r = Response.progress)
    ∧ x.responses = if q.answered then .final x.error :: ps else ps
  published : q.published = true → x.published = true
  unpublishedYet : q.unpublishedYet = true → x.published = false
  noted : Fate.noted false ∈ x.cancels → x.cancelRequested = true
    ∧ (x.published = true → x.honoured = true)
  late : Fate.late ∈ x.cancels → x.done = true
  gone : Fate.noted true ∈ x.cancels → x.published = true ∧ q.published = false
  honoured : x.honoured = true → x.published = true

/-! ## Every action keeps it -/

section

variable (hs : Sound k q x)
include hs

theorem Sound.move (q' : Pc) (h : q.leadsTo q' = true) : Sound k q' x := by
  simp only [Pc.leadsTo, Bool.and_eq_true, beq_iff_eq, Bool.or_eq_true, Bool.not_eq_true'] at h
  obtain ⟨⟨⟨⟨⟨⟨⟨⟨hrel, hdone⟩, hpub⟩, hans⟩, hrun⟩, hprog⟩, hyet⟩, hown⟩, hjoin⟩ := h
  refine ⟨hrel ▸ hs.released, hrel ▸ hs.releases, hdone ▸ hs.done, hpub ▸ hs.process,
    ?_, ?_, ?_, ?_, hans ▸ hs.responses, hpub ▸ hs.published, ?_, hs.noted, hs.late, ?_,
    hs.honoured⟩
  · intro h
    exact hs.alive (hown.resolve_left (by rw [h]; simp))
  · intro h
    exact hs.shutdown (hrun.resolve_left (by rw [h]; simp))
  · intro h
    exact hs.progress (hprog.resolve_left (by rw [h]; simp))
  · intro h
    exact hs.joining (hjoin.resolve_left (by rw [h]; simp))
  · intro h
    exact hs.unpublishedYet (hyet.resolve_left (by rw [h]; simp))
  · intro h
    exact ⟨(hs.gone h).1, hpub.trans (hs.gone h).2⟩

theorem Sound.goTo {q' : Pc} (h : q.leadsTo q' = true) :
    Sound k q' { x with pc := q' } := { hs.move q' h with }

/-- The Process may be cancelled at any time. -/
theorem Sound.cancelled :
    Sound k q (x.withProcess fun p => { p with cancelled := true }) := by
  refine { hs with alive := ?_, shutdown := ?_ }
  · intro h
    obtain ⟨p, hp, halive⟩ := hs.alive h
    exact ⟨{ p with cancelled := true }, by simp [Execution.withProcess, hp], halive⟩
  · intro h p hp
    obtain ⟨p₀, hp₀, rfl⟩ := Option.map_eq_some_iff.mp hp
    exact hs.shutdown h p₀ hp₀

/-- The run may be left from any place it has reached. -/
theorem Sound.leave (result : Option Bool) (hanswer : q.leadsTo (.stopProgress .answer) = true)
    (hunwind : q.leadsTo (.stopProgress .unwind) = true) :
    Sound k (x.leave result).pc (x.leave result) := by
  have ha := hs.move _ hanswer
  cases result with
  | none => exact { hs.move _ hunwind with }
  | some ok =>
    cases ok with
    | true => exact { ha with }
    | false => exact { ha with responses := ha.responses }

/-- Once the progress thread is gone the thread goes on without it. -/
theorem Sound.withoutProgress {t : Tail} (hq : q = .stopProgress t ∨ q = .joinProgress t)
    (hgone : x.progress = .absent ∨ x.progress = .finished) :
    Sound k (x.afterProgress t).pc (x.afterProgress t) := by
  have hresp : ∃ ps, (∀ r ∈ ps, r = Response.progress) ∧ x.responses = ps := by
    rcases hq with rfl | rfl <;> cases t <;> exact hs.responses
  have hfinish : Sound k .finish x := by
    rcases hq with rfl | rfl <;>
      exact { hs with
        alive := fun _ => hs.alive rfl
        shutdown := nofun
        progress := fun _ => hgone
        joining := nofun
        responses := hresp
        unpublishedYet := nofun }
  cases t with
  | answer => exact { hfinish with }
  | unwind => exact { hfinish.move (.unpublish .unwind) rfl with }

/-- A thread that is there holds up its execution. -/
theorem Sound.inProgress (h : x.progress ≠ .absent) (h' : x.progress ≠ .finished) :
    q.inProgress = true := by
  cases hq : q.inProgress with
  | true => rfl
  | false => exact absurd (hs.progress hq) (by simp [h, h'])

end

theorem Pc.not_answered_of_inProgress (h : q.inProgress = true) : q.answered = false := by
  cases q <;> first | rfl | exact absurd h (by simp [Pc.inProgress])

/-- What the progress thread does next to its own state. -/
theorem Sound.atProgress (hs : Sound k q x) (hin : q.inProgress = true) (pc : ProgressPc)
    (hpc : pc ≠ .absent) : Sound k q { x with progress := pc } :=
  { hs with
    progress := fun h0 => nomatch hin.symm.trans h0
    joining := fun h0 => ⟨(hs.joining h0).1, hpc⟩ }

/-- The Process is published, and a cancellation that waits for it is carried out. -/
theorem Sound.publish (hs : Sound k .publish x) :
    Sound k .startProgress
      { x with process := some k, published := true, honoured := x.cancelRequested } :=
  { hs with
    process := rfl
    alive := fun _ => hs.alive rfl
    published := fun _ => rfl
    unpublishedYet := nofun
    honoured := fun _ => rfl
    noted := fun hn => ⟨(hs.noted hn).1, fun _ => (hs.noted hn).1⟩
    gone := fun hn => nomatch (hs.unpublishedYet rfl).symm.trans (hs.gone hn).1 }

/-- Once the workers are being started `shutdown_` is false. -/
theorem Sound.started {p : Process} (hs : Sound k .run x) (hp : x.own = some p) (b : Bool) :
    Sound k .running { x with own := some { p with shutdown := false, workersRunning := b } } := by
  obtain ⟨p₀, hp₀, hlive⟩ := hs.alive rfl
  obtain rfl := Option.some.inj (hp₀.symm.trans hp)
  exact { hs.move .running rfl with
    alive := fun _ => ⟨_, rfl, hlive⟩
    shutdown := nofun }

theorem Sound.stopped (hs : Sound k .running x) :
    Sound k .running (x.withProcess fun p => { p with workersRunning := false }) := by
  refine { hs with alive := ?_, shutdown := nofun }
  intro h0
  obtain ⟨p, hp, hlive⟩ := hs.alive h0
  exact ⟨{ p with workersRunning := false }, by simp [Execution.withProcess, hp], hlive⟩

theorem Sound.finish (hs : Sound k .finish x) :
    Sound k (.unpublish .answer) (x.withProcess fun p => { p with shutdown := true }) := by
  obtain ⟨p, hp, hlive⟩ := hs.alive rfl
  refine { hs with alive := ?_, shutdown := ?_ }
  · exact fun _ => ⟨{ p with shutdown := true }, by simp [Execution.withProcess, hp], hlive⟩
  · rintro - p' hp'
    obtain ⟨p₀, -, rfl⟩ := Option.map_eq_some_iff.mp hp'
    rfl

theorem Sound.destroyed {t : Tail} {p : Process} (hs : Sound k (.destroy t) x)
    (hshut : p.shutdown = true) :
    Sound k (.exit t) { x with own := some { p with destroyed := true } } := by
  cases t <;>
    exact { hs with
      alive := nofun
      shutdown := fun _ p' hp' => by obtain rfl := Option.some.inj hp'; exact hshut }

/-- **Every action of the threads keeps it.** -/
theorem Sound.act (hs : Sound k x.pc x) (h : x.act k a = some (x', effect)) : Sound k x'.pc x' := by
  cases Execution.acts h
  case abort | snapshotThrows => exact { hs with }
  all_goals try rw [‹x.pc = _›] at hs
  case setupAnswers => exact { hs.move .release rfl with responses := hs.responses }
  case setup =>
    refine { hs with alive := fun _ => ⟨{}, rfl, rfl⟩, shutdown := ?_ }
    rintro - p hp
    cases hp
    rfl
  case publishCancelled =>
    exact { hs.publish.cancelled with
      noted := fun hn => ⟨(hs.noted hn).1, fun _ => rfl⟩
      honoured := fun _ => rfl }
  case publish hc =>
    exact { hs.publish with
      noted := fun hn => nomatch (hs.noted hn).1.symm.trans hc
      honoured := fun _ => rfl }
  case startProgress =>
    show Sound k .run _
    exact { hs.move .run rfl with progress := nofun, joining := nofun }
  case runReturnsFalse | runThrows | leaveRunThrows => exact hs.leave _ rfl rfl
  case start hp => exact { hs.started hp true with }
  case startFails hp | startThrows hp => exact (hs.started hp _).leave _ rfl rfl
  case leaveRun => exact hs.stopped.leave _ rfl rfl
  case stopNoProgress habsent => exact hs.withoutProgress (Or.inl rfl) (Or.inl habsent)
  case stopProgress t _ hpresent =>
    have hs' : Sound k (.joinProgress t) { x with stop := true } := by
      cases t <;> exact { hs with joining := fun _ => ⟨rfl, hpresent⟩ }
    exact { hs' with }
  case joinProgress hfin => exact hs.withoutProgress (Or.inr rfl) (Or.inr hfin)
  case finish => exact { hs.finish with }
  case unpublish | unpublishUnwinding =>
    exact { hs with
      process := rfl
      alive := nofun
      published := nofun
      gone := fun _ => ⟨hs.published rfl, rfl⟩ }
  case releasedBefore hrel => exact nomatch hs.released.symm.trans hrel
  case release =>
    exact { hs with released := rfl, releases := congrArg Nat.succ hs.releases }
  case markDone | markDoneUnwinding => exact { hs with done := rfl, late := fun _ => rfl }
  case beginWrite =>
    obtain ⟨ps, hps, hresp⟩ := hs.responses
    exact { hs with responses := ⟨ps, hps, congrArg (Response.final x.error :: ·) hresp⟩ }
  case destroyNothing t _ hown =>
    have hs' : Sound k (.exit t) x := by
      cases t <;> exact { hs with shutdown := fun _ p hp => nomatch hown.symm.trans hp }
    exact { hs' with }
  case destroy hshut => exact { hs.destroyed hshut with }
  case exitReleased t _ hrel =>
    cases t with
    | answer => exact { hs.move (.ended .answer) rfl with }
    | unwind => exact nomatch hs.released.symm.trans hrel
  case exit t _ hrel =>
    cases t with
    | answer => exact nomatch hs.released.symm.trans hrel
    | unwind => exact { hs with released := rfl, releases := congrArg Nat.succ hs.releases }
  case wake hp =>
    exact hs.atProgress (hs.inProgress (by simp [hp]) (by simp [hp])) _ (by split <;> simp)
  case snapshot hp =>
    have hin : x.pc.inProgress = true := hs.inProgress (by simp [hp]) (by simp [hp])
    have hno := Pc.not_answered_of_inProgress hin
    obtain ⟨ps, hps, hresp⟩ := hs.responses
    rw [hno] at hresp
    refine { hs.atProgress hin .writing (by simp) with responses := ⟨.progress :: ps, ?_, ?_⟩ }
    · exact List.forall_mem_cons.mpr ⟨rfl, hps⟩
    · rw [hno, hresp]
      rfl
  case snapshotNothing hp | endProgressWrite hp =>
    exact hs.atProgress (hs.inProgress (by simp [hp]) (by simp [hp])) _ (by simp)
  -- the rest only go to a place that says as much
  all_goals exact hs.goTo rfl

/-! ## What the stream's thread does to an execution -/

theorem Sound.init (s : Nat) : Sound k .created { stream := s } where
  released := rfl
  releases := rfl
  done := rfl
  process := rfl
  alive := nofun
  shutdown := fun _ _ hp => absurd hp (by simp)
  progress := fun _ => Or.inl rfl
  joining := nofun
  responses := ⟨[], by simp, rfl⟩
  published := nofun
  unpublishedYet := fun _ => rfl
  noted := nofun
  late := nofun
  gone := nofun
  honoured := nofun

theorem Sound.gaveBack (hs : Sound k .created x) : Sound k .gaveBack (x.giveSlotBack .gaveBack) :=
  { hs with released := rfl, releases := congrArg Nat.succ hs.releases }

/-- A cancellation leaves its note and its fate, and nothing else. -/
theorem requestCancellation_eq (x : Execution) : x.requestCancellation = { x with
    cancelRequested := x.requestCancellation.cancelRequested
    cancels := x.requestCancellation.cancels } := by
  unfold Execution.requestCancellation
  split
  · rfl
  · split <;> rfl

theorem Sound.requestCancellation (hs : Sound k q x) : Sound k q x.requestCancellation := by
  have hnoted {f : Fate} (hf : Fate.noted false ≠ f) (h : Fate.noted false ∈ f :: x.cancels) :=
    hs.noted (List.mem_of_ne_of_mem hf h)
  have hlate {f : Fate} (hf : Fate.late ≠ f) (h : Fate.late ∈ f :: x.cancels) :=
    hs.late (List.mem_of_ne_of_mem hf h)
  have hgone {f : Fate} (hf : Fate.noted true ≠ f) (h : Fate.noted true ∈ f :: x.cancels) :=
    hs.gone (List.mem_of_ne_of_mem hf h)
  unfold Execution.requestCancellation
  split
  · rename_i hdone
    exact { hs with noted := hnoted nofun, late := fun _ => hdone, gone := hgone nofun }
  split
  · rename_i hproc
    refine { hs with noted := ?_, late := hlate nofun, gone := ?_ }
    · intro hn
      refine ⟨rfl, ?_⟩
      intro hpub
      rcases List.mem_cons.mp hn with h0 | h0
      · exact nomatch (Fate.noted.inj h0).trans hpub
      · exact (hs.noted h0).2 hpub
    · intro hn
      rcases List.mem_cons.mp hn with h0 | h0
      · -- there has been a Process, and it is not published
        refine ⟨(Fate.noted.inj h0).symm, ?_⟩
        rw [hs.process] at hproc
        cases hq : q.published with
        | false => rfl
        | true => rw [hq] at hproc; exact absurd hproc (by simp)
      · exact hs.gone h0
  · exact { hs with noted := hnoted nofun, late := hlate nofun, gone := hgone nofun }

end Sortie.Engine.ServiceImpl
