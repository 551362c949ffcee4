import Mathlib.Data.List.Basic
import Sortie.Proof.Service

/-!
# The slots of a service

`active_executions_` is taken and given back in different threads: a stream's thread
takes a slot, the execution's thread gives it back, and the stream's thread does when
there is no such thread. It is the number of accepted starts that have not been given
back in every state (`active_run`), whatever throws.

That every accepted start is given back is another matter. An exception that meets a
running Process takes the service down before the slot is given back, and so does a
request without a command. In a run in which neither happens every accepted start is
given back once, and before its final response is written.
-/

namespace Sortie.Engine.ServiceImpl

variable {w w' : Service} {k : Nat} {max : UInt32} {e : Event} {es : List Event} {x : Execution}

/-- The accepted starts that have not been given back. -/
def Service.unreleased (w : Service) : Nat := w.executions.countP (!·.released)

/-! ## Counting them -/

theorem Service.unreleased_set (hx : w.executions[k]? = some x) (x' : Execution) :
    (w.executions.set k x').countP (!·.released) + (if x.released then 0 else 1)
      = w.unreleased + (if x'.released then 0 else 1) := by
  obtain ⟨hk, rfl⟩ := List.getElem?_eq_some_iff.mp hx
  -- an execution that is counted is one of those that are
  have hpos : w.executions[k].released = false → 0 < w.unreleased := by
    intro h
    exact List.countP_pos_iff.mpr ⟨_, List.getElem_mem hk, by simp [h]⟩
  rw [List.countP_set hk]
  unfold Service.unreleased at *
  cases hr : w.executions[k].released <;> cases x'.released <;> simp_all

theorem Service.modify_executions (hx : w.executions[k]? = some x) (f : Execution → Execution) :
    (w.modify k f).executions = w.executions.set k (f x) := by
  show w.executions.modify k f = _
  rw [List.modify_eq_set_getElem?, hx]
  rfl

/-- A change that does not concern the slot. -/
theorem Service.unreleased_modify {f : Execution → Execution}
    (hf : ∀ x, (f x).released = x.released) :
    (w.modify k f).unreleased = w.unreleased := by
  cases hx : w.executions[k]? with
  | none =>
    have hsame : (w.modify k f).executions = w.executions := by
      show w.executions.modify k f = _
      rw [List.modify_eq_set_getElem?, hx]
      rfl
    unfold Service.unreleased
    rw [hsame]
  | some x =>
    have hset := Service.unreleased_set hx (f x)
    unfold Service.unreleased at *
    rw [Service.modify_executions hx]
    rw [hf] at hset
    omega

theorem Service.unreleased_cancelExecution (s : Nat) (x : Execution) :
    (w.cancelExecution s k x).unreleased = w.unreleased
      ∧ (w.cancelExecution s k x).active = w.active := by
  have hkeep : (w.modify k Execution.requestCancellation).unreleased = w.unreleased :=
    Service.unreleased_modify fun x => by rw [requestCancellation_eq]
  unfold Service.cancelExecution
  split
  · exact ⟨hkeep, rfl⟩
  · split
    · exact ⟨hkeep, rfl⟩
    · rename_i p _
      have hcall :=
        Service.unreleased_modify (k := p) (w := w.modify k Execution.requestCancellation)
        (f := (·.withProcess fun q => { q with cancelled := true })) (fun _ => rfl)
      exact ⟨hcall.trans hkeep, rfl⟩

theorem Service.unreleased_readRequest (s : Nat) (r : Request) :
    (w.readRequest s r).unreleased = w.unreleased ∧ (w.readRequest s r).active = w.active := by
  cases r with
  | cancellation =>
    simp only [Service.readRequest]
    split
    · exact ⟨rfl, rfl⟩
    · exact ⟨Service.unreleased_modify (fun _ => rfl), rfl⟩
  | _ => exact ⟨rfl, rfl⟩

/-- A slot is given back: there was one. -/
theorem toNat_sub_one {n : UInt32} {m : Nat} (h : n.toNat = m + 1) : (n - 1).toNat = m := by
  have hle : (1 : UInt32) ≤ n := by
    rw [UInt32.le_iff_toNat_le]
    simp [h]
  rw [UInt32.toNat_sub_of_le _ _ hle, h]
  rfl

/-! ## One step -/

/-- The counter is right, and within the cap. -/
def Service.Counts (max : UInt32) (w : Service) : Prop :=
  w.active.toNat = w.unreleased ∧ w.active ≤ max

theorem Service.Counts.keep (hc : w.Counts max)
    (h : w'.unreleased = w.unreleased ∧ w'.active = w.active) : w'.Counts max := by
  unfold Service.Counts
  rw [h.1, h.2]
  exact hc

theorem Service.Counts.giveBack (hc : w.Counts max) (h : w'.unreleased + 1 = w.unreleased)
    (ha : w'.active = w.active - 1) : w'.Counts max := by
  obtain ⟨hcount, hcap⟩ := hc
  have hsub := toNat_sub_one (n := w.active) (hcount.trans h.symm)
  rw [UInt32.le_iff_toNat_le] at hcap
  refine ⟨ha ▸ hsub, ?_⟩
  rw [ha, UInt32.le_iff_toNat_le, hsub]
  omega

theorem Service.Counts.accept (hc : w.Counts max) (h : w.active < max) (s : Nat) (pc : StreamPc) :
    ((w.accept s).goTo s pc).Counts max := by
  obtain ⟨hcount, -⟩ := hc
  rw [UInt32.lt_iff_toNat_lt] at h
  have hmax := max.toNat_lt
  have hadd : (w.active + 1).toNat = w.active.toNat + 1 := by
    rw [UInt32.toNat_add]
    exact Nat.mod_eq_of_lt (by simp; omega)
  have hone : ((w.accept s).goTo s pc).unreleased = w.unreleased + 1 := by
    show (w.executions ++ [({ stream := s } : Execution)]).countP (!·.released) = _
    rw [List.countP_append]
    rfl
  refine ⟨?_, ?_⟩
  · rw [hone, ← hcount]
    exact hadd
  · rw [UInt32.le_iff_toNat_le]
    exact hadd ▸ h

theorem Service.Counts.thread {x' : Execution} {a : Action} {effect : Effect} (hc : w.Counts max)
    (hx : w.executions[k]? = some x) (hacted : Acted x a x' effect) :
    (w.apply k x' effect).Counts max := by
  have hset := Service.unreleased_set hx x'
  have hrel := hacted.released
  cases effect with
  | releaseSlot =>
    rw [if_pos rfl] at hrel
    rw [hrel.1, hrel.2] at hset
    exact hc.giveBack hset rfl
  | _ =>
    rw [if_neg (by decide)] at hrel
    rw [hrel] at hset
    exact hc.keep ⟨Nat.add_right_cancel hset, rfl⟩

/-- **The counter stays right**, whatever is thrown. -/
theorem Service.Counts.step (hi : Inv w) (hc : w.Counts max) (h : Service.step max w e = some w') :
    w'.Counts max := by
  obtain ⟨-, hstep⟩ := Service.steps h
  cases hstep with
  | read _ => exact hc.keep (Service.unreleased_readRequest _ _)
  | accept _ hcap => exact hc.accept hcap _ _
  | create _ => exact hc.keep ⟨Service.unreleased_modify (fun _ => rfl), rfl⟩
  | @giveBack s k text hpc =>
    obtain ⟨x, hx, -, hcreated⟩ := hi.created s k (by rw [hpc]; rfl)
    have hrel : x.released = false := by rw [(hi.sound k x hx).released, hcreated]; rfl
    have hset := Service.unreleased_set hx (x.giveSlotBack .gaveBack)
    rw [← Service.modify_executions hx (·.giveSlotBack .gaveBack), hrel] at hset
    exact hc.giveBack hset rfl
  | cancel _ _ _ => exact hc.keep (Service.unreleased_cancelExecution _ _)
  | thread hx hact => exact hc.thread hx (Execution.acted (hi.sound _ _ hx) hact)
  | _ => exact hc

theorem active_run (h : Service.Reaches max es w) : w.Counts max := by
  refine h.invariant_under Inv.run ⟨rfl, ?_⟩ fun _ _ _ hi hc hs => hc.step hi hs
  rw [UInt32.le_iff_toNat_le]
  exact Nat.zero_le _

/-! ## Every accepted start comes to its end -/

/-- No exception meets a running Process, and no request lacks its command. -/
def Service.Spares (w : Service) : Event → Prop
  | .thread k a => ∀ x, w.executions[k]? = some x → x.throwsRunning a = false
  | .read _ r => r ≠ .empty
  | _ => True

/-- The events lead from the start of the service to `w`, and each of them spares it. -/
abbrev Service.ReachesSpared (max : UInt32) (es : List Event) (w : Service) : Prop :=
  Lts.Run (fun a e b => a.Spares e ∧ Service.step max a e = some b) {} es w

theorem Service.ReachesSpared.reaches (h : Service.ReachesSpared max es w) :
    Service.Reaches max es w := by
  exact h.mono fun _ _ _ hs => hs.2

/-- Nobody is on the way to an abort. -/
def Service.AllSafe (w : Service) : Prop :=
  w.crashed = false
    ∧ ∀ (k : Nat) (x : Execution), w.executions[k]? = some x → x.Safe ∧ x.aborted = false

theorem Execution.Safe.requestCancellation (hsafe : x.Safe) : x.requestCancellation.Safe := by
  rw [requestCancellation_eq]
  exact hsafe.of_own rfl id

theorem Execution.Safe.cancelled (hsafe : x.Safe) :
    (x.withProcess fun p => { p with cancelled := true }).Safe := by
  intro hunw p hp
  obtain ⟨p₀, hp₀, rfl⟩ := Option.map_eq_some_iff.mp hp
  exact hsafe hunw p₀ hp₀

theorem aborted_requestCancellation : x.requestCancellation.aborted = x.aborted := by
  rw [requestCancellation_eq]

theorem Changes.safe {x' : Execution} (hs : Sound k x.pc x) (hx : w.executions[k]? = some x)
    (hsafe : x.Safe ∧ x.aborted = false) (hspares : w.Spares e) (h : Changes w k x e x') :
    x'.Safe ∧ x'.aborted = false := by
  cases h with
  | same _ => exact hsafe
  | act hact =>
    obtain ⟨hsafe', hno⟩ := hsafe.1.act hs (hspares x hx) hact
    refine ⟨hsafe', ?_⟩
    rw [(Execution.acted hs hact).aborted, hsafe.2]
    simpa using hno
  | read _ => exact ⟨hsafe.1.of_own rfl id, hsafe.2⟩
  | start _ => exact ⟨Execution.safe_of_not_unwinding rfl, hsafe.2⟩
  | giveBack _ => exact ⟨Execution.safe_of_not_unwinding rfl, hsafe.2⟩
  | cancel _ _ => exact ⟨hsafe.1.requestCancellation, aborted_requestCancellation.trans hsafe.2⟩
  | call _ _ _ =>
    exact ⟨hsafe.1.requestCancellation.cancelled, aborted_requestCancellation.trans hsafe.2⟩

theorem Service.crashed_cancelExecution (s : Nat) (x : Execution) :
    (w.cancelExecution s k x).crashed = w.crashed := by
  unfold Service.cancelExecution
  split
  · rfl
  · split <;> rfl

section

variable (hi : Inv w) (hall : w.AllSafe) (hspares : w.Spares e) (h : Service.step max w e = some w')
include hi hall hspares h

theorem Service.AllSafe.alive : w'.crashed = false := by
  obtain ⟨halive, hstep⟩ := Service.steps h
  cases hstep with
  | @read s r _ =>
    cases r with
    | cancellation =>
      simp only [Service.readRequest]
      split <;> exact halive
    | empty => exact absurd rfl hspares
    | _ => exact halive
  | cancel _ _ _ => exact (Service.crashed_cancelExecution _ _).trans halive
  | @thread k a x x' effect hx hact =>
    have hno := ((hall.2 k x hx).1.act (hi.sound k x hx) (hspares x hx) hact).2
    cases effect with
    | abort => exact absurd rfl hno
    | _ => exact halive
  | _ => exact halive

theorem Service.AllSafe.step : w'.AllSafe := by
  refine ⟨hall.alive hi hspares h, ?_⟩
  intro k x' hx'
  rcases hi.changes h hx' with ⟨x, hx, hch⟩ | ⟨-, s, -, rfl⟩
  · exact hch.safe (hi.sound k x hx) hx (hall.2 k x hx) hspares
  · exact ⟨Execution.safe_of_not_unwinding rfl, rfl⟩

end

theorem allSafe_run (h : Service.ReachesSpared max es w) : w.AllSafe := by
  refine h.invariant_under (fun hr => Inv.run (Service.ReachesSpared.reaches hr)) ?_ ?_
  · exact ⟨rfl, by simp⟩
  · exact fun _ _ _ hi hall hs => hall.step hi hs.1 hs.2

/-- An execution that has no thread yet is in the hands of its stream. -/
theorem Inv.creating (hi : Inv w) (hx : w.executions[k]? = some x) (hpc : x.pc = .created) :
    (w.streams x.stream).pc = .creating k
      ∨ ∃ text, (w.streams x.stream).pc = .givingBack k text := by
  have hold := (hi.owned k x hx).resolve_left (by rw [hpc]; decide)
  have hcur : (w.streams x.stream).execution ≠ some k := by
    intro hcur
    obtain ⟨y, hy, -, ht⟩ := hi.current _ k hcur
    obtain rfl := Option.some.inj (hx.symm.trans hy)
    rw [hpc] at ht
    exact absurd ht (by decide)
  unfold Stream.Holds at hold
  split at hold
  · rename_i j hj
    exact Or.inl (hold ▸ hj)
  · rename_i j text hj
    exact Or.inr ⟨text, hold ▸ hj⟩
  · exact hold.elim
  · exact hold.elim
  · exact absurd hold hcur

theorem Inv.reachesEnd (hi : Inv w) (hx : w.executions[k]? = some x) (halive : w.crashed = false)
    (hsafe : x.Safe) :
    ∃ es w' x', Service.Leads max w es w' ∧ w'.executions[k]? = some x' ∧ x'.pc.isOver = true := by
  have hthreaded : ∀ {w : Service} {x : Execution}, Inv w → w.executions[k]? = some x →
      w.crashed = false → x.Safe → x.pc.threaded = true →
      ∃ es w' x', Service.Leads max w es w' ∧ w'.executions[k]? = some x'
        ∧ x'.pc.isOver = true := by
    intro w x hi hx halive hsafe ht
    obtain ⟨es, w', x', hrun, -, hx', hover, -, -⟩ := hi.completes hx ht halive hsafe
    exact ⟨es, w', x', hrun, hx', hover⟩
  by_cases hpc : x.pc = .created
  · rcases hi.creating hx hpc with hst | ⟨text, hst⟩
    · -- its thread is created and runs
      have hstep : Service.step max w (.create x.stream none) = some
          ((w.modify k fun x => { x with pc := .setup }).setStream x.stream
            { execution := some k }) := by
        simp [Service.step, halive, hst]
      have hget : (w.modify k fun x => { x with pc := .setup }).executions[k]?
          = some { x with pc := .setup } := by
        rw [Service.getElem?_modify, hx]
        simp
      obtain ⟨es, w', x', hrun, hx', hover⟩ := hthreaded (x := { x with pc := .setup })
        (hi.step hstep) hget halive (Execution.safe_of_not_unwinding rfl) rfl
      exact ⟨_, w', x', .cons hstep hrun, hx', hover⟩
    · -- there is no thread, and the slot goes back
      refine ⟨_, _, x.giveSlotBack .gaveBack,
        .snoc .nil (e := .giveBack x.stream) (by simp only [Service.step, halive, hst]; rfl),
        ?_, rfl⟩
      show (w.modify k (·.giveSlotBack .gaveBack)).executions[k]? = _
      rw [Service.getElem?_modify, hx]
      simp
  · cases hov : x.pc.isOver with
    | true => exact ⟨[], w, x, .nil, hx, hov⟩
    | false =>
      refine hthreaded hi hx halive hsafe ?_
      cases hq : x.pc with
      | created => exact absurd hq hpc
      | gaveBack => rw [hq] at hov; exact absurd hov (by decide)
      | _ => rfl

/-! ## The property -/

/-- Admission control in the state `w` of a service. -/
structure Admission (max : UInt32) (w : Service) : Prop where
  /-- the counter is the number of accepted starts that have not been released -/
  active : w.active.toNat = w.executions.countP (·.releases == 0)
  cap : w.active ≤ max
  /-- a release does not find the counter at zero -/
  positive : ∀ x ∈ w.executions, x.releases = 0 → 0 < w.active
  once : ∀ x ∈ w.executions, x.releases ≤ 1
  /-- whoever is over has been released, and nobody is kept from getting there -/
  ended : ∀ x ∈ w.executions, x.pc.isOver = true ∨ x.aborted = true ∨ w.crashed = true →
    x.releases = 1
  ends : ∀ (k : Nat) (x : Execution), w.executions[k]? = some x →
    ∃ es w' x', Service.Leads max w es w' ∧ w'.executions[k]? = some x' ∧ x'.pc.isOver = true
  /-- the release comes before the write of the final response -/
  beforeFinal : ∀ x ∈ w.executions, x.responses.any Response.isFinal = true → x.releases = 1
  /-- a refusal changes nothing, and is on account of executions that have not answered -/
  refused : ∀ s w', max ≤ w.active → Service.step max w (.claimSlot s) = some w' →
    w'.active = w.active ∧ w'.executions = w.executions
      ∧ max.toNat ≤ w.executions.countP fun x => !x.responses.any Response.isFinal

theorem Sound.releases_eq_zero {q : Pc} (hs : Sound k q x) : (x.releases == 0) = !x.released := by
  rw [hs.released, hs.releases]
  cases q.released <;> rfl

theorem Sound.released_of_final {q : Pc} (hs : Sound k q x)
    (h : x.responses.any Response.isFinal = true) : x.releases = 1 := by
  have hans : q.answered = true := by
    cases hq : q.answered with
    | true => rfl
    | false =>
      obtain ⟨ps, hps, hresp⟩ := hs.responses
      rw [hq] at hresp
      rw [hresp] at h
      obtain ⟨r, hr, hfinal⟩ := List.any_eq_true.mp h
      rw [hps r hr] at hfinal
      exact absurd hfinal (by decide)
  rw [hs.releases, Pc.released_of_answered hans]
  rfl

theorem Inv.unreleased (hi : Inv w) : w.unreleased = w.executions.countP (·.releases == 0) := by
  refine List.countP_congr (fun x hx => ?_)
  obtain ⟨k, hk⟩ := List.mem_iff_getElem?.mp hx
  rw [(hi.sound k x hk).releases_eq_zero]

/-- **Admission control holds in every state of a run that is spared.** -/
theorem admission_of_spared (h : Service.ReachesSpared max es w) : Admission max w := by
  have hi : Inv w := Inv.run h.reaches
  obtain ⟨hcount, hcap⟩ := active_run h.reaches
  obtain ⟨halive, hall⟩ := allSafe_run h
  have hsound : ∀ x ∈ w.executions, ∃ k, w.executions[k]? = some x ∧ Sound k x.pc x := by
    intro x hx
    obtain ⟨k, hk⟩ := List.mem_iff_getElem?.mp hx
    exact ⟨k, hk, hi.sound k x hk⟩
  refine ⟨hcount.trans hi.unreleased, hcap, ?_, ?_, ?_, ?_, ?_, ?_⟩
  · intro x hx hzero
    rw [UInt32.lt_iff_toNat_lt, hcount, hi.unreleased]
    exact List.countP_pos_iff.mpr ⟨x, hx, by simp [hzero]⟩
  · intro x hx
    obtain ⟨k, -, hs⟩ := hsound x hx
    rw [hs.releases]
    split <;> decide
  · intro x hx hend
    obtain ⟨k, hk, hs⟩ := hsound x hx
    rcases hend with hover | habort | hcrash
    · rw [hs.releases, Pc.released_of_over hover]
      rfl
    · exact nomatch (hall k x hk).2.symm.trans habort
    · exact nomatch halive.symm.trans hcrash
  · exact fun k x hx => hi.reachesEnd hx halive (hall k x hx).1
  · intro x hx hfinal
    obtain ⟨k, -, hs⟩ := hsound x hx
    exact hs.released_of_final hfinal
  · intro s w' hfull hstep
    obtain ⟨-, hstep⟩ := Service.steps hstep
    cases hstep with
    | accept _ hroom => exact absurd hfull (UInt32.not_le.mpr hroom)
    | refuse _ _ =>
      refine ⟨rfl, rfl, ?_⟩
      rw [UInt32.le_iff_toNat_le, hcount, hi.unreleased] at hfull
      refine hfull.trans (List.countP_mono_left (fun x hx hzero => ?_))
      obtain ⟨k, -, hs⟩ := hsound x hx
      rw [Bool.not_eq_true', ← Bool.not_eq_true]
      intro hfinal
      rw [hs.released_of_final hfinal] at hzero
      exact absurd hzero (by decide)

/-- The thread of a first start could not be created, and its slot is taken by a second one. -/
theorem admission_thread_fails :
    ∃ w, Service.ReachesSpared 1 [.read 0 .start, .claimSlot 0, .create 0 (some "no more threads"),
        .giveBack 0, .read 1 .start, .claimSlot 1] w ∧ w.active = 1 ∧ Admission 1 w := by
  obtain ⟨w, hrun, hactive⟩ : ∃ w, Service.ReachesSpared 1 [.read 0 .start, .claimSlot 0,
      .create 0 (some "no more threads"), .giveBack 0, .read 1 .start, .claimSlot 1] w
      ∧ w.active = 1 :=
    ⟨_, .snoc (.snoc (.snoc (.snoc (.snoc (.snoc .nil
      ⟨nofun, rfl⟩) ⟨trivial, rfl⟩) ⟨trivial, rfl⟩) ⟨trivial, rfl⟩) ⟨nofun, rfl⟩)
      ⟨trivial, rfl⟩, rfl⟩
  exact ⟨w, hrun, hactive, admission_of_spared hrun⟩

/-- The service dies of an execution whose start is never released. -/
theorem not_admission_startThrows :
    ∃ w x, Service.Reaches 1 [.read 0 .start, .claimSlot 0, .create 0 none, .thread 0 (.setup {}),
        .thread 0 .publish, .thread 0 (.startProgress true), .thread 0 (.enterRun .startThrows),
        .thread 0 .stopProgress, .thread 0 .unpublish, .thread 0 .destroy] w
      ∧ w.executions[0]? = some x ∧ x.aborted = true ∧ w.crashed = true ∧ x.releases = 0
      ∧ ¬Admission 1 w := by
  refine ⟨_, _, Lts.Run.of_foldlM rfl, rfl, rfl, rfl, rfl, ?_⟩
  intro h
  exact absurd (h.ended _ (List.mem_singleton.mpr rfl) (Or.inr (Or.inl rfl))) (by decide)

end Sortie.Engine.ServiceImpl
