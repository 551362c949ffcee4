import Sortie.Engine.Messages
import Sortie.Proof.Cancellation
import Sortie.Proof.OptionsRead

/-!
# No message takes the service down

Two messages do: one without a command, and a start whose options have a tunnel. In a
run without them, and without a start of which Envoy's validation throws what the
service does not catch, every message is dealt with. The stream's thread either goes on to the
next message, having acted on this one, or ends the stream with a status; and an
execution whose options are refused says so in its response.

The layer below does not know what the messages carry. `Served.steps` says once how the
two move together, and a run without harm is a run of the service (`Good.reaches`), so
everything that holds there is at hand.
-/

namespace Sortie.Engine.ServiceImpl

open Api Checks

variable {c : Config} {w w' : Served} {v : Service} {s k : Nat} {e : Event} {m : Message}
  {r : StartRequest} {q : Request} {x x' : Execution} {max : UInt32}
variable {v' : Service} {a : Action} {effect : Effect}

/-! ## From a start to the calls it leads to -/

theorem tunnelOptions_expandBackendName {name : String} {o o' : CommandLineOptions}
    (h : expandBackendName name o = .ok o') : o'.tunnelOptions = o.tunnelOptions := by
  obtain ⟨sinks, -, h⟩ := bind_ok_iff.mp h
  cases h
  rfl

theorem Config.tunnelOptions_requested (o : CommandLineOptions) :
    (c.requested o).tunnelOptions = o.tunnelOptions := by
  unfold Config.requested
  split <;> rfl

/-- A start without a tunnel, and of which Envoy's validation, given the message that the options
make as the service reads them, throws nothing but a `ProtoValidationException`. -/
structure Config.Plain (c : Config) (r : StartRequest) : Prop where
  tunnel : r.options.tunnelOptions = none
  validates : ∀ o message text, expandBackendName c.backendName (c.requested r.options) = .ok o →
    (OptionsImpl.Members.reading o).toCommandLineOptions = .ok message →
    c.outside.validate message ≠ .error (.other text)

/-- A plain start comes to the calls, and only the last of them can throw. -/
theorem Config.Plain.setup (h : c.Plain r) (process : Call) :
    ∃ calls, c.setup r process = some calls
      ∧ (prepare calls = .unwind → calls.process = .threw) := by
  have hunwind : ∀ backendName options, backendName ≠ Call.threw → options ≠ Call.threw →
      prepare { backendName, options, progressInterval := r.progressInterval, process } = .unwind →
        process = .threw := by
    intro backendName options hb ho hp
    revert hp
    fun_cases prepare _ <;> intro hp <;> cases hp
    · exact absurd ‹_› hb
    · exact absurd ‹_› ho
    · assumption
  unfold Config.setup
  cases hname : expandBackendName c.backendName (c.requested r.options) with
  | error text => exact ⟨_, rfl, hunwind _ _ (by simp) (by simp)⟩
  | ok o =>
    have ht : o.tunnelOptions = none := by
      rw [tunnelOptions_expandBackendName hname, Config.tunnelOptions_requested, h.tunnel]
    simp only
    cases hb : OptionsImpl.construct c.outside o with
    | ok members => exact ⟨_, rfl, hunwind _ _ (by simp) (by simp)⟩
    | error e =>
      rcases OptionsImpl.construct_ends ht e hb with ⟨text, rfl⟩ | ⟨text, message, -, hm, hval⟩
      · exact ⟨_, rfl, hunwind _ _ (by simp) (by simp)⟩
      · exact absurd hval (h.validates o message text hname hm)

/-- The last of the calls is the one that was made, and they carry the interval that was asked
for. -/
theorem Config.setup_eq {process : Call} {calls : Setup} (h : c.setup r process = some calls) :
    calls.process = process ∧ calls.progressInterval = r.progressInterval := by
  revert h
  fun_cases Config.setup c r process <;> intro h <;> cases h <;> exact ⟨rfl, rfl⟩

/-! ## What a step can be -/

/-- The ways the service and its messages go on, and when. -/
inductive Served.Steps (c : Config) (w : Served) : MessageEvent → Served → Prop where
  | read {s : Nat} {m : Message} {v : Service} :
      w.service.step c.maxConcurrentExecutions (.read s m.request) = some v →
      Steps c w (.read s m) { w with
        service := v
        last := Function.update w.last s (some m)
        down := match m with
          | .empty => some .panic
          | _ => w.down }
  | endOfStream {s : Nat} {v : Service} :
      w.service.step c.maxConcurrentExecutions (.read s .endOfStream) = some v →
      Steps c w (.endOfStream s) { w with service := v, last := Function.update w.last s none }
  | claimSlot {s : Nat} {r : StartRequest} {v : Service} : w.last s = some (.start r) →
      w.service.step c.maxConcurrentExecutions (.claimSlot s) = some v →
      Steps c w (.claimSlot s) { w with
        service := v
        starts := if c.maxConcurrentExecutions ≤ w.service.active then w.starts
          else w.starts ++ [r] }
  | setup {k : Nat} {r : StartRequest} {process : Call} {calls : Setup} {v : Service} :
      w.starts[k]? = some r → c.setup r process = some calls →
      w.service.step c.maxConcurrentExecutions (.thread k (.setup calls)) = some v →
      Steps c w (.setup k process) { w with
        service := v, setups := Function.update w.setups k (some calls) }
  | emptyOptional {k : Nat} {r : StartRequest} {process : Call} : w.starts[k]? = some r →
      c.setup r process = none →
      Steps c w (.setup k process) { w with
        service := { w.service with crashed := true }, down := some .emptyOptional }
  | other {e : Event} {v : Service} : e.carriesMessage = false →
      w.service.step c.maxConcurrentExecutions e = some v →
      Steps c w (.other e) { w with service := v }

/-- **The service and its messages do one of these.** -/
theorem Served.steps {e : MessageEvent} (h : w.step c e = some w') : w.Steps c e w' := by
  have hadvance : ∀ {e : Event} {f : Served → Option Served}, (w.advance c e).bind f = some w' →
      ∃ v, w.service.step c.maxConcurrentExecutions e = some v
        ∧ f { w with service := v } = some w' := by
    intro e f h
    obtain ⟨u, hu, h⟩ := Option.bind_eq_some_iff.mp h
    obtain ⟨v, hv, rfl⟩ := Option.map_eq_some_iff.mp hu
    exact ⟨v, hv, h⟩
  revert h
  fun_cases Served.step c w e <;> intro h
  case case1 =>
    obtain ⟨v, hv, ⟨⟩⟩ := hadvance h
    exact .read hv
  case case2 =>
    obtain ⟨v, hv, ⟨⟩⟩ := hadvance h
    exact .endOfStream hv
  case case3 hlast =>
    obtain ⟨v, hv, ⟨⟩⟩ := hadvance h
    exact .claimSlot hlast hv
  case case5 =>
    obtain ⟨r, hr, h⟩ := Option.bind_eq_some_iff.mp h
    split at h
    · rename_i calls hcalls
      obtain ⟨v, hv, ⟨⟩⟩ := hadvance h
      exact .setup hr hcalls hv
    · rename_i hnone
      split at h <;> cases h
      exact .emptyOptional hr hnone
  case case7 hmsg =>
    obtain ⟨v, hv, rfl⟩ := Option.map_eq_some_iff.mp h
    exact .other (by simpa using hmsg) hv
  all_goals cases h

/-! ## One stream -/

/-- The stream whose thread an event belongs to. -/
def Event.stream : Event → Option Nat
  | .read s _ | .checkDone s | .waitPrevious s | .claimSlot s | .create s _ | .giveBack s
  | .cancel s | .finish s => some s
  | .thread .. => none

theorem Service.streams_readRequest (r : Request) {t : Nat} (h : t ≠ s) :
    (v.readRequest s r).streams t = v.streams t := by
  cases r with
  | cancellation =>
    simp only [Service.readRequest]
    split
    · rfl
    · exact Function.update_of_ne h _ _
  | empty => rfl
  | _ => exact Function.update_of_ne h _ _

/-- A step of one thread leaves the other streams alone. -/
theorem Service.streams_step (h : v.step max e = some v') {t : Nat} (ht : e.stream ≠ some t) :
    v'.streams t = v.streams t := by
  obtain ⟨-, hstep⟩ := Service.steps h
  have hne : ∀ s, e.stream = some s → t ≠ s := by
    rintro s hs rfl
    exact ht hs
  cases hstep with
  | read _ => exact Service.streams_readRequest _ (hne _ rfl)
  | cancel _ _ _ =>
    rw [Service.streams_cancelExecution]
    exact Function.update_of_ne (hne _ rfl) _ _
  | @thread k a x x' effect _ _ => cases effect <;> rfl
  | _ => exact Function.update_of_ne (hne _ rfl) _ _

/-- What the thread of stream `s` has made of the message it read last. -/
inductive Served.Handled (w : Served) (s : Nat) : Message → Prop where
  /-- it ends the stream, with this status -/
  | ends {m : Message} {status : Status} :
      ((w.service.streams s).pc = .finishing status ∨ (w.service.streams s).pc = .returned status) →
      Handled w s m
  /-- it has not come to a slot yet -/
  | waiting {r : StartRequest} :
      ((w.service.streams s).pc = .checkDone ∨ (w.service.streams s).pc = .waitPrevious
        ∨ (w.service.streams s).pc = .claimSlot) → Handled w s (.start r)
  /-- it starts execution `k` for it -/
  | creating {r : StartRequest} {k : Nat} : (w.service.streams s).pc.creates = some k →
      w.starts[k]? = some r → Handled w s (.start r)
  /-- it started execution `k` for it, and reads on -/
  | started {r : StartRequest} {k : Nat} :
      w.service.streams s = { pc := .reading, execution := some k } →
      w.starts[k]? = some r → Handled w s (.start r)
  | cancelling : (w.service.streams s).pc = .cancelling → Handled w s .cancellation
  /-- it acted on the cancellation, and reads on -/
  | cancelled : (w.service.streams s).pc = .reading → Handled w s .cancellation

theorem getElem?_of_isPrefix {l l' : List StartRequest} (hl : l <+: l') (hk : l[k]? = some r) :
    l'[k]? = some r := by
  obtain ⟨rest, rfl⟩ := hl
  rwa [List.getElem?_append_left (List.getElem?_eq_some_iff.mp hk).1]

section

variable (h : w.Handled s m)
include h

/-- Another thread's step changes nothing about it. -/
theorem Served.Handled.keep (hs : w'.service.streams s = w.service.streams s)
    (hstarts : w.starts <+: w'.starts) : w'.Handled s m := by
  cases h with
  | ends h => exact .ends (hs ▸ h)
  | waiting h => exact .waiting (hs ▸ h)
  | creating h hk => exact .creating (hs ▸ h) (getElem?_of_isPrefix hstarts hk)
  | started h hk => exact .started (hs ▸ h) (getElem?_of_isPrefix hstarts hk)
  | cancelling h => exact .cancelling (hs ▸ h)
  | cancelled h => exact .cancelled (hs ▸ h)

/-- On the way to a slot, the message is a start. -/
theorem Served.Handled.start
    (hpc : (w.service.streams s).pc = .checkDone ∨ (w.service.streams s).pc = .waitPrevious
      ∨ (w.service.streams s).pc = .claimSlot) :
    ∃ r, m = .start r := by
  cases h with
  | waiting _ | creating _ _ | started _ _ => exact ⟨_, rfl⟩
  | ends h =>
    rcases hpc with hpc | hpc | hpc <;> rw [hpc] at h <;> rcases h with h | h <;>
      exact absurd h (by simp)
  | cancelling h | cancelled h =>
    rw [h] at hpc
    exact absurd hpc (by simp)

/-- An execution that is being created is created for the start that was read. -/
theorem Served.Handled.creates (hpc : (w.service.streams s).pc.creates = some k) :
    ∃ r, m = .start r ∧ w.starts[k]? = some r := by
  cases h with
  | creating h hr =>
    obtain rfl := Option.some.inj (h.symm.trans hpc)
    exact ⟨_, rfl, hr⟩
  | waiting h =>
    rcases h with h | h | h <;> rw [h] at hpc <;> exact absurd hpc (by simp [StreamPc.creates])
  | ends h =>
    rcases h with h | h <;> rw [h] at hpc <;> exact absurd hpc (by simp [StreamPc.creates])
  | started h _ | cancelling h | cancelled h =>
    rw [h] at hpc
    exact absurd hpc (by simp [StreamPc.creates])

theorem Served.Handled.cancellation (hpc : (w.service.streams s).pc = .cancelling) :
    m = .cancellation := by
  cases h with
  | cancelling _ | cancelled _ => rfl
  | waiting h | ends h => rw [hpc] at h; exact absurd h (by simp)
  | creating h _ => rw [hpc] at h; exact absurd h (by simp [StreamPc.creates])
  | started h _ => rw [h] at hpc; exact absurd hpc (by simp)

/-- A stream's thread that moves on without a message of its own deals with the one it has. -/
theorem Served.Handled.other (hmsg : e.carriesMessage = false)
    (hstep : w.service.step max e = some v) : ({ w with service := v } : Served).Handled s m := by
  by_cases hs : e.stream = some s
  · obtain ⟨-, hsteps⟩ := Service.steps hstep
    cases hsteps with
    | read _ | refuse _ _ | accept _ _ => exact absurd hmsg (by simp [Event.carriesMessage])
    | thread _ _ => exact absurd hs (by simp [Event.stream])
    | @checkDone t k x hpc hk hx =>
      cases hs
      obtain ⟨r, rfl⟩ := h.start (Or.inl hpc)
      cases hdone : x.done with
      | true => exact .waiting (by simp)
      | false => exact .ends (Or.inl (by simp; rfl))
    | @waitPrevious t k hpc hk hover =>
      cases hs
      obtain ⟨r, rfl⟩ := h.start (Or.inr (Or.inl hpc))
      exact .waiting (by simp)
    | @create t k hpc =>
      cases hs
      obtain ⟨r, rfl, hr⟩ := h.creates (by rw [hpc]; rfl)
      exact .started (by simp) hr
    | @createFails t k text hpc =>
      cases hs
      obtain ⟨r, rfl, hr⟩ := h.creates (by rw [hpc]; rfl)
      exact .creating (by simp [StreamPc.creates]) hr
    | @giveBack t k text hpc =>
      cases hs
      exact .ends (Or.inr (by simp; rfl))
    | @cancel t k x hpc hk hx =>
      obtain rfl := Option.some.inj hs
      obtain rfl := h.cancellation hpc
      refine .cancelled ?_
      rw [Service.streams_cancelExecution]
      simp
    | @finish t status hpc hover =>
      cases hs
      exact .ends (Or.inr (by simp; rfl))
  · exact h.keep (Service.streams_step hstep hs) (List.prefix_refl _)

end

/-! ## One execution -/

/-- The thread has not made the calls on the way to a Process. -/
def Pc.beforeSetup : Pc → Bool
  | .created | .gaveBack | .setup => true
  | _ => false

/-- The thread is on the way of an answer, and past everything that can change it. -/
def Pc.answering : Pc → Bool
  | .release | .markDone .answer | .write | .writing | .destroy .answer | .exit .answer
  | .ended .answer => true
  | _ => false

/-- What the calls on the way to a Process say about the rest. -/
def Execution.Follows (x : Execution) (calls : Setup) : Prop :=
  x.pc.beforeSetup = false
    ∧ ∀ error, prepare calls = .answer error → x.error = some error ∧ x.pc.answering = true

section

variable (hs : Sound k x.pc x) (h : x.act k a = some (x', effect))
include hs h

/-- Only the setup leaves the places before it. -/
theorem Sound.setup_of_beforeSetup (hpc : x.pc.beforeSetup = true) : ∃ calls, a = .setup calls := by
  have hprogress : x.pc.inProgress = false := by
    cases hq : x.pc <;> rw [hq] at hpc <;> first | rfl | exact absurd hpc (by simp [Pc.beforeSetup])
  have hidle := hs.progress hprogress
  cases Execution.acts h with
  | setupAnswers _ _ | setupThrows _ _ | setup _ _ => exact ⟨_, rfl⟩
  | wake hp | snapshot hp | snapshotNothing hp | snapshotThrows hp | endProgressWrite hp =>
    rw [hp] at hidle
    exact absurd hidle (by simp)
  | _ => simp_all [Pc.beforeSetup]

/-- No action leads back before the setup, or leaves its thread there. -/
theorem Acts.beforeSetup :
    x'.pc.beforeSetup = false := by
  have hprogress : x.progress ≠ .absent → x.progress ≠ .finished → x.pc.beforeSetup = false := by
    intro h1 h2
    have := hs.inProgress h1 h2
    cases hq : x.pc <;> rw [hq] at this <;>
      first | rfl | exact absurd this (by simp [Pc.inProgress])
  cases Execution.acts h with
  | wake hp | snapshot hp | snapshotNothing hp | snapshotThrows hp | endProgressWrite hp =>
    exact hprogress (by simp [hp]) (by simp [hp])
  | abort hq _ _ => simp [hq, Pc.beforeSetup]
  | @leaveRun ok _ => cases ok <;> rfl
  | @stopNoProgress t _ _ | @joinProgress t _ _ => cases t <;> rfl
  | _ => rfl

/-- An answer that is on its way stays what it is. -/
theorem Sound.answering_act (hpc : x.pc.answering = true) :
    x'.pc.answering = true ∧ x'.error = x.error := by
  cases Execution.acts h with
  | @exit t hq hrel =>
    rw [hq] at hpc hs
    cases t with
    | answer => exact nomatch hs.released.symm.trans hrel
    | unwind => exact absurd hpc (by decide)
  | @destroyNothing t hq _ | @destroy t _ hq _ _ | @exitReleased t hq _ =>
    rw [hq] at hpc
    cases t with
    | answer => exact ⟨rfl, rfl⟩
    | unwind => exact absurd hpc (by decide)
  | wake _ | snapshot _ | snapshotNothing _ | snapshotThrows _ | endProgressWrite _ | abort _ _ _ =>
    exact ⟨hpc, rfl⟩
  | releasedBefore _ _ | release _ _ | markDone _ | beginWrite _ | endWrite _ => exact ⟨rfl, rfl⟩
  | _ => simp_all [Pc.answering]

end

/-- A step that is not the setup of the execution leaves it before the setup, or following it. -/
theorem Changes.follows {w : Service} (hs : Sound k x.pc x) (h : Changes w k x e x')
    (he : ∀ calls, e ≠ .thread k (.setup calls)) :
    (x.pc.beforeSetup = true → x'.pc.beforeSetup = true)
      ∧ ∀ calls, x.Follows calls → x'.Follows calls := by
  have hsame : ∀ y : Execution, y.pc = x.pc ∧ y.error = x.error →
      (x.pc.beforeSetup = true → y.pc.beforeSetup = true)
        ∧ ∀ calls, x.Follows calls → y.Follows calls := by
    rintro y ⟨hpc, herr⟩
    unfold Execution.Follows
    rw [hpc, herr]
    exact ⟨id, fun _ => id⟩
  cases h with
  | same _ => exact hsame _ ⟨rfl, rfl⟩
  | read _ => exact hsame _ ⟨rfl, rfl⟩
  | cancel _ _ | call _ _ _ =>
    rw [requestCancellation_eq]
    exact hsame _ ⟨rfl, rfl⟩
  | start hpc | giveBack hpc =>
    refine ⟨fun _ => rfl, fun calls hf => ?_⟩
    exact absurd hf.1 (by rw [hpc]; simp [Pc.beforeSetup])
  | @act a _ effect hact =>
    constructor
    · intro hpc
      obtain ⟨calls, rfl⟩ := hs.setup_of_beforeSetup hact hpc
      exact absurd rfl (he calls)
    · rintro calls ⟨hpc, hanswer⟩
      refine ⟨?_, fun error herror => ?_⟩
      · exact Acts.beforeSetup hs hact
      · obtain ⟨herr, hans⟩ := hanswer error herror
        obtain ⟨hans', herr'⟩ := hs.answering_act hact hans
        exact ⟨herr'.trans herr, hans'⟩

/-! ## Every step without harm -/

/-- The message carries a command, and a start is a plain one. -/
def MessageEvent.Harmless (c : Config) : MessageEvent → Prop
  | .read _ (.start r) => c.Plain r
  | .read _ .empty => False
  | _ => True

/-- Execution `k` follows the calls it made for its start, or has made none. -/
def Served.Tracked (c : Config) (w : Served) (k : Nat) (x : Execution) : Prop :=
  match w.setups k with
  | none => x.pc.beforeSetup = true
  | some calls => x.Follows calls
    ∧ ∃ r, w.starts[k]? = some r ∧ c.setup r calls.process = some calls

theorem Served.Tracked.changes (h : w.Tracked c k x) (hs : Sound k x.pc x)
    (hch : Changes v k x e x') (he : ∀ calls, e ≠ .thread k (.setup calls))
    (hsetups : w'.setups k = w.setups k) (hstarts : w.starts <+: w'.starts) :
    w'.Tracked c k x' := by
  obtain ⟨hbefore, hfollows⟩ := hch.follows hs he
  unfold Served.Tracked at h ⊢
  rw [hsetups]
  cases hk : w.setups k <;> rw [hk] at h
  case none => exact hbefore h
  case some calls =>
    obtain ⟨hf, r, hr, hcalls⟩ := h
    exact ⟨hfollows calls hf, r, getElem?_of_isPrefix hstarts hr, hcalls⟩

/-- The executions, next to the starts they were accepted for and the calls they made. -/
structure Served.Tracks (c : Config) (w : Served) : Prop where
  length : w.starts.length = w.service.executions.length
  tracked : ∀ (k : Nat) (x : Execution), w.service.executions[k]? = some x → w.Tracked c k x
  fresh : ∀ k, w.service.executions.length ≤ k → w.setups k = none

section

variable (hi : Inv v) (h : v.step max e = some v') (he : ∀ s, e ≠ .claimSlot s)
include hi h he

/-- Executions come with a slot. -/
theorem Inv.changes_old (hx : v'.executions[k]? = some x) :
    ∃ y, v.executions[k]? = some y ∧ Changes v k y e x := by
  rcases hi.changes h hx with hch | ⟨-, s, hs, -⟩
  · exact hch
  · exact absurd hs (he s)

theorem Inv.length_step :
    v'.executions.length = v.executions.length := by
  refine Nat.le_antisymm ?_ (Service.step_length h)
  by_contra hlt
  have hk : v.executions.length < v'.executions.length := by omega
  obtain ⟨x, hx, -⟩ := hi.changes_old h he (List.getElem?_eq_getElem hk)
  exact absurd (List.getElem?_eq_some_iff.mp hx).1 (by omega)

end

/-- A step that makes no calls and takes no slot keeps track of the executions. -/
theorem Served.Tracks.keep (ht : w.Tracks c) (hi : Inv w.service)
    (h : w.service.step max e = some v) (hslot : ∀ s, e ≠ .claimSlot s)
    (hsetup : ∀ k calls, e ≠ .thread k (.setup calls)) (last : Nat → Option Message)
    (down : Option Down) : ({ w with service := v, last, down } : Served).Tracks c := by
  have hlen := hi.length_step h hslot
  refine ⟨ht.length.trans hlen.symm, fun k x' hx' => ?_, fun k hk => ht.fresh k (hlen ▸ hk)⟩
  obtain ⟨x, hx, hch⟩ := hi.changes_old h hslot hx'
  exact (ht.tracked k x hx).changes (hi.sound k x hx) hch (hsetup k) rfl (List.prefix_refl _)

/-- The starts there are once a slot was asked for. -/
def Served.accepted (c : Config) (w : Served) (r : StartRequest) : List StartRequest :=
  if c.maxConcurrentExecutions ≤ w.service.active then w.starts else w.starts ++ [r]

theorem Served.prefix_accepted : w.starts <+: w.accepted c r := by
  unfold Served.accepted
  split
  · exact List.prefix_refl _
  · exact List.prefix_append _ _

/-- A slot is taken for the start that was read, or refused. -/
theorem Served.Tracks.claimSlot (ht : w.Tracks c) (hi : Inv w.service)
    (h : w.service.step c.maxConcurrentExecutions (.claimSlot s) = some v) (r : StartRequest) :
    ({ w with service := v, starts := w.accepted c r } : Served).Tracks c := by
  have hnew : v.executions = if c.maxConcurrentExecutions ≤ w.service.active
      then w.service.executions else w.service.executions ++ [{ stream := s }] := by
    obtain ⟨-, hstep⟩ := Service.steps h
    cases hstep with
    | refuse _ hcap => rw [if_pos hcap]; rfl
    | accept _ hcap => rw [if_neg (UInt32.not_le.mpr hcap)]; rfl
  have hlen := ht.length
  refine ⟨?_, ?_, ?_⟩
  · simp only [hnew, Served.accepted]
    split
    · exact hlen
    · simp [hlen]
  · intro k x' hx'
    rcases hi.changes h hx' with ⟨x, hx, hch⟩ | ⟨hk, t, -, rfl⟩
    · exact (ht.tracked k x hx).changes (hi.sound k x hx) hch (fun _ => by simp) rfl
        Served.prefix_accepted
    · unfold Served.Tracked
      rw [ht.fresh k (by omega)]
      rfl
  · intro k hk
    refine ht.fresh k (Nat.le_trans ?_ hk)
    exact Service.step_length h

/-- The calls on the way to a Process are made, and the execution follows them. -/
theorem Served.Tracks.setup (ht : w.Tracks c) (hi : Inv w.service) {calls : Setup} {process : Call}
    (hr : w.starts[k]? = some r) (hcalls : c.setup r process = some calls)
    (h : w.service.step max (.thread k (.setup calls)) = some v) :
    Served.Tracks c
      { w with service := v, setups := Function.update w.setups k (some calls) } := by
  have hlen := hi.length_step h (fun _ => by simp)
  have hk : k < w.service.executions.length := by
    rw [← ht.length]
    exact (List.getElem?_eq_some_iff.mp hr).1
  refine ⟨ht.length.trans hlen.symm, ?_, ?_⟩
  · intro j x' hx'
    obtain ⟨x, hx, hch⟩ := hi.changes_old h (fun _ => by simp) hx'
    by_cases hjk : j = k
    · subst hjk
      unfold Served.Tracked
      simp only [Function.update_self]
      refine ⟨?_, r, hr, by rw [(Config.setup_eq hcalls).1]; exact hcalls⟩
      cases hch with
      | same hsub => exact absurd (rfl : some j = some j) hsub
      | act hact =>
        refine ⟨Acts.beforeSetup (hi.sound j x hx) hact, fun error herror => ?_⟩
        cases Execution.acts hact with
        | setupAnswers _ hprep =>
          obtain rfl := Prepared.answer.inj (hprep.symm.trans herror)
          exact ⟨rfl, rfl⟩
        | setupThrows _ hprep | setup _ hprep => exact nomatch hprep.symm.trans herror
    · refine (ht.tracked j x hx).changes (hi.sound j x hx) hch ?_ (Function.update_of_ne hjk ..)
        (List.prefix_refl _)
      simpa using fun h0 => absurd h0.symm hjk
  · intro j hj
    rw [hlen] at hj
    simp only [Function.update_of_ne (show j ≠ k by omega)]
    exact ht.fresh j hj

theorem Served.Tracks.init : Served.Tracks c {} :=
  ⟨rfl, fun _ _ h => absurd h (by simp), fun _ _ => rfl⟩

/-- What holds in every run without harm. -/
structure Served.Unharmed (c : Config) (w : Served) : Prop where
  reaches : ∃ es, Service.Reaches c.maxConcurrentExecutions es w.service
  up : w.down = none
  tracks : w.Tracks c
  lastPlain : ∀ s r, w.last s = some (.start r) → c.Plain r
  plain : ∀ r ∈ w.starts, c.Plain r
  handled : ∀ s m, w.last s = some m → w.Handled s m

theorem Served.Unharmed.inv (hu : w.Unharmed c) : Inv w.service := by
  obtain ⟨es, hes⟩ := hu.reaches
  exact Inv.run hes

theorem Served.Unharmed.reaches_step (hu : w.Unharmed c)
    (h : w.service.step c.maxConcurrentExecutions e = some v) :
    ∃ es, Service.Reaches c.maxConcurrentExecutions es v := by
  obtain ⟨es, hes⟩ := hu.reaches
  exact ⟨es ++ [e], hes.snoc h⟩

/-- A stream's thread reads a message, or the end of its stream. -/
theorem Served.Unharmed.receive (hu : w.Unharmed c) (last : Option Message)
    (h : w.service.step c.maxConcurrentExecutions (.read s q) = some v)
    (hplain : ∀ r, last = some (.start r) → c.Plain r)
    (hhandled : ∀ m, last = some m → ({ w with service := v } : Served).Handled s m) :
    ({ w with service := v, last := Function.update w.last s last } : Served).Unharmed c := by
  refine ⟨hu.reaches_step h, hu.up,
    hu.tracks.keep hu.inv h (fun _ => by simp) (fun _ _ => by simp) _ _, ?_, hu.plain, ?_⟩
  · intro t r hr
    by_cases hts : t = s
    · exact hplain r (by simpa [hts] using hr)
    · exact hu.lastPlain t r (by simpa [Function.update_of_ne hts] using hr)
  · intro t m hm
    by_cases hts : t = s
    · subst hts
      exact (hhandled m (by simpa using hm)).keep rfl (List.prefix_refl _)
    · refine (hu.handled t m (by simpa [Function.update_of_ne hts] using hm)).keep ?_
        (List.prefix_refl _)
      exact Service.streams_step h (by simpa [Event.stream] using Ne.symm hts)

theorem Served.Handled.read (hm : (MessageEvent.read s m).Harmless c)
    (h : w.service.step max (.read s m.request) = some v) :
    ({ w with service := v } : Served).Handled s m := by
  obtain ⟨-, hstep⟩ := Service.steps h
  cases hstep with
  | read hpc =>
    cases m with
    | start r =>
      refine .waiting ?_
      simp only [Message.request, Service.readRequest, Service.streams_goTo]
      split
      · exact Or.inr (Or.inr rfl)
      · exact Or.inl rfl
    | cancellation =>
      simp only [Message.request, Service.readRequest]
      split
      · exact .cancelled hpc
      · exact .cancelling (by simp)
    | update => exact .ends (Or.inl (by simp [Message.request, Service.readRequest]; rfl))
    | empty => exact hm.elim

/-- A slot is taken for a start, or refused. -/
theorem Served.Unharmed.claimSlot (hu : w.Unharmed c) (hlast : w.last s = some (.start r))
    (h : w.service.step c.maxConcurrentExecutions (.claimSlot s) = some v) :
    ({ w with service := v, starts := w.accepted c r } : Served).Unharmed c := by
  refine ⟨hu.reaches_step h, hu.up, hu.tracks.claimSlot hu.inv h r, hu.lastPlain, ?_, ?_⟩
  · intro r' hr'
    unfold Served.accepted at hr'
    split at hr'
    · exact hu.plain r' hr'
    · rcases List.mem_append.mp hr' with hr' | hr'
      · exact hu.plain r' hr'
      · rw [List.mem_singleton.mp hr']
        exact hu.lastPlain s r hlast
  · intro t m hm
    by_cases hts : t = s
    · subst hts
      obtain rfl : Message.start r = m := by simpa using hlast.symm.trans hm
      obtain ⟨-, hstep⟩ := Service.steps h
      cases hstep with
      | refuse _ _ => exact .ends (Or.inr (by simp; rfl))
      | accept _ hcap =>
        refine .creating (k := w.service.executions.length)
          (by simp [StreamPc.creates]) ?_
        simp only [Served.accepted, if_neg (UInt32.not_le.mpr hcap), ← hu.tracks.length]
        exact List.getElem?_concat_length
    · exact (hu.handled t m hm).keep
        (Service.streams_step h (by simpa [Event.stream] using Ne.symm hts)) Served.prefix_accepted

/-- **Every step without harm keeps it.** -/
theorem Served.Unharmed.step {e : MessageEvent} (hu : w.Unharmed c) (he : e.Harmless c)
    (h : w.step c e = some w') : w'.Unharmed c := by
  cases Served.steps h with
  | @read s m v hstep =>
    have hread := hu.receive (some m) hstep
      (fun r hr => by obtain rfl := Option.some.inj hr; exact he)
      (fun m' hm => by obtain rfl := Option.some.inj hm; exact .read he hstep)
    cases m with
    | empty => exact he.elim
    | _ => exact hread
  | endOfStream hstep => exact hu.receive none hstep (fun _ h => nomatch h) (fun _ h => nomatch h)
  | claimSlot hlast hstep => exact hu.claimSlot hlast hstep
  | setup hr hcalls hstep =>
    refine ⟨hu.reaches_step hstep, hu.up, hu.tracks.setup hu.inv hr hcalls hstep, hu.lastPlain,
      hu.plain, fun t m hm => (hu.handled t m hm).keep ?_ (List.prefix_refl _)⟩
    exact Service.streams_step hstep (by simp [Event.stream])
  | @emptyOptional k r process hr hnone =>
    -- a plain start does come to the calls
    obtain ⟨calls, hcalls, -⟩ := (hu.plain r (List.mem_of_getElem? hr)).setup process
    exact nomatch hnone.symm.trans hcalls
  | @other e v hmsg hstep =>
    have hslot : ∀ s, e ≠ .claimSlot s := by
      rintro s rfl
      exact absurd hmsg (by simp [Event.carriesMessage])
    have hsetup : ∀ k calls, e ≠ .thread k (.setup calls) := by
      rintro k calls rfl
      exact absurd hmsg (by simp [Event.carriesMessage])
    exact ⟨hu.reaches_step hstep, hu.up, hu.tracks.keep hu.inv hstep hslot hsetup _ _,
      hu.lastPlain, hu.plain, fun t m hm => (hu.handled t m hm).other hmsg hstep⟩

theorem Served.Unharmed.init : Served.Unharmed c {} where
  reaches := ⟨[], .nil⟩
  up := rfl
  tracks := .init
  lastPlain := fun _ _ h => absurd h (by simp)
  plain := fun _ h => absurd h (by simp)
  handled := fun _ _ h => absurd h (by simp)

theorem Served.Unharmed.run {es : List MessageEvent} (h : Served.Reaches c es w)
    (hes : ∀ e ∈ es, e.Harmless c) : w.Unharmed c :=
  h.invariant_on hes .init (fun _ _ _ he hu hs => hu.step he hs)

/-! ## A message is not left lying -/

theorem Execution.done_act (h : x.act k a = some (x', effect)) (hdone : x.done = true) :
    x'.done = true := by
  cases Execution.acts h with
  | markDone _ | markDoneUnwinding _ => rfl
  | @leaveRun ok _ => cases ok <;> exact hdone
  | @stopNoProgress t _ _ | @joinProgress t _ _ => cases t <;> exact hdone
  | _ => exact hdone

theorem Changes.done {w : Service} (h : Changes w k x e x') (hdone : x.done = true) :
    x'.done = true := by
  have hcancel : x.requestCancellation.done = true := by
    rw [Execution.requestCancellation, if_pos hdone]
    exact hdone
  cases h with
  | act hact => exact Execution.done_act hact hdone
  | cancel _ _ => exact hcancel
  | call _ _ _ => exact hcancel
  | _ => exact hdone

/-- The stream's thread is about to look at its execution. -/
def StreamPc.looks : StreamPc → Bool
  | .checkDone | .waitPrevious | .cancelling => true
  | _ => false

/-- A stream that looks at its execution has one, and waits for it only once it is done. -/
def Service.Waits (v : Service) : Prop :=
  ∀ s, (v.streams s).pc.looks = true →
    ∃ k x, (v.streams s).execution = some k ∧ v.executions[k]? = some x
      ∧ ((v.streams s).pc = .waitPrevious → x.done = true)

theorem Service.Waits.read (hi : Inv v) (hpc : (v.streams s).pc = .reading)
    (h : v.step max (.read s q) = some (v.readRequest s q))
    (hlooks : ((v.readRequest s q).streams s).pc.looks = true) :
    ∃ k x, ((v.readRequest s q).streams s).execution = some k
      ∧ (v.readRequest s q).executions[k]? = some x
      ∧ (((v.readRequest s q).streams s).pc = .waitPrevious → x.done = true) := by
  have hcurrent : ∀ k, (v.streams s).execution = some k →
      ∃ x, (v.readRequest s q).executions[k]? = some x := by
    intro k hk
    obtain ⟨x, hx, -, -⟩ := hi.current s k hk
    obtain ⟨x', hx', -⟩ := hi.persists h hx
    exact ⟨x', hx'⟩
  cases hcur : (v.streams s).execution with
  | none =>
    cases q with
    | start | cancellation | empty =>
      simp [Service.readRequest, Service.goTo, Service.setStream, hcur, hpc, StreamPc.looks]
        at hlooks
    | _ =>
      simp [Service.readRequest, Service.goTo, Service.setStream, StreamPc.looks] at hlooks
  | some k =>
    obtain ⟨x, hx⟩ := hcurrent k hcur
    refine ⟨k, x, ?_, hx, ?_⟩
    · cases q <;>
        simp [Service.readRequest, Service.goTo, Service.setStream, Service.modify, hcur]
    · cases q <;> simp [Service.readRequest, Service.goTo, Service.setStream, hcur, hpc]

theorem Service.Waits.step (hi : Inv v) (hw : v.Waits) (h : v.step max e = some v') : v'.Waits := by
  intro s hpc'
  by_cases hs : e.stream = some s
  · obtain ⟨-, hstep⟩ := Service.steps h
    cases hstep with
    | @read t r hpc =>
      cases hs
      exact Service.Waits.read hi hpc h hpc'
    | @checkDone t k x hpc hk hx =>
      cases hs
      simp only [Service.goTo, Service.setStream, Function.update_self] at hpc' ⊢
      cases hdone : x.done with
      | true => exact ⟨k, x, hk, hx, fun _ => hdone⟩
      | false => rw [hdone] at hpc'; exact absurd hpc' (by simp [StreamPc.looks])
    | @cancel t k x hpc hk hx =>
      cases hs
      rw [Service.streams_cancelExecution] at hpc'
      exact absurd hpc' (by simp [StreamPc.looks])
    | thread _ _ => exact absurd hs (by simp [Event.stream])
    | _ =>
      cases hs
      exact absurd hpc' (by simp [StreamPc.looks])
  · rw [Service.streams_step h hs] at hpc' ⊢
    obtain ⟨k, x, hk, hx, hdone⟩ := hw s hpc'
    obtain ⟨x', hx', hch⟩ := hi.persists h hx
    exact ⟨k, x', hk, hx', fun h0 => hch.done (hdone h0)⟩

theorem Service.waits_run {es : List Event} (h : Service.Reaches max es v) : v.Waits := by
  refine h.invariant_under Inv.run ?_ fun _ _ _ hi hw hs => hw.step hi hs
  exact fun s h0 => absurd h0 (by simp [StreamPc.looks])

/-- The stream's thread is ready for the next message, or has ended the stream. -/
def StreamPc.settled : StreamPc → Bool
  | .reading | .finishing _ | .returned _ => true
  | _ => false

/-- Without another message being read, the thread of stream `s` can come to that point. -/
def Served.Settles (c : Config) (w : Served) (s : Nat) : Prop :=
  ∃ es v, Served.Leads c w es v ∧ (∀ e ∈ es, ∀ t m, e ≠ .read t m)
    ∧ (v.service.streams s).pc.settled = true

theorem Served.Settles.of_settled (h : (w.service.streams s).pc.settled = true) : w.Settles c s :=
  ⟨[], w, .nil, by simp, h⟩

theorem Served.Settles.of_step {e : MessageEvent} (he : ∀ t m, e ≠ .read t m)
    (h : w.step c e = some w') (hs : w'.Settles c s) : w.Settles c s := by
  obtain ⟨es, v, hrun, hes, hpc⟩ := hs
  exact ⟨e :: es, v, .cons h hrun, List.forall_mem_cons.mpr ⟨he, hes⟩, hpc⟩

/-- A step that carries no message leads there. -/
theorem Served.Settles.of_other (h : w.service.step c.maxConcurrentExecutions e = some v)
    (hmsg : e.carriesMessage = false) (hs : ({ w with service := v } : Served).Settles c s) :
    w.Settles c s := by
  refine .of_step (e := .other e) (by simp) ?_ hs
  simp [Served.step, hmsg, Served.advance, h]

section

variable (halive : w.service.crashed = false)
include halive

theorem Served.Settles.creating (hpc : (w.service.streams s).pc = .creating k) : w.Settles c s :=
  .of_other (e := .create s none) (by simp only [Service.step.eq_def, halive, hpc]; rfl) rfl
    (.of_settled (by simp [StreamPc.settled]))

theorem Served.Settles.givingBack {text : String}
    (hpc : (w.service.streams s).pc = .givingBack k text) : w.Settles c s :=
  .of_other (e := .giveBack s) (by simp only [Service.step.eq_def, halive, hpc]; rfl) rfl
    (.of_settled (by simp [StreamPc.settled]))

theorem Served.Settles.claimSlot (hpc : (w.service.streams s).pc = .claimSlot)
    (hlast : w.last s = some (.start r)) :
    w.Settles c s := by
  by_cases hcap : c.maxConcurrentExecutions ≤ w.service.active
  · have hstep : w.step c (.claimSlot s) = some { w with
        service :=
          w.service.goTo s (.returned (w.service.refusal c.maxConcurrentExecutions)) } := by
      simp [Served.step, hlast, Served.advance, Service.step, halive, hpc, hcap]
    exact .of_step (by simp) hstep
      (.of_settled (by simp [StreamPc.settled]))
  · have hstep : w.step c (.claimSlot s) = some { w with
        service := (w.service.accept s).goTo s (.creating w.service.executions.length)
        starts := w.starts ++ [r] } := by
      simp [Served.step, hlast, Served.advance, Service.step, halive, hpc, hcap]
    exact .of_step (by simp) hstep
      (.creating halive (by simp only [Service.goTo, Service.setStream, Function.update_self]; rfl))

end

/-- The thread of stream `s` waits for execution `k`, with a start in hand. -/
structure Served.Awaits (w : Served) (s k : Nat) (x : Execution) (r : StartRequest) : Prop where
  inv : Inv w.service
  alive : w.service.crashed = false
  pc : (w.service.streams s).pc = .waitPrevious
  current : (w.service.streams s).execution = some k
  execution : w.service.executions[k]? = some x
  last : w.last s = some (.start r)

section

variable (h : w.Awaits s k x r)
include h

/-- The execution goes on, and the stream's thread still waits. -/
theorem Served.Awaits.thread (hact : x.act k a = some (x', .none))
    (hno : (Event.thread k a).carriesMessage = false)
    (hs : ∀ w' : Served, w'.Awaits s k x' r → w'.Settles c s) : w.Settles c s := by
  have hstep : w.service.step c.maxConcurrentExecutions (.thread k a)
      = some (w.service.apply k x' .none) := by
    simp [Service.step, h.alive, h.execution, hact]
  refine .of_other hstep hno (hs _ ⟨h.inv.step hstep, h.alive, h.pc, h.current, ?_, h.last⟩)
  simp [Service.apply, (List.getElem?_eq_some_iff.mp h.execution).1]

theorem Served.Awaits.ended {t : Tail} (hpc : x.pc = .ended t) :
    w.Settles c s := by
  have hover : w.service.threadOver k = true := by
    cases t <;> simp [Service.threadOver, h.execution, hpc]
  have hstep : w.service.step c.maxConcurrentExecutions (.waitPrevious s)
      = some (w.service.goTo s .claimSlot) := by
    simp [Service.step, h.alive, h.pc, h.current, hover]
  exact .of_other hstep rfl (.claimSlot h.alive (by simp) h.last)

theorem Served.Awaits.exit (hpc : x.pc = .exit .answer) : w.Settles c s := by
  have hs := h.inv.sound k x h.execution
  rw [hpc] at hs
  exact h.thread (a := .exit) (by simp only [Execution.act, hpc, hs.released]; rfl) rfl
    (fun _ h' => h'.ended rfl)

theorem Served.Awaits.destroy (hpc : x.pc = .destroy .answer) :
    w.Settles c s := by
  have hs := h.inv.sound k x h.execution
  rw [hpc] at hs
  cases hown : x.own with
  | none =>
    exact h.thread (a := .destroy) (by simp only [Execution.act, hpc, hown]; rfl) rfl
      (fun _ h' => h'.exit rfl)
  | some p =>
    exact h.thread (a := .destroy)
      (by simp only [Execution.act, hpc, hown, hs.shutdown rfl p hown, if_true]; rfl) rfl
      (fun _ h' => h'.exit rfl)

theorem Served.Awaits.writing (hpc : x.pc = .writing) : w.Settles c s :=
  h.thread (a := .endWrite) (if_pos hpc) rfl
    (fun _ h' => h'.destroy rfl)

/-- An execution that is done ends, and the stream's thread goes on to its start. -/
theorem Served.Awaits.settles (hdone : x.done = true) : w.Settles c s := by
  have hs := h.inv.sound k x h.execution
  rw [hs.done] at hdone
  cases hpc : x.pc with
  | ended t => exact h.ended hpc
  | exit t =>
    cases t with
    | answer => exact h.exit hpc
    | unwind => rw [hpc] at hdone; exact absurd hdone (by decide)
  | destroy t =>
    cases t with
    | answer => exact h.destroy hpc
    | unwind => rw [hpc] at hdone; exact absurd hdone (by decide)
  | writing => exact h.writing hpc
  | write =>
    exact h.thread (a := .beginWrite) (if_pos hpc) rfl
      (fun _ h' => h'.writing rfl)
  | _ => rw [hpc] at hdone; exact absurd hdone (by simp [Pc.done])

end

/-- **A message that was read is dealt with, without another one.** -/
theorem Served.Unharmed.settles (hu : w.Unharmed c) (halive : w.service.crashed = false)
    (hlast : w.last s = some m) : w.Settles c s := by
  obtain ⟨es, hes⟩ := hu.reaches
  have hwaits := Service.waits_run hes
  cases hu.handled s m hlast with
  | ends h => rcases h with h | h <;> exact .of_settled (by rw [h]; rfl)
  | started h _ | cancelled h => exact .of_settled (by rw [h]; rfl)
  | creating h _ =>
    cases hpc : (w.service.streams s).pc with
    | creating k => exact .creating halive hpc
    | givingBack k text => exact .givingBack halive hpc
    | _ => rw [hpc] at h; exact absurd h (by simp [StreamPc.creates])
  | cancelling hpc =>
    obtain ⟨k, x, hk, hx, -⟩ := hwaits s (by rw [hpc]; rfl)
    refine .of_other (e := .cancel s) (v := w.service.cancelExecution s k x) ?_ rfl (.of_settled ?_)
    · simp [Service.step, halive, hpc, hk, hx]
    · rw [Service.streams_cancelExecution]
      simp [StreamPc.settled]
  | @waiting r h =>
    rcases h with hpc | hpc | hpc
    · obtain ⟨k, x, hk, hx, -⟩ := hwaits s (by rw [hpc]; rfl)
      cases hdone : x.done with
      | false =>
        exact .of_other (e := .checkDone s)
          (by simp only [Service.step.eq_def, halive, hpc, hk, Option.bind_some, hx, hdone]; rfl)
          rfl (.of_settled (by simp [StreamPc.settled]))
      | true =>
        have hstep : w.service.step c.maxConcurrentExecutions (.checkDone s)
            = some (w.service.goTo s .waitPrevious) := by
          simp [Service.step, halive, hpc, hk, hx, hdone]
        exact .of_other hstep rfl (Served.Awaits.settles (k := k) (r := r)
          ⟨hu.inv.step hstep, halive, by simp, by simpa using hk, hx, hlast⟩ hdone)
    · obtain ⟨k, x, hk, hx, hdone⟩ := hwaits s (by rw [hpc]; rfl)
      exact Served.Awaits.settles ⟨hu.inv, halive, hpc, hk, hx, hlast⟩ (hdone hpc)
    · exact .claimSlot halive hpc hlast

/-! ## The property -/

/-- Where execution `k` is with the start it was accepted for. It has not made the calls on the way
to a Process, or it made them as the start has it; only the last can have thrown, and when they came
to an error that is what is answered. -/
def Served.Answers (c : Config) (w : Served) (k : Nat) (r : StartRequest) (x : Execution) : Prop :=
  match w.setups k with
  | none => x.pc.beforeSetup = true
  | some calls => c.setup r calls.process = some calls
    ∧ (prepare calls = .unwind → calls.process = .threw)
    ∧ ∀ error, prepare calls = .answer error → x.error = some error ∧ x.pc.answering = true
      ∧ (x.pc.answered = true → .final (some error) ∈ x.responses)

/-- Every message that was read so far is dealt with, or is about to be. -/
structure Served.DealsWithMessages (c : Config) (w : Served) : Prop where
  /-- none has taken the service down -/
  up : w.down = none
  /-- a stream's last message ends the stream, or is acted on before the next one is read -/
  handled : ∀ s m, w.last s = some m → w.Handled s m
  settles : ∀ s m, w.last s = some m → w.service.crashed = false → w.Settles c s
  /-- the cancellations of a stream that reads on have all come to something -/
  cancels : ∀ s k x, w.service.streams s = { pc := .reading, execution := some k } →
    w.service.executions[k]? = some x → x.cancels.length = x.cancelsRead
  /-- a start that is refused on the way to a Process is answered with the reason -/
  answers : ∀ (k : Nat) (x : Execution), w.service.executions[k]? = some x →
    ∃ r, w.starts[k]? = some r ∧ w.Answers c k r x

/-- **Messages that carry a command, with plain starts, are dealt with and leave the service up.**
-/
theorem dealsWithMessages_of_harmless {es : List MessageEvent} (h : Served.Reaches c es w)
    (hes : ∀ e ∈ es, e.Harmless c) : w.DealsWithMessages c := by
  have hu := Served.Unharmed.run h hes
  have hi := hu.inv
  refine ⟨hu.up, hu.handled, fun s m hlast halive => hu.settles halive hlast, ?_, ?_⟩
  · intro s k x hs hx
    obtain ⟨es', hes'⟩ := hu.reaches
    obtain ⟨y, hy, hstream, -⟩ := hi.current s k (by rw [hs])
    obtain rfl := Option.some.inj (hx.symm.trans hy)
    have hacted := (accounted_run hes').acted k x hx
    rw [if_neg, Nat.add_zero] at hacted
    · exact hacted.symm
    · unfold Service.Pending
      rw [hstream, hs]
      simp
  · intro k x hx
    have hk : k < w.starts.length := by
      rw [hu.tracks.length]
      exact (List.getElem?_eq_some_iff.mp hx).1
    refine ⟨w.starts[k], List.getElem?_eq_getElem hk, ?_⟩
    have htracked := hu.tracks.tracked k x hx
    unfold Served.Tracked at htracked
    unfold Served.Answers
    cases hsetup : w.setups k <;> rw [hsetup] at htracked
    case none => exact htracked
    case some calls =>
      obtain ⟨⟨-, hfollows⟩, r, hr, hcalls⟩ := htracked
      obtain rfl : w.starts[k] = r := by simpa [List.getElem?_eq_getElem hk] using hr
      obtain ⟨calls', hcalls', hunwind⟩ := (hu.plain _ (List.getElem_mem hk)).setup calls.process
      obtain rfl := Option.some.inj (hcalls.symm.trans hcalls')
      refine ⟨hcalls, hunwind, fun error herror => ?_⟩
      obtain ⟨herr, hans⟩ := hfollows error herror
      refine ⟨herr, hans, fun hanswered => ?_⟩
      obtain ⟨ps, -, hresponses⟩ := (hi.sound k x hx).responses
      rw [hresponses, if_pos hanswered, herr]
      exact List.mem_cons_self

/-- A service for one execution at a time, on a system with a free port. -/
def bareConfig : Config where
  maxConcurrentExecutions := 1
  backendName := ""
  serviceVerbosity := .info
  outside :=
    { availablePort := fun _ _ => .ok 4000
      hostPath := fun _ => ("", "")
      validate := fun _ => .ok () }

/-- A start without a target is answered with the reason. -/
theorem dealsWithMessages_noTarget :
    ∃ w x, Served.Reaches bareConfig [.read 0 (.start { options := {} }), .claimSlot 0,
        .other (.create 0 none), .setup 0 .returned, .other (.thread 0 .release),
        .other (.thread 0 .markDone), .other (.thread 0 .beginWrite)] w
      ∧ w.service.executions[0]? = some x
      ∧ x.responses = [.final (some
          { code := .internal, message := "A URI or --multi-target-* options must be specified." })]
      ∧ w.DealsWithMessages bareConfig := by
  refine ⟨_, _, Lts.Run.of_foldlM_and rfl fun hrun =>
    ⟨rfl, rfl, dealsWithMessages_of_harmless hrun ?_⟩⟩
  have hplain : bareConfig.Plain { options := {} } := ⟨rfl, fun _ _ _ _ _ => nofun⟩
  simp [MessageEvent.Harmless, hplain]

/-- A message without a command takes the service down, and so does a start with a tunnel. -/
theorem not_dealsWithMessages :
    (∃ w, Served.Reaches bareConfig [.read 0 .empty] w ∧ w.down = some .panic
      ∧ w.service.crashed = true ∧ ¬w.DealsWithMessages bareConfig)
    ∧ ∃ w, Served.Reaches bareConfig [.read 0 (.start { options := { tunnelOptions := some {} } }),
          .claimSlot 0, .other (.create 0 none), .setup 0 .returned] w
        ∧ w.down = some .emptyOptional ∧ w.service.crashed = true
        ∧ ¬w.DealsWithMessages bareConfig := by
  refine ⟨⟨_, Lts.Run.of_foldlM rfl, rfl, rfl, fun h => ?_⟩,
    ⟨_, Lts.Run.of_foldlM rfl, rfl, rfl, fun h => ?_⟩⟩
  all_goals exact absurd h.up (by simp)

end Sortie.Engine.ServiceImpl
