import Mathlib.Data.List.TakeWhile
import Sortie.Lib.Run
import Sortie.Nh.Client

/-!
# The protocol of `Execute`

Everything that is claimed of a call comes out of two invariants. `ReaderInv` follows the
reader: as long as it reads, all that came was interim, and what it delivers is the first
response that is not, or the end of the stream. `PcInv` follows `Execute`: what it has
sent by then, that a cancellation is remembered, and what an outcome says about the
stream. Neither looks at the context, the timers or what is still unread: any of them may
change at any time, and that is why no schedule matters.

That a call returns at all needs the stream to end. Then every step uses something up
(`weight`), and there is always a step as long as `Execute` has not returned.
-/

namespace Sortie.Nh

open Proto Api

variable {F : Type}
variable {s t u : Execute F} {rs rs' : List (StreamResponse F)}

/-- The step relation of a call. -/
def ExecuteStep (s : Execute F) (e : ExecuteEvent F) (t : Execute F) : Prop := s.step e = some t

namespace Execute

/-- The events of `Execute` and of its reader. -/
def own : ExecuteEvent F → Bool
  | .write _ | .finish _ _ | .ctxEnds _ | .callerEnds => false
  | _ => true

/-! ## What a step can do -/

/-- The steps of a call, each with what it needs and what it leaves. -/
inductive Moves (s : Execute F) : ExecuteEvent F → Execute F → Prop where
  | write {r} : s.ended = none → Moves s (.write r) { s with pending := s.pending ++ [r] }
  | finish {kept e} : s.ended = none →
      Moves s (.finish kept e) { s with pending := s.pending.take kept, ended := some e }
  | ctxEnds {c} : s.ctx = none → Moves s (.ctxEnds c) { s with ctx := some c }
  | callerEnds : s.callerDone = false → Moves s .callerEnds { s with callerDone := true }
  | read {d u} : s.reader = .reading → s.recv = some (d, u) → Moves s .read (u.deliver d)
  | call {r} : s.reader = .handling r → Moves s .call (s.handOn r)
  | notOpened {answer err} : s.pc = .entry → err.asBusy = none →
      Moves s (.openStream answer) (s.fail err)
  | opened : s.pc = .entry → Moves s (.openStream none) { s with pc := .sendStart }
  | started : s.pc = .sendStart →
      Moves s (.sendStart none)
        { s with sent := s.sent ++ [s.args.start], pc := .awaitFirst, reader := .reading }
  | startRefused : s.pc = .sendStart →
      Moves s (.sendStart (some .eof)) { s with sent := s.sent ++ [s.args.start], pc := .refused }
  | startFailed {status err} : s.pc = .sendStart → err.asBusy = none →
      Moves s (.sendStart (some (.failed status)))
        (fail { s with sent := s.sent ++ [s.args.start] } err)
  | refusal {d u} : s.pc = .refused → s.recv = some (d, u) → Moves s .recvRefusal (u.refusal d)
  | take {d} : s.pc = .awaitFirst ∨ s.pc = .awaitArrived ∨ s.pc = .awaitAnswer →
      s.first = some d → Moves s .selectFirst (s.take d)
  | late : s.pc = .awaitFirst → Moves s .selectDone { s with pc := .awaitArrived }
  /-- waiting is given up: the context ended otherwise, or the caller's, or the grace is over -/
  | giveUp {e} : s.pc = .awaitFirst ∨ s.pc = .awaitArrived → own e = true →
      Moves s e { s with pc := .sendCancel }
  | cancelFailed {answer err} : s.pc = .sendCancel → err.asBusy = none →
      Moves s (.sendCancel answer)
        (fail { s with cancelled := true, sent := s.sent ++ [.cancellation] } err)
  | cancelSent : s.pc = .sendCancel →
      Moves s (.sendCancel none)
        { s with cancelled := true, sent := s.sent ++ [.cancellation], pc := .awaitAnswer }
  | unanswered {err} : s.pc = .awaitAnswer → err.asBusy = none →
      Moves s .selectCancelGrace (s.fail err)
  | closeFailed {answer err} : s.pc = .closeSend → err.asBusy = none →
      Moves s (.closeSend answer) (s.fail err)
  | closed : s.pc = .closeSend → Moves s (.closeSend none) (s.judge s.got)
  | dropped {r r' u} : s.pc = .drain r → s.recv = some (.response r', u) → Moves s .drain u
  | finished {r e u} : s.pc = .drain r → s.recv = some (.error e, u) →
      Moves s .drain (u.finishWith r e.err)

theorem asBusy_ctxErr (s : Execute F) : s.ctxErr.asBusy = none := by
  unfold ctxErr
  cases s.ctx <;> rfl

variable {e : ExecuteEvent F} {d : Delivery F} {r : StreamResponse F}

theorem moves_of_step (h : ExecuteStep s e t) : Moves s e t := by
  unfold ExecuteStep at h
  revert h
  fun_cases step s e <;> intro h
  -- a step that reads may find nothing, and those that are refused lead nowhere
  case case9 hr =>
    obtain ⟨⟨d, u⟩, hdu, rfl⟩ := Option.map_eq_some_iff.mp h
    exact .read hr hdu
  case case21 hs =>
    obtain ⟨⟨d, u⟩, hdu, rfl⟩ := Option.map_eq_some_iff.mp h
    exact .refusal hs hdu
  case case42 r hs =>
    obtain ⟨⟨d, u⟩, hdu, rfl⟩ := Option.map_eq_some_iff.mp h
    cases d with
    | response r' => exact .dropped hs hdu
    | error e => exact .finished hs hdu
  all_goals cases h
  case case1 hnone => exact .write (Option.isNone_iff_eq_none.mp hnone)
  case case3 hnone => exact .finish (Option.isNone_iff_eq_none.mp hnone)
  case case5 hnone => exact .ctxEnds (Option.isNone_iff_eq_none.mp hnone)
  case case8 hcaller => exact .callerEnds (by simpa using hcaller)
  case case23 hfirst hs => exact .take (.inl hs) hfirst
  case case24 hfirst hs => exact .take (.inr (.inl hs)) hfirst
  case case25 hfirst hs => exact .take (.inr (.inr hs)) hfirst
  case case27 c _ hs =>
    split
    · exact .late hs
    · exact .giveUp (.inl hs) rfl
  case case29 hs _ => exact .giveUp (.inr hs) rfl
  case case32 hs => exact .giveUp (.inr hs) rfl
  case case34 hs _ _ => exact .cancelFailed hs (asBusy_ctxErr _)
  case case37 hs => exact .unanswered hs (asBusy_ctxErr s)
  all_goals constructor <;> first | assumption | rfl

/-- What `Recv` returns, and what it leaves. -/
theorem recv_cases (h : s.recv = some (d, u)) :
    (∃ r rest, s.pending = r :: rest ∧ d = .response r
      ∧ u = { s with pending := rest, received := s.received ++ [r] })
    ∨ (s.pending = [] ∧ ∃ e, s.ended = some e ∧ d = .error e ∧ u = s) := by
  unfold recv at h
  cases hp : s.pending with
  | cons r rest =>
    rw [hp] at h
    cases h
    exact .inl ⟨r, rest, rfl, rfl, rfl⟩
  | nil =>
    rw [hp] at h
    obtain ⟨e, he, hpair⟩ := Option.map_eq_some_iff.mp h
    obtain ⟨rfl, rfl⟩ := Prod.mk.inj hpair
    exact .inr ⟨rfl, e, he, rfl, rfl⟩

/-! ## The invariants -/

/-- What `progress.Fn` is called with for these responses. -/
def called (a : ExecuteArgs) (rs : List (StreamResponse F)) : List (Span × Option (Output F)) :=
  if a.reports then rs.map fun r => (r.elapsed, r.output) else []

/-- The first response without progress. -/
def firstFinal (rs : List (StreamResponse F)) : Option (StreamResponse F) :=
  rs.find? fun r => !r.interim

/-- The responses before it. -/
def interims (rs : List (StreamResponse F)) : List (StreamResponse F) :=
  rs.takeWhile StreamResponse.interim

/-- What the reader delivered is what it says. -/
def Holds (s : Execute F) : Delivery F → Prop
  | .response r => firstFinal s.received = some r
  | .error e => s.ended = some e

/-- What the reader has seen, called and delivered. -/
def ReaderInv (s : Execute F) : Prop :=
  match s.reader with
  | .absent => s.first = none ∧ s.got = none ∧ s.calls = []
  | .reading => s.first = none ∧ s.got = none ∧ (∀ r ∈ s.received, r.interim = true)
      ∧ s.calls = called s.args s.received
  | .handling r => s.first = none ∧ s.got = none ∧ (∀ x ∈ s.received, x.interim = true)
      ∧ ∃ before, s.received = before ++ [r] ∧ s.calls = called s.args before
  | .done => (∃ d, (s.first = some d ∧ s.got = none ∨ s.first = none ∧ s.got = some d) ∧ s.Holds d)
      ∧ s.calls = called s.args (interims s.received)

/-- A start was sent, and a cancellation after it when `Execute` says so. -/
def SentStart (s : Execute F) : Prop :=
  s.sent = [s.args.start] ∧ s.cancelled = false
    ∨ s.sent = [s.args.start, .cancellation] ∧ s.cancelled = true

/-- What an outcome says about the stream. -/
structure Judged (s : Execute F) (o : Outcome F) : Prop where
  clean : o.err = none → s.cancelled = false ∧ ∃ r, o.resp = some r
    ∧ firstFinal s.received = some r ∧ failure r.errorDetail = none
    ∧ ∃ e, s.ended = some e ∧ e.err = .eof
  cancelled : s.cancelled = true → o.err ≠ none
  busy : ∀ err b, o.err = some err → err.asBusy = some b → ∃ e status, s.ended = some e
    ∧ e.err = .failed status ∧ status.code = Code.resourceExhausted ∧ e.trailer ≠ []

/-- What `Execute` has done by the time it is there. -/
def PcInv (s : Execute F) : Prop :=
  match s.pc with
  | .entry | .sendStart =>
    s.reader = .absent ∧ s.received = [] ∧ s.sent = [] ∧ s.cancelled = false
  | .refused =>
    s.reader = .absent ∧ s.received = [] ∧ s.sent = [s.args.start] ∧ s.cancelled = false
  | .awaitFirst | .awaitArrived | .sendCancel =>
    s.reader ≠ .absent ∧ s.got = none ∧ s.sent = [s.args.start] ∧ s.cancelled = false
  | .awaitAnswer =>
    s.reader ≠ .absent ∧ s.got = none ∧ s.sent = [s.args.start, .cancellation]
      ∧ s.cancelled = true
  | .closeSend => s.got ≠ none ∧ s.SentStart
  | .drain r => s.got = some (.response r) ∧ s.SentStart
  | .returned o => (s.sent = [] ∧ s.cancelled = false ∨ s.SentStart) ∧ s.Judged o

structure Inv (s : Execute F) : Prop where
  reader : s.ReaderInv
  pc : s.PcInv

theorem Inv.pcAt {pc : ExecutePc F} (h : Inv s) (hs : s.pc = pc) : PcInv { s with pc := pc } := by
  subst hs
  exact h.pc

theorem ReaderInv.readerAt {q : ReaderPc F} (h : s.ReaderInv) (hr : s.reader = q) :
    ReaderInv { s with reader := q } := by
  subst hr
  exact h

theorem inv_init (args : ExecuteArgs) (ctx : Option CtxEnd) : Inv (init (F := F) args ctx) :=
  ⟨⟨rfl, rfl, rfl⟩, rfl, rfl, rfl, rfl⟩

/-! ## What stays as the stream goes on -/

/-- More was read, or the stream ended. -/
structure Grows (s t : Execute F) : Prop where
  args : t.args = s.args
  cancelled : t.cancelled = s.cancelled
  received : s.received <+: t.received
  ended : ∀ e, s.ended = some e → t.ended = some e

theorem firstFinal_of_isPrefix (h : rs <+: rs') (hr : firstFinal rs = some r) :
    firstFinal rs' = some r := by
  obtain ⟨more, rfl⟩ := h
  unfold firstFinal at hr ⊢
  rw [List.find?_append, hr]
  rfl

/-- What comes after the first final response does not count. -/
theorem interims_append_of_firstFinal (h : firstFinal rs = some r)
    (more : List (StreamResponse F)) : interims (rs ++ more) = interims rs := by
  unfold interims
  rw [List.takeWhile_append, if_neg]
  intro hall
  have hself := (List.takeWhile_prefix _).eq_of_length hall
  have hinterim := List.takeWhile_eq_self_iff.mp hself r (List.mem_of_find?_eq_some h)
  have hfinal := List.find?_some h
  rw [hinterim] at hfinal
  cases hfinal

theorem called_isPrefix {a : ExecuteArgs} (h : rs <+: rs') : called a rs <+: called a rs' := by
  unfold called
  split
  · exact h.map _
  · exact List.prefix_rfl

theorem Holds.grows (h : s.Holds d) (hg : Grows s t) : t.Holds d := by
  cases d with
  | response r => exact firstFinal_of_isPrefix hg.received h
  | error e => exact hg.ended e h

theorem Judged.grows {o : Outcome F} (h : s.Judged o) (hg : Grows s t) :
    t.Judged o where
  clean := by
    intro hnone
    obtain ⟨hcancelled, r, hr, hfirst, hdetail, e, he, heof⟩ := h.clean hnone
    exact ⟨hg.cancelled.trans hcancelled, r, hr, firstFinal_of_isPrefix hg.received hfirst,
      hdetail, e, hg.ended e he, heof⟩
  cancelled := fun hc => h.cancelled (hg.cancelled.symm.trans hc)
  busy := by
    intro err b herr hb
    obtain ⟨e, status, he, hrest⟩ := h.busy err b herr hb
    exact ⟨e, status, hg.ended e he, hrest⟩

/-- A reader that is done stays so. -/
theorem ReaderInv.grows_done (h : s.ReaderInv) (hdone : s.reader = .done) (hg : Grows s t)
    (hreader : t.reader = .done) (hfirst : t.first = s.first) (hgot : t.got = s.got)
    (hcalls : t.calls = s.calls) (hinterims : interims t.received = interims s.received) :
    t.ReaderInv := by
  unfold ReaderInv at h ⊢
  rw [hdone] at h
  rw [hreader]
  obtain ⟨⟨d, hd, hholds⟩, hall⟩ := h
  refine ⟨⟨d, by rw [hfirst, hgot]; exact hd, hholds.grows hg⟩, ?_⟩
  rw [hcalls, hg.args, hinterims, hall]

/-! ## Every step keeps them -/

/-- `PcInv` looks at the stream only in the outcome. -/
theorem PcInv.grows (h : s.PcInv) (hg : Grows s t) (hpc : t.pc = s.pc)
    (hreader : t.reader = s.reader) (hgot : t.got = s.got) (hsent : t.sent = s.sent)
    (hreceived : t.received = s.received) : t.PcInv := by
  unfold PcInv SentStart at h ⊢
  rw [hpc, hreader, hgot, hsent, hg.args, hg.cancelled, hreceived]
  cases hs : s.pc <;> rw [hs] at h
  case returned o => exact ⟨h.1, h.2.grows hg⟩
  all_goals exact h

/-- What the service, the context and the caller do: nothing that was done changes. -/
structure Outside (s t : Execute F) : Prop where
  same : t = { s with
    pending := t.pending, ended := t.ended, ctx := t.ctx, callerDone := t.callerDone }
  ended : ∀ e, s.ended = some e → t.ended = some e

theorem Inv.outside (h : Inv s) (ho : Outside s t) : Inv t := by
  have hreader : t.reader = s.reader := by rw [ho.same]
  have hreceived : s.received = t.received := by rw [ho.same]
  have hg : Grows s t :=
    ⟨by rw [ho.same], by rw [ho.same], hreceived ▸ List.prefix_rfl, ho.ended⟩
  refine ⟨?_, h.pc.grows hg (by rw [ho.same]) hreader (by rw [ho.same]) (by rw [ho.same])
    (by rw [ho.same])⟩
  by_cases hdone : s.reader = .done
  · exact h.reader.grows_done hdone hg (hreader.trans hdone) (by rw [ho.same]) (by rw [ho.same])
      (by rw [ho.same]) (by rw [hreceived])
  · -- until it is done, the reader does not look at the end of the stream
    have hinv := h.reader
    rw [ho.same]
    unfold ReaderInv at hinv ⊢
    cases hr : s.reader with
    | done => exact absurd hr hdone
    | absent | reading | handling r => rw [hr] at hinv; exact hinv

/-- A step of a reader that has not delivered anything. -/
theorem PcInv.reads (h : s.PcInv) (hg : Grows s t) (hpc : t.pc = s.pc) (hsent : t.sent = s.sent)
    (hreader : s.reader ≠ .absent) (hreader' : t.reader ≠ .absent) (hgot : s.got = none)
    (hgot' : t.got = none) : t.PcInv := by
  unfold PcInv SentStart at h ⊢
  rw [hpc, hsent, hgot', hg.args, hg.cancelled]
  cases hs : s.pc <;> rw [hs] at h
  case entry | sendStart | refused => exact absurd h.1 hreader
  case closeSend => exact absurd hgot h.1
  case drain r => exact absurd (h.1.symm.trans hgot) nofun
  case returned o => exact ⟨h.1, h.2.grows hg⟩
  all_goals exact ⟨hreader', rfl, h.2.2⟩

theorem firstFinal_append_of_interim (h : ∀ x ∈ rs, x.interim = true)
    (hr : r.interim = false) : firstFinal (rs ++ [r]) = some r := by
  have hnone : rs.find? (fun r => !r.interim) = none := by
    rw [List.find?_eq_none]
    intro x hx
    rw [h x hx]
    simp
  unfold firstFinal
  rw [List.find?_append, hnone, Option.none_or, List.find?_singleton, hr]
  rfl

theorem interims_of_all (h : ∀ x ∈ rs, x.interim = true) :
    interims rs = rs := List.takeWhile_eq_self_iff.mpr h

theorem interims_append_of_interim (h : ∀ x ∈ rs, x.interim = true) (hr : r.interim = false) :
    interims (rs ++ [r]) = rs := by
  unfold interims
  rw [List.takeWhile_append_of_pos h, List.takeWhile_cons_of_neg (by simp [hr]), List.append_nil]

/-- The reader reads: the first response that is not interim ends its loop, and so does an
error. -/
theorem Inv.read (h : Inv s) (hr : s.reader = .reading) (hdu : s.recv = some (d, u)) :
    Inv (u.deliver d) := by
  obtain ⟨hfirst, hgot, hinterim, hcalls⟩ := h.reader.readerAt hr
  have hpresent : s.reader ≠ .absent := by rw [hr]; exact nofun
  rcases recv_cases hdu with ⟨r, rest, -, rfl, rfl⟩ | ⟨-, e, he, rfl, hu⟩
  · have hgrow : s.received <+: s.received ++ [r] := List.prefix_append _ _
    cases hi : r.interim with
    | true =>
      -- an interim response is handed on next
      simp only [deliver, hi, if_true]
      refine ⟨⟨hfirst, hgot, ?_, s.received, rfl, hcalls⟩,
        h.pc.reads ⟨rfl, rfl, hgrow, fun _ he => he⟩ rfl rfl hpresent nofun hgot hgot⟩
      intro x hx
      rcases List.mem_append.mp hx with hx | hx
      · exact hinterim x hx
      · rw [List.mem_singleton.mp hx]
        exact hi
    | false =>
      simp only [deliver, hi, Bool.false_eq_true, if_false]
      refine ⟨⟨⟨_, .inl ⟨rfl, hgot⟩, firstFinal_append_of_interim hinterim hi⟩, ?_⟩,
        h.pc.reads ⟨rfl, rfl, hgrow, fun _ he => he⟩ rfl rfl hpresent nofun hgot hgot⟩
      rw [interims_append_of_interim hinterim hi, hcalls]
  · subst hu
    refine ⟨⟨⟨_, .inl ⟨rfl, hgot⟩, he⟩, ?_⟩,
      h.pc.reads ⟨rfl, rfl, List.prefix_rfl, fun _ he => he⟩ rfl rfl hpresent nofun hgot hgot⟩
    change u.calls = called u.args (interims u.received)
    rw [hcalls, interims_of_all hinterim]

/-- The reader is done with an interim response, which was the last one read. -/
theorem Inv.call (h : Inv s) (hr : s.reader = .handling r) : Inv (s.handOn r) := by
  obtain ⟨hfirst, hgot, hinterim, before, hreceived, hcalls⟩ := h.reader.readerAt hr
  refine ⟨⟨hfirst, hgot, hinterim, ?_⟩, h.pc.reads ⟨rfl, rfl, List.prefix_rfl, fun _ he => he⟩
    rfl rfl (by rw [hr]; exact nofun) nofun hgot hgot⟩
  unfold handOn called at *
  rw [hreceived, hcalls]
  cases s.args.reports <;> simp

/-! ### The steps of `Execute` -/

/-- An error that is no refusal says nothing. -/
theorem judged_error (s : Execute F) {resp : Option (StreamResponse F)} {err : GoError}
    (h : err.asBusy = none) : s.Judged { resp, err := some err } where
  clean := fun hnone => absurd hnone nofun
  cancelled := fun _ => nofun
  busy := by
    intro err' b herr hb
    cases herr
    exact absurd (h.symm.trans hb) nofun

theorem busy_eq_some {trailer : List String} {err : GoError} {b : BusyError}
    (h : Nh.busy trailer err = some b) :
    err.code = Code.resourceExhausted ∧ trailer ≠ [] := by
  unfold Nh.busy at h
  split at h
  · cases h
  · rename_i hcode
    obtain ⟨value, hvalue, -⟩ := Option.map_eq_some_iff.mp h
    refine ⟨Decidable.not_not.mp hcode, ?_⟩
    rintro rfl
    cases hvalue

/-- A refusal is read off the end of the stream. -/
theorem judged_busy {e : StreamEnd} {status : RpcStatus} {b : BusyError} (he : s.ended = some e)
    (herr : e.err = .failed status) (hb : Nh.busy e.trailer status.goError = some b) :
    s.Judged { err := some (.busy b.max b.err) } where
  clean := fun hnone => absurd hnone nofun
  cancelled := fun _ => nofun
  busy := by
    intro _ _ _ _
    obtain ⟨hcode, htrailer⟩ := busy_eq_some hb
    exact ⟨e, status, he, herr, hcode, htrailer⟩

/-- What is sent and remembered by the time of a `returned`. -/
theorem Inv.exit {resp : Option (StreamResponse F)} {err : Option GoError} (hreader : s.ReaderInv)
    (hsent : s.sent = [] ∧ s.cancelled = false ∨ s.SentStart) (hjudged : s.Judged { resp, err }) :
    Inv (s.exit resp err) :=
  ⟨hreader, hsent, hjudged.grows ⟨rfl, rfl, List.prefix_rfl, fun _ he => he⟩⟩

/-- The start is out and the reader begins, with nothing read. -/
theorem Inv.started (h : Inv s) (hs : s.pc = .sendStart) :
    Inv { s with sent := s.sent ++ [s.args.start], pc := .awaitFirst, reader := .reading } := by
  obtain ⟨habsent, hreceived, hsent, hcancelled⟩ := h.pcAt hs
  obtain ⟨hfirst, hgot, hcalls⟩ := h.reader.readerAt habsent
  refine ⟨⟨hfirst, hgot, ?_, ?_⟩, nofun, hgot, by rw [hsent]; rfl, hcancelled⟩
  · intro r hr
    rw [hreceived] at hr
    exact absurd hr List.not_mem_nil
  · rw [hcalls, hreceived]
    unfold called
    split <;> rfl

/-- The start met a stream that had ended: what is read now is why. -/
theorem Inv.refusal (h : Inv s) (hs : s.pc = .refused) (hdu : s.recv = some (d, u)) :
    Inv (u.refusal d) := by
  obtain ⟨habsent, -, hsent, hcancelled⟩ := h.pcAt hs
  have hreader := h.reader.readerAt habsent
  rcases recv_cases hdu with ⟨r, rest, -, rfl, rfl⟩ | ⟨-, e, he, rfl, rfl⟩
  · -- there was a response instead, which is not looked at
    refine Inv.exit ?_ (.inr (.inl ⟨hsent, hcancelled⟩)) (judged_error _ rfl)
    unfold ReaderInv
    rw [habsent]
    exact hreader
  · have hboth : u.sent = [] ∧ u.cancelled = false ∨ u.SentStart :=
      .inr (.inl ⟨hsent, hcancelled⟩)
    obtain ⟨err, trailer⟩ := e
    cases err with
    | eof => exact Inv.exit h.reader hboth (judged_error u rfl)
    | failed status =>
      dsimp only [Execute.refusal]
      split
      · rename_i b hb
        exact Inv.exit h.reader hboth (judged_busy he rfl hb)
      · exact Inv.exit h.reader hboth (judged_error u rfl)

/-- What is in the channel was delivered, and nothing was taken from it before. -/
theorem ReaderInv.take (h : s.ReaderInv) (hfirst : s.first = some d) :
    (s.take d).ReaderInv := by
  unfold ReaderInv at h ⊢
  unfold Execute.take
  cases hr : s.reader <;> rw [hr] at h
  case done =>
    obtain ⟨⟨d', hd', hholds⟩, hall⟩ := h
    rcases hd' with ⟨hd, -⟩ | ⟨hnone, -⟩
    · obtain rfl := Option.some.inj (hfirst.symm.trans hd)
      exact ⟨⟨d, .inr ⟨rfl, rfl⟩, hholds⟩, hall⟩
    · exact absurd (hnone.symm.trans hfirst) nofun
  all_goals exact absurd (h.1.symm.trans hfirst) nofun

/-- What was taken from it holds. -/
theorem ReaderInv.got (h : s.ReaderInv) (hgot : s.got = some d) :
    s.reader = .done ∧ s.Holds d := by
  unfold ReaderInv at h
  cases hr : s.reader <;> rw [hr] at h
  case done =>
    obtain ⟨⟨d', hd', hholds⟩, -⟩ := h
    rcases hd' with ⟨-, hnone⟩ | ⟨-, hd⟩
    · exact absurd (hnone.symm.trans hgot) nofun
    · obtain rfl := Option.some.inj (hgot.symm.trans hd)
      exact ⟨rfl, hholds⟩
  all_goals exact absurd (h.2.1.symm.trans hgot) nofun

/-- `Execute` takes what the reader delivered, with or without a cancellation before. -/
theorem Inv.take (h : Inv s)
    (hs : s.pc = .awaitFirst ∨ s.pc = .awaitArrived ∨ s.pc = .awaitAnswer)
    (hfirst : s.first = some d) : Inv (s.take d) := by
  refine ⟨h.reader.take hfirst, nofun, ?_⟩
  rcases hs with hs | hs | hs
  · exact .inl (h.pcAt hs).2.2
  · exact .inl (h.pcAt hs).2.2
  · exact .inr (h.pcAt hs).2.2

/-- The sending side is closed, and the delivery decides. -/
theorem Inv.closed (h : Inv s) (hs : s.pc = .closeSend) : Inv (s.judge s.got) := by
  obtain ⟨hsome, hsent⟩ := h.pcAt hs
  obtain ⟨d, hgot⟩ := Option.ne_none_iff_exists'.mp hsome
  obtain ⟨-, hholds⟩ := h.reader.got hgot
  rw [hgot]
  cases d with
  | response r => exact ⟨h.reader, hgot, hsent⟩
  | error e =>
    obtain ⟨err, trailer⟩ := e
    cases err with
    | eof => exact Inv.exit h.reader (.inr hsent) (judged_error _ rfl)
    | failed status =>
      dsimp only [judge]
      split
      · rename_i b hb
        exact Inv.exit h.reader (.inr hsent) (judged_busy hholds rfl hb)
      · exact Inv.exit h.reader (.inr hsent) (judged_error _ rfl)

/-- The one way to no error: the end of the stream, no cancellation and no reported failure. -/
theorem judged_finish {e : StreamEnd}
    (hfirst : firstFinal s.received = some r) (hended : s.ended = some e) (heof : e.err = .eof)
    (hcancelled : s.cancelled = false) (hdetail : failure r.errorDetail = none) :
    s.Judged { resp := some r } where
  clean := fun _ => ⟨hcancelled, r, rfl, hfirst, hdetail, e, hended, heof⟩
  cancelled := fun hc => absurd (hcancelled.symm.trans hc) nofun
  busy := fun _ _ herr => absurd herr nofun

/-- A response that comes after the first one is read and dropped. -/
theorem Inv.dropped {r' : StreamResponse F} (h : Inv s) (hs : s.pc = .drain r)
    (hdu : s.recv = some (.response r', u)) : Inv u := by
  obtain ⟨hgot, hsent⟩ := h.pcAt hs
  obtain ⟨hdone, hfirst⟩ := h.reader.got hgot
  rcases recv_cases hdu with ⟨r'', rest, -, -, rfl⟩ | ⟨-, e, -, hd, -⟩
  · refine ⟨h.reader.grows_done hdone ⟨rfl, rfl, List.prefix_append _ _, fun _ he => he⟩ hdone
      rfl rfl rfl (interims_append_of_firstFinal hfirst _), ?_⟩
    unfold PcInv
    rw [hs]
    exact ⟨hgot, hsent⟩
  · cases hd

theorem Inv.finished {e : StreamEnd} (h : Inv s) (hs : s.pc = .drain r)
    (hdu : s.recv = some (.error e, u)) : Inv (u.finishWith r e.err) := by
  obtain ⟨hgot, hsent⟩ := h.pcAt hs
  obtain ⟨-, hholds⟩ := h.reader.got hgot
  rcases recv_cases hdu with ⟨r', rest, -, hd, -⟩ | ⟨-, e', he, hd, rfl⟩
  · cases hd
  · obtain rfl := Delivery.error.inj hd
    obtain ⟨err, trailer⟩ := e
    cases err with
    | failed status => exact Inv.exit h.reader (.inr hsent) (judged_error _ rfl)
    | eof =>
      dsimp only [finishWith]
      split
      · exact Inv.exit h.reader (.inr hsent) (judged_error _ (asBusy_ctxErr u))
      · rename_i hcancelled
        split
        · exact Inv.exit h.reader (.inr hsent) (judged_error _ rfl)
        · rename_i hdetail
          exact Inv.exit h.reader (.inr hsent)
            (judged_finish hholds he rfl (Bool.eq_false_iff.mpr hcancelled) hdetail)

/-- **Every step keeps the invariants.** -/
theorem inv_step (h : Inv s) (hstep : ExecuteStep s e t) : Inv t := by
  cases moves_of_step hstep with
  | write hnone | ctxEnds hnone | callerEnds hcaller => exact h.outside ⟨rfl, fun _ he => he⟩
  | finish hnone => exact h.outside ⟨rfl, fun _ he => absurd (hnone.symm.trans he) nofun⟩
  | read hr hdu => exact h.read hr hdu
  | call hr => exact h.call hr
  | notOpened hs herr => exact Inv.exit h.reader (.inl (h.pcAt hs).2.2) (judged_error s herr)
  | opened hs | late hs =>
    have hpc := h.pcAt hs
    exact ⟨h.reader, hpc⟩
  | started hs => exact h.started hs
  | startRefused hs =>
    obtain ⟨habsent, hreceived, hsent, hcancelled⟩ := h.pcAt hs
    exact ⟨h.reader, habsent, hreceived, by rw [hsent]; rfl, hcancelled⟩
  | startFailed hs herr =>
    obtain ⟨-, -, hsent, hcancelled⟩ := h.pcAt hs
    exact Inv.exit h.reader (.inr (.inl ⟨by rw [hsent]; rfl, hcancelled⟩)) (judged_error _ herr)
  | refusal hs hdu => exact h.refusal hs hdu
  | take hs hfirst => exact h.take hs hfirst
  | giveUp hs hown =>
    rcases hs with hs | hs <;> have hpc := h.pcAt hs <;> exact ⟨h.reader, hpc⟩
  | cancelFailed hs herr =>
    obtain ⟨-, -, hsent, -⟩ := h.pcAt hs
    exact Inv.exit h.reader (.inr (.inr ⟨by rw [hsent]; rfl, rfl⟩)) (judged_error _ herr)
  | cancelSent hs =>
    obtain ⟨hpresent, hgot, hsent, -⟩ := h.pcAt hs
    exact ⟨h.reader, hpresent, hgot, by rw [hsent]; rfl, rfl⟩
  | unanswered hs herr =>
    exact Inv.exit h.reader (.inr (.inr (h.pcAt hs).2.2)) (judged_error s herr)
  | closeFailed hs herr => exact Inv.exit h.reader (.inr (h.pcAt hs).2) (judged_error s herr)
  | closed hs => exact h.closed hs
  | dropped hs hdu => exact h.dropped hs hdu
  | finished hs hdu => exact h.finished hs hdu

theorem inv_run {args : ExecuteArgs} {ctx : Option CtxEnd} {es : List (ExecuteEvent F)}
    (h : Lts.Run ExecuteStep (init args ctx) es t) : Inv t :=
  h.invariant (inv_init args ctx) fun _ _ _ ha hs => inv_step ha hs

/-! ## A call returns once the stream has ended -/

/-- How far `Execute` is from returning, while it does not read. -/
def pcWeight : ExecutePc F → Nat
  | .entry => 12
  | .sendStart => 11
  | .refused => 1
  | .awaitFirst => 8
  | .awaitArrived => 7
  | .sendCancel => 6
  | .awaitAnswer => 5
  | .closeSend => 4
  | .drain _ => 3
  | .returned _ => 0

def readerWeight : ReaderPc F → Nat
  | .reading => 1
  | .handling _ => 2
  | _ => 0

/-- What is left to happen on a stream that has ended. -/
def weight (s : Execute F) : Nat :=
  3 * s.pending.length + pcWeight s.pc + readerWeight s.reader
    + (if s.ctx.isNone then 1 else 0) + if s.callerDone then 0 else 1

theorem refusal_eq (s : Execute F) (d : Delivery F) :
    ∃ o, s.refusal d = { s with pc := .returned o } := by
  unfold refusal
  split
  · split <;> exact ⟨_, rfl⟩
  · exact ⟨_, rfl⟩

theorem finishWith_eq (s : Execute F) (r : StreamResponse F) (e : StreamError) :
    ∃ o, s.finishWith r e = { s with pc := .returned o } := by
  unfold finishWith
  split
  · exact ⟨_, rfl⟩
  · split
    · exact ⟨_, rfl⟩
    · split <;> exact ⟨_, rfl⟩

theorem judge_eq (s : Execute F) (d : Delivery F) :
    ∃ pc, s.judge (some d) = { s with pc } ∧ pcWeight pc ≤ 3 := by
  unfold judge
  split
  · exact ⟨_, rfl, le_refl _⟩
  · exact ⟨_, rfl, Nat.zero_le _⟩
  · split <;> exact ⟨_, rfl, Nat.zero_le _⟩
  · rename_i hnone
    cases hnone

/-- The responses that a `Recv` takes from the stream. -/
def taken : Delivery F → Nat
  | .response _ => 1
  | .error _ => 0

theorem deliver_eq (s : Execute F) (d : Delivery F) : ∃ reader first,
    s.deliver d = { s with reader, first } ∧ readerWeight reader ≤ 2 * taken d := by
  cases d with
  | error e => exact ⟨_, _, rfl, le_refl _⟩
  | response r =>
    unfold deliver
    dsimp only
    split
    · exact ⟨_, _, rfl, le_refl _⟩
    · exact ⟨_, _, rfl, Nat.zero_le _⟩

/-- What `Recv` uses up: a response, or nothing at the end. -/
theorem recv_weight (h : s.recv = some (d, u)) :
    u = { s with pending := u.pending, received := u.received }
      ∧ s.pending.length = u.pending.length + taken d := by
  rcases recv_cases h with ⟨r, rest, hpending, rfl, rfl⟩ | ⟨-, e, -, rfl, rfl⟩
  · exact ⟨rfl, by rw [hpending]; rfl⟩
  · exact ⟨rfl, rfl⟩

/-- A step moves `Execute` or its reader on; a response that is read is worth three steps. -/
theorem weight_lt (hctx : t.ctx = s.ctx) (hcaller : t.callerDone = s.callerDone)
    (h : 3 * t.pending.length + pcWeight t.pc + readerWeight t.reader
      < 3 * s.pending.length + pcWeight s.pc + readerWeight s.reader) : t.weight < s.weight := by
  unfold weight
  rw [hctx, hcaller]
  omega

/-- A step that reads, and returns. -/
theorem weight_lt_of_return (hrecv : s.recv = some (d, u)) (hpc : 0 < pcWeight s.pc)
    (o : Outcome F) : weight { u with pc := .returned o } < s.weight ∧ u.ended = s.ended := by
  obtain ⟨hu, hlength⟩ := recv_weight hrecv
  rw [hu]
  refine ⟨weight_lt rfl rfl ?_, rfl⟩
  show 3 * u.pending.length + 0 + readerWeight s.reader < _
  omega

/-- **On a stream that has ended every step uses something up.** -/
theorem step_weight (h : Inv s) (hended : s.ended ≠ none)
    (hstep : ExecuteStep s e t) : t.weight < s.weight ∧ t.ended = s.ended := by
  -- a step of `Execute` that reads nothing only has to lower the weight of its place
  have hmoved : ∀ {pc} {t : Execute F}, s.pc = pc → t.pending = s.pending → t.ctx = s.ctx →
      t.callerDone = s.callerDone → t.ended = s.ended → t.reader = s.reader →
      pcWeight t.pc < pcWeight pc → t.weight < s.weight ∧ t.ended = s.ended := by
    intro pc t hs hpending hctx hcaller hend hreader hlt
    exact ⟨weight_lt hctx hcaller (by rw [hpending, hreader, hs]; omega), hend⟩
  cases moves_of_step hstep with
  | write hnone => exact absurd hnone hended
  | finish hnone => exact absurd hnone hended
  | ctxEnds hnone =>
    refine ⟨?_, rfl⟩
    unfold weight
    rw [hnone]
    simp
  | callerEnds hcaller =>
    refine ⟨?_, rfl⟩
    unfold weight
    rw [hcaller]
    simp
  | @read d u hr hdu =>
    obtain ⟨hu, hlength⟩ := recv_weight hdu
    obtain ⟨reader, first, heq, htwo⟩ := deliver_eq u d
    have hone : readerWeight s.reader = 1 := by rw [hr]; rfl
    rw [heq, hu]
    refine ⟨weight_lt rfl rfl ?_, rfl⟩
    dsimp only
    omega
  | call hr =>
    refine ⟨weight_lt rfl rfl ?_, rfl⟩
    rw [hr]
    exact Nat.lt_succ_self _
  | notOpened hs _ | opened hs | startRefused hs | startFailed hs _ | late hs | cancelFailed hs _
  | cancelSent hs | unanswered hs _ | closeFailed hs _ =>
    exact hmoved hs rfl rfl rfl rfl rfl (Nat.le_of_ble_eq_true rfl)
  | started hs =>
    refine ⟨weight_lt rfl rfl ?_, rfl⟩
    rw [hs]
    simp only [pcWeight, readerWeight]
    omega
  | @refusal d u hs hdu =>
    obtain ⟨o, heq⟩ := refusal_eq u d
    rw [heq]
    exact weight_lt_of_return hdu (by rw [hs]; exact Nat.le_of_ble_eq_true rfl) o
  | take hs _ =>
    rcases hs with hs | hs | hs
    all_goals exact hmoved hs rfl rfl rfl rfl rfl (Nat.le_of_ble_eq_true rfl)
  | giveUp hs _ =>
    rcases hs with hs | hs
    all_goals exact hmoved hs rfl rfl rfl rfl rfl (Nat.le_of_ble_eq_true rfl)
  | closed hs =>
    obtain ⟨d, hgot⟩ := Option.ne_none_iff_exists'.mp (h.pcAt hs).1
    obtain ⟨pc, heq, hthree⟩ := judge_eq s d
    rw [hgot, heq]
    exact hmoved hs rfl rfl rfl rfl rfl (Nat.lt_of_le_of_lt hthree (Nat.lt_succ_self 3))
  | dropped hs hdu =>
    obtain ⟨hu, hlength⟩ := recv_weight hdu
    rw [hu]
    refine ⟨weight_lt rfl rfl ?_, rfl⟩
    dsimp only [taken] at hlength ⊢
    omega
  | @finished r e u hs hdu =>
    obtain ⟨o, heq⟩ := finishWith_eq u r e.err
    rw [heq]
    exact weight_lt_of_return hdu (by rw [hs]; exact Nat.le_of_ble_eq_true rfl) o

/-- `Execute` has returned. -/
def Returned (s : Execute F) : Prop := ∃ o, s.pc = .returned o

/-- `Recv` does not block on a stream that has ended. -/
theorem recv_of_ended (h : s.ended ≠ none) : ∃ d u, s.recv = some (d, u) := by
  unfold recv
  obtain ⟨e, he⟩ := Option.ne_none_iff_exists'.mp h
  cases s.pending with
  | cons r rest => exact ⟨_, _, rfl⟩
  | nil =>
    rw [he]
    exact ⟨_, _, rfl⟩

/-- Some event of `Execute` or its reader can happen. -/
def CanMove (s : Execute F) : Prop := ∃ e t, own e = true ∧ ExecuteStep s e t

theorem canMove_of_isSome (e : ExecuteEvent F) (hown : own e = true)
    (h : (s.step e).isSome = true) : s.CanMove := by
  obtain ⟨t, ht⟩ := Option.isSome_iff_exists.mp h
  exact ⟨e, t, hown, ht⟩

section

variable (h : Inv s) (hended : s.ended ≠ none)
include h hended

/-- A reader that is there has something to do, or has delivered. -/
theorem first_or_canMove (hreader : s.reader ≠ .absent) (hgot : s.got = none) :
    s.first ≠ none ∨ s.CanMove := by
  have hinv := h.reader
  unfold ReaderInv at hinv
  cases hr : s.reader <;> rw [hr] at hinv
  case absent => exact absurd hr hreader
  case reading =>
    obtain ⟨d, u, hdu⟩ := recv_of_ended hended
    exact .inr (canMove_of_isSome .read rfl (by simp [step, hr, hdu]))
  case handling r => exact .inr (canMove_of_isSome .call rfl (by simp [step, hr]))
  case done =>
    obtain ⟨⟨d, hd, -⟩, -⟩ := hinv
    rcases hd with ⟨hd, -⟩ | ⟨-, hd⟩
    · exact .inl (by rw [hd]; exact nofun)
    · exact absurd (hgot.symm.trans hd) nofun

/-- **Until it has returned, there is a step** that does not wait for anyone. -/
theorem returned_or_canMove : s.Returned ∨ s.CanMove := by
  have hpc := h.pc
  unfold PcInv at hpc
  -- in a select, either the reader moves or what it delivered is taken
  have hwaiting : s.pc = .awaitFirst ∨ s.pc = .awaitArrived ∨ s.pc = .awaitAnswer →
      s.reader ≠ .absent → s.got = none → s.CanMove := by
    intro hs hreader hgot
    rcases first_or_canMove h hended hreader hgot with hfirst | hmove
    · obtain ⟨d, hd⟩ := Option.ne_none_iff_exists'.mp hfirst
      refine canMove_of_isSome .selectFirst rfl ?_
      rcases hs with hs | hs | hs <;> simp [step, hs, hd]
    · exact hmove
  obtain ⟨d, u, hdu⟩ := recv_of_ended hended
  cases hs : s.pc <;> rw [hs] at hpc
  case returned o => exact .inl ⟨o, hs⟩
  case entry =>
    refine .inr (canMove_of_isSome (.openStream none) rfl ?_)
    cases hctx : s.ctx <;> simp [step, hs, hctx]
  case sendStart => exact .inr (canMove_of_isSome (.sendStart none) rfl (by simp [step, hs]))
  case refused => exact .inr (canMove_of_isSome .recvRefusal rfl (by simp [step, hs, hdu]))
  case awaitFirst => exact .inr (hwaiting (.inl hs) hpc.1 hpc.2.1)
  case awaitArrived => exact .inr (hwaiting (.inr (.inl hs)) hpc.1 hpc.2.1)
  case sendCancel => exact .inr (canMove_of_isSome (.sendCancel none) rfl (by simp [step, hs]))
  case awaitAnswer => exact .inr (hwaiting (.inr (.inr hs)) hpc.1 hpc.2.1)
  case closeSend => exact .inr (canMove_of_isSome (.closeSend none) rfl (by simp [step, hs]))
  case drain r => exact .inr (canMove_of_isSome .drain rfl (by simp [step, hs, hdu]))

/-- Once the stream has ended, so many steps are left, and one of them until `Execute` returns. -/
theorem run_weight {es : List (ExecuteEvent F)} (hrun : Lts.Run ExecuteStep s es t) :
    es.length + t.weight ≤ s.weight ∧ t.ended ≠ none ∧ Inv t := by
  induction hrun with
  | nil => exact ⟨by simp, hended, h⟩
  | @snoc es e t u _ hs ih =>
    obtain ⟨hlength, hend, hinv⟩ := ih
    obtain ⟨hlt, hsame⟩ := step_weight hinv hend hs
    refine ⟨?_, by rw [hsame]; exact hend, inv_step hinv hs⟩
    rw [List.length_append, List.length_singleton]
    omega

end

/-! ## The protocol -/

/-- What holds of a call at any time, and of what it returns. -/
structure Protocol (t : Execute F) : Prop where
  /-- one start at most, and one cancellation at most, only after it -/
  sent : t.sent = [] ∨ t.sent = [t.args.start] ∨ t.sent = [t.args.start, .cancellation]
  /-- what no error means -/
  clean : ∀ resp, t.pc = .returned { resp, err := none } → .cancellation ∉ t.sent
    ∧ ∃ r, resp = some r ∧ firstFinal t.received = some r
      ∧ (∀ detail, r.errorDetail = some detail → detail.code = 0)
      ∧ ∃ e, t.ended = some e ∧ e.err = .eof
  /-- a run that was cut short is an error -/
  cancelled : .cancellation ∈ t.sent → ∀ o, t.pc = .returned o → o.err ≠ none
  /-- what a refusal means -/
  busy : ∀ o err b, t.pc = .returned o → o.err = some err → err.asBusy = some b →
    ∃ e status, t.ended = some e ∧ e.err = .failed status
      ∧ status.code = Code.resourceExhausted ∧ e.trailer ≠ []
  /-- `progress.Fn` is called for the responses before the first one without progress, in order
  and once each; for all that were read while the next is awaited, and once the reader is done -/
  calls : t.calls <+: called t.args (interims t.received)
    ∧ (t.reader = .reading ∨ t.reader = .done → t.calls = called t.args (interims t.received))
  /-- once the stream has ended, the call returns -/
  returns : t.ended ≠ none → ∀ es u, Lts.Run ExecuteStep t es u →
    es.length ≤ t.weight ∧ (u.Returned ∨ u.CanMove)

theorem SentStart.mem_iff (h : s.sent = [] ∧ s.cancelled = false ∨ s.SentStart) :
    ExecutionRequest.cancellation ∈ s.sent ↔ s.cancelled = true := by
  rcases h with ⟨hsent, hc⟩ | ⟨hsent, hc⟩ | ⟨hsent, hc⟩
  all_goals
    rw [hsent, hc]
    simp [ExecuteArgs.start]

theorem Inv.sent (h : Inv s) : s.sent = [] ∧ s.cancelled = false ∨ s.SentStart := by
  have hpc := h.pc
  unfold PcInv at hpc
  cases hs : s.pc <;> rw [hs] at hpc
  case entry | sendStart => exact .inl hpc.2.2
  case awaitAnswer => exact .inr (.inr hpc.2.2)
  case closeSend | drain r => exact .inr hpc.2
  case returned o => exact hpc.1
  all_goals exact .inr (.inl hpc.2.2)

theorem Inv.judged {o : Outcome F} (h : Inv s) (hs : s.pc = .returned o) : s.Judged o :=
  (h.pcAt hs).2.grows ⟨rfl, rfl, List.prefix_rfl, fun _ he => he⟩

theorem Inv.calls (h : Inv s) : s.calls <+: called s.args (interims s.received)
    ∧ (s.reader = .reading ∨ s.reader = .done →
      s.calls = called s.args (interims s.received)) := by
  have hinv := h.reader
  unfold ReaderInv at hinv
  cases hr : s.reader <;> rw [hr] at hinv
  case absent =>
    rw [hinv.2.2]
    exact ⟨List.nil_prefix, by simp⟩
  case reading =>
    have hall : s.calls = called s.args (interims s.received) := by
      rw [interims_of_all hinv.2.2.1, hinv.2.2.2]
    exact ⟨hall ▸ List.prefix_rfl, fun _ => hall⟩
  case handling r =>
    -- the last of them is still to be handed on
    obtain ⟨-, -, hall, before, hreceived, hcalls⟩ := hinv
    rw [interims_of_all hall, hcalls, hreceived]
    exact ⟨called_isPrefix (List.prefix_append _ _), by simp⟩
  case done => exact ⟨hinv.2 ▸ List.prefix_rfl, fun _ => hinv.2⟩

theorem failure_eq_none {s : Option RpcStatus} (h : failure s = none) :
    ∀ detail, s = some detail → detail.code = 0 := by
  rintro detail rfl
  by_contra hne
  have hsome : failure (some detail) = some detail := by
    have hcode : detail.code ≠ Code.ok := hne
    unfold failure
    rw [Option.filter_some, if_pos (decide_eq_true hcode)]
  exact absurd (hsome.symm.trans h) nofun

end Execute

open Execute in
/-- **The protocol of `Execute`**, for everything the service, the network, the context and the
caller may do, in any order. -/
theorem execute_protocol {args : ExecuteArgs} {ctx : Option CtxEnd} {es : List (ExecuteEvent F)}
    {t : Execute F} (h : Lts.Run ExecuteStep (Execute.init args ctx) es t) : Protocol t where
  sent := by
    rcases (inv_run h).sent with ⟨hsent, -⟩ | ⟨hsent, -⟩ | ⟨hsent, -⟩
    · exact .inl hsent
    · exact .inr (.inl hsent)
    · exact .inr (.inr hsent)
  clean := by
    intro resp hs
    obtain ⟨hcancelled, r, hr, hfirst, hdetail, hend⟩ := ((inv_run h).judged hs).clean rfl
    refine ⟨fun hmem => ?_, r, hr, hfirst, failure_eq_none hdetail, hend⟩
    exact absurd (hcancelled.symm.trans ((SentStart.mem_iff (inv_run h).sent).mp hmem)) nofun
  cancelled := fun hmem _ hs =>
    ((inv_run h).judged hs).cancelled ((SentStart.mem_iff (inv_run h).sent).mp hmem)
  busy := fun _ err b hs => ((inv_run h).judged hs).busy err b
  calls := (inv_run h).calls
  returns := by
    intro hended es' u hrun
    obtain ⟨hlength, hend, hinv⟩ := run_weight (inv_run h) hended hrun
    exact ⟨by omega, returned_or_canMove hinv hend⟩

/-- A call that asks for progress. -/
def progressArgs : ExecuteArgs :=
  { opts := {}, progress := some { interval := Span.ofSeconds 1, fn := true } }

/-- One interim response and then the final one, on a stream that ends. -/
def cleanEvents : List (ExecuteEvent Nat) :=
  [.openStream none, .sendStart none, .write { progress := some none }, .read, .call,
    .write { output := some {} }, .read, .selectFirst, .closeSend none, .finish 0 { err := .eof },
    .drain]

/-- The caller's context ends, and the service answers the cancellation with what it has. -/
def cancelledEvents : List (ExecuteEvent Nat) :=
  [.openStream none, .sendStart none, .ctxEnds { err := .canceled }, .selectDone, .sendCancel none,
    .write { output := some {} }, .finish 1 { err := .eof }, .read, .selectFirst, .closeSend none,
    .drain]

theorem execute_protocol_runs : ∃ t u,
    Lts.Run ExecuteStep (Execute.init progressArgs none) cleanEvents t
      ∧ Lts.Run ExecuteStep (Execute.init progressArgs none) cancelledEvents u
      ∧ t.Protocol ∧ t.pc = .returned { resp := some { output := some {} } }
      ∧ t.calls.length = 1 ∧ u.Protocol ∧ u.sent.length = 2
      ∧ u.pc = .returned { resp := some { output := some {} }
                           err := some (.wrap "execution cancelled: " (.ctx .canceled) "") } :=
  ⟨_, _, Lts.Run.of_foldlM_and rfl fun ht => Lts.Run.of_foldlM_and rfl fun hu =>
    ⟨execute_protocol ht, rfl, rfl, execute_protocol hu, rfl, rfl⟩⟩

end Sortie.Nh
