import Sortie.Proof.StreamCalls

/-!
# The runs of a streaming client

`Handlers.Sound` says what a client has to do in its own ways, and what is said here holds
of every client that does: `Base` is kept by every call, and `Stage` says how far the
client has come. A stream that is settled stays settled, so what `prepare` found when it
returned stays true.
-/

namespace Sortie.Engine.StreamClient

variable {τ ρ R : Type} {c c' : StreamClient τ ρ} {i : Nat} {heard : Bool → Bool → Bool}

/-- `terminate` is done with a stream. -/
structure Ends (heard : Bool → Bool → Bool) (c c' : StreamClient τ ρ) (i : Nat) : Prop where
  moves : Moves c c'
  opens : c'.opens = c.opens
  inv : Inv heard c'
  closed : (c'.streams i).state = .closed
  cancelled : (c.streams i).state ≠ .opening → c'.cancelled = c.cancelled

/-- What a client has to do in its own ways for its books to be right; `settles` says that its
`prepare` leaves no stream opening. -/
structure Handlers.Sound (H : Handlers τ ρ R) (heard : Bool → Bool → Bool) (settles : Prop) :
    Prop where
  flavour : H.toFlavour.Sound heard
  /-- a new stream is not past opening -/
  unheard : heard false false = false
  settle : ∀ (c : StreamClient τ ρ) (i : Nat) (signals : List Signal), Base heard c →
    c.waitingFor = .nothing → i < c.config.streamCount.toNat → i < c.opens →
    Safe heard c (H.settle c i signals)
      ∧ (settles → ((H.settle c i signals).streams i).state ≠ .opening)
  /-- the headers of a response settle its stream -/
  response : ∀ (c : StreamClient τ ρ) (i : Nat) (r : R) (now : Nat) (raises : Nat → List Signal),
    Base heard c → i < c.config.streamCount.toNat → (c.streams i).attached = true →
    (c.streams i).answered = true ∨ H.isHeaders r = true →
    Safe heard c (H.onResponse c i r now raises)
      ∧ (H.isHeaders r = true → ((H.onResponse c i r now raises).streams i).state ≠ .opening)
  terminate : ∀ (c : StreamClient τ ρ) (i : Nat) (signals : List Signal), Base heard c →
    c.waitingFor = .nothing → i < c.config.streamCount.toNat → i < c.opens →
    Ends heard c (H.terminateStream c i signals) i

/-- How far a client has come. -/
structure Stage (settles : Prop) (c : StreamClient τ ρ) : Prop where
  opens : c.opens = if c.prepared then c.config.streamCount.toNat else 0
  waits : c.waitingFor ≠ .nothing → c.prepared = true
  closes : c.waitingFor = .closes → c.finished = true
  done : c.finished = true → c.prepared = true
  settled : settles → c.prepared = true → c.waitingFor ≠ .opens →
    ∀ i < c.config.streamCount.toNat, (c.streams i).state ≠ .opening
  uncancelled : settles → c.cancelled = 0
  terminated : c.terminated = true →
    c.finished = true ∧ ∀ i < c.config.streamCount.toNat, (c.streams i).state = .closed

variable {settles : Prop} {config : Config}

/-- The stage of a client that was prepared. -/
theorem Stage.of_prepared (hp : c.prepared = true) (hopens : c.opens = c.config.streamCount.toNat)
    (hcloses : c.waitingFor = .closes → c.finished = true)
    (hsettled : settles → c.waitingFor ≠ .opens →
      ∀ i < c.config.streamCount.toNat, (c.streams i).state ≠ .opening)
    (huncancelled : settles → c.cancelled = 0)
    (hterminated : c.terminated = true →
      c.finished = true ∧ ∀ i < c.config.streamCount.toNat, (c.streams i).state = .closed) :
    Stage settles c where
  opens := by rw [hopens, if_pos hp]
  waits := fun _ => hp
  closes := hcloses
  done := fun _ => hp
  settled := fun hs _ => hsettled hs
  uncancelled := huncancelled
  terminated := hterminated

theorem Stage.of_follows (h : Stage settles c) (hf : Follows c c') : Stage settles c' := by
  constructor
  case opens => rw [hf.opens, hf.prepared, hf.config, h.opens]
  case waits =>
    rw [hf.waitingFor, hf.prepared]
    exact h.waits
  case closes =>
    rw [hf.waitingFor, hf.finished]
    exact h.closes
  case done =>
    rw [hf.finished, hf.prepared]
    exact h.done
  case settled =>
    rw [hf.prepared, hf.waitingFor, hf.config]
    exact fun hs hp hw i hi ho => h.settled hs hp hw i hi (hf.opening i ho)
  case uncancelled =>
    rw [hf.cancelled]
    exact h.uncancelled
  case terminated =>
    rw [hf.terminated, hf.finished, hf.config]
    exact fun ht => ⟨(h.terminated ht).1, fun i hi => hf.closed i ((h.terminated ht).2 i hi)⟩

/-- What holds between calls. -/
structure Kept (heard : Bool → Bool → Bool) (settles : Prop) (config : Config)
    (c : StreamClient τ ρ) :
    Prop where
  config : c.config = config
  base : Base heard c
  stage : Stage settles c

theorem Kept.safe (h : Kept heard settles config c) (hs : Safe heard c c') :
    Kept heard settles config c' :=
  ⟨hs.moves.config.trans h.config, h.base.safe hs, h.stage.of_follows hs.follows⟩

/-- The streams of a client that was prepared were all asked for. -/
theorem Stage.lt_opens (h : Stage settles c) (hp : c.prepared = true)
    (hi : i < c.config.streamCount.toNat) : i < c.opens := by
  rw [h.opens, if_pos hp]
  exact hi

/-- A wait for closes begins, or any wait is over. -/
theorem Base.rest {w : WaitingFor} {e t : Bool} (h : Base heard c) (hw : w ≠ .opens) :
    Base heard { c with waitingFor := w, exited := e, waitTimer := t } :=
  { h with
    inv := { h.inv with patient := fun h => absurd h hw }
    woken := fun h => absurd h hw }

theorem awaited_eq_empty_iff :
    c.awaited = ∅ ↔ ∀ i < c.opens, (c.streams i).state ≠ .opening := by
  unfold awaited
  rw [Finset.filter_eq_empty_iff]
  exact ⟨fun h i hi => h (Finset.mem_range.mpr hi), fun h i hi => h i (Finset.mem_range.mp hi)⟩

/-- The count of pending opens is zero exactly if no stream opens. -/
theorem Inv.pendingOpens_eq_zero_iff (h : Inv heard c) :
    c.pendingOpens = 0 ↔ ∀ i < c.opens, (c.streams i).state ≠ .opening := by
  rw [h.pending, Finset.card_eq_zero, awaited_eq_empty_iff]

/-! ## The calls -/

section Handlers

variable {H : Handlers τ ρ R} (hH : H.Sound heard settles)

include hH

section

variable (h : Kept heard settles config c)
include h

/-- The streams were asked for, and `prepare` waits if one of them opens. -/
theorem kept_prepare (hp : c.prepared = false) (message : List UInt8) (openings : Nat → Opening) :
    Kept heard settles config (c.prepare H.toFlavour message openings)
      ∧ (c.prepare H.toFlavour message openings).callbacks.calls = c.callbacks.calls
      ∧ (c.prepare H.toFlavour message openings).prepared = true
      ∧ ((c.prepare H.toFlavour message openings).waitingFor = .opens ↔
        (c.prepare H.toFlavour message openings).pendingOpens ≠ 0) := by
  -- a client that was not prepared has done nothing yet
  have hnothing : c.waitingFor = .nothing := by
    by_contra hw
    exact nomatch hp.symm.trans (h.stage.waits hw)
  have hfinished : c.finished = false := by
    refine eq_false_of_ne_true fun hf => ?_
    exact nomatch hp.symm.trans (h.stage.done hf)
  have hterminated : c.terminated = false := by
    refine eq_false_of_ne_true fun ht => ?_
    exact nomatch hfinished.symm.trans (h.stage.terminated ht).1
  have hopens : c.opens = 0 := by
    rw [h.stage.opens, hp]
    rfl
  unfold prepare
  dsimp only
  obtain ⟨hbase, hframe, hcancel, hall⟩ := base_openStreams hH.flavour
    (c := { c with message := message, prepared := true })
    { h.base with inv := { h.base.inv with } } hnothing hopens openings rfl
  set d := eachStream { c with message := message, prepared := true }
    (fun c i => c.openStream H.toFlavour i (openings i)) with hd
  have hconfig : d.config = c.config := hframe.config
  have hcancelled : settles → d.cancelled = 0 := by
    rw [hcancel]
    exact h.stage.uncancelled
  have hrunning : d.terminated ≠ true := by
    rw [hframe.terminated]
    exact fun ht => nomatch hterminated.symm.trans ht
  split
  next hpending =>
    refine ⟨⟨hconfig.trans h.config, hbase, Stage.of_prepared hframe.prepared
      (hall.trans (by rw [hconfig])) (fun hw => ?_) (fun _ _ i hi => ?_) hcancelled
      (fun ht => absurd ht hrunning)⟩, hframe.calls, hframe.prepared, ?_⟩
    · rw [hframe.waitingFor, hnothing] at hw
      cases hw
    · refine hbase.inv.pendingOpens_eq_zero_iff.mp hpending i ?_
      rw [hall, ← hconfig]
      exact hi
    · rw [hframe.waitingFor, hnothing]
      exact ⟨fun hw => (by cases hw), fun hn => absurd hpending hn⟩
  next hpending =>
    refine ⟨⟨hconfig.trans h.config, { hbase with
      inv := { hbase.inv with patient := fun _ he => by cases he }
      woken := fun _ h0 => absurd h0 hpending }, ?_⟩, hframe.calls, hframe.prepared,
      ⟨fun _ => hpending, fun _ => rfl⟩⟩
    exact Stage.of_prepared hframe.prepared (hall.trans (by rw [hconfig])) nofun
      (fun _ hw => absurd rfl hw) hcancelled (fun ht => absurd ht hrunning)

theorem kept_prepareWait (hw : c.waitingFor = .opens) (raises : Nat → List Signal) :
    Kept heard settles config (c.prepareWait H raises)
      ∧ (c.prepareWait H raises).callbacks.calls = c.callbacks.calls := by
  have hp : c.prepared = true := h.stage.waits (by rw [hw]; simp)
  unfold prepareWait
  set d : StreamClient τ ρ := { c with waitTimer := false, waitingFor := .nothing } with hd
  have hbase : Base heard d := h.base.rest (by simp)
  have hloop : Safe heard d (d.eachStream (fun c i => H.settle c i (raises i)))
      ∧ (settles → ∀ i < c.config.streamCount.toNat,
        ((d.eachStream (fun c i => H.settle c i (raises i))).streams i).state ≠ .opening) := by
    refine eachStream_induct (c := d) (P := fun n e => Safe heard d e
      ∧ (settles → ∀ i < n, (e.streams i).state ≠ .opening)) ⟨Safe.refl d, fun _ i hi => ?_⟩ ?_
    · exact absurd hi (Nat.not_lt_zero i)
    rintro i e hi ⟨hsafe, hpast⟩
    have hasked : i < e.opens := by
      rw [hsafe.opens]
      exact h.stage.lt_opens hp hi
    obtain ⟨hsettle, hnow⟩ := hH.settle e i (raises i) (hbase.safe hsafe) hsafe.moves.waitingFor
      (hsafe.index hi) hasked
    refine ⟨hsafe.trans hsettle, fun hs j hj ho => ?_⟩
    rcases Nat.lt_succ_iff_lt_or_eq.mp hj with hj | rfl
    · exact hpast hs j hj (hsettle.moves.opening j ho)
    · exact hnow hs ho
  obtain ⟨hsafe, hpast⟩ := hloop
  have hframe := hsafe.moves.toFrame
  refine ⟨⟨hframe.config.trans h.config, hbase.safe hsafe, Stage.of_prepared
    (hframe.prepared.trans hp) ?_ (fun hw => ?_) (fun hs _ i hi => ?_) ?_ ?_⟩, hframe.calls⟩
  · rw [hsafe.opens, hframe.config]
    exact h.stage.opens.trans (if_pos hp)
  · rw [hframe.waitingFor] at hw
    cases hw
  · rw [hframe.config] at hi
    exact hpast hs i hi
  · rw [hsafe.cancelled]
    exact h.stage.uncancelled
  · rw [hframe.terminated, hframe.finished, hframe.config]
    exact fun ht => ⟨(h.stage.terminated ht).1,
      fun i hi => hsafe.moves.closed i ((h.stage.terminated ht).2 i hi)⟩

theorem kept_tryStartRequest (now : Nat) (signals : List Signal) :
    Kept heard settles config (c.tryStartRequest H.toFlavour now signals)
      ∧ (c.tryStartRequest H.toFlavour now signals).callbacks.calls = c.callbacks.calls + 1 := by
  obtain ⟨hbase, hfollows⟩ := base_tryStartRequest hH.flavour h.base now signals
  have hstage : Stage settles { c with callbacks := c.callbacks.give } := { h.stage with }
  exact ⟨⟨hfollows.config.trans h.config, hbase, hstage.of_follows hfollows⟩, hfollows.calls⟩

/-- The headers of a response are remembered once it was handled. -/
theorem kept_respond (hi : i < c.config.streamCount.toNat) (ha : (c.streams i).attached = true)
    {r : R} (hr : (c.streams i).answered = true ∨ H.isHeaders r = true) (now : Nat)
    (raises : Nat → List Signal) :
    Kept heard settles config (c.respond H i r now raises)
      ∧ (c.respond H i r now raises).callbacks.calls = c.callbacks.calls := by
  obtain ⟨hsafe, hsettled⟩ := hH.response c i r now raises h.base hi ha hr
  have hattached := hsafe.moves.attached i ha
  set d := H.onResponse c i r now raises with hd
  have hk := h.safe hsafe
  have hgood := hk.base.inv.good i
  have hmark : Moves d (d.updateStream i (fun s => { s with
      answered := s.answered || H.isHeaders r })) :=
    moves_updateStream (fun _ => rfl) (fun hs => hs) (fun ha => ha) (fun hh => hh) (fun hs => hs)
  have hinv : Inv heard (d.updateStream i (fun s => { s with
      answered := s.answered || H.isHeaders r })) := by
    refine hk.base.inv.updateStream ?_ Iff.rfl
    cases hheaders : H.isHeaders r with
    | false =>
      simp only [Bool.or_false]
      exact hgood
    | true =>
      exact { hgood with
        late := fun _ => hattached
        past := fun _ => hsettled hheaders
        live := fun hs => absurd hs (hsettled hheaders) }
  exact ⟨⟨hk.config, hk.base.of_moves hmark hinv hk.base.woken,
    hk.stage.of_follows ⟨hmark.toFrame, rfl, rfl, hmark.opening, hmark.closed⟩⟩, hsafe.moves.calls⟩

omit hH in
theorem kept_posted {b : Callbacks} (hb : c.callbacks.runPosted = some b) :
    Kept heard settles config { c with callbacks := b } := by
  obtain ⟨hcalls, id, hdue, hdone⟩ := Callbacks.runPosted_some hb
  have hrun : Ledger.Step (c.ledger 0) (ledger 0 { c with callbacks := b }) :=
    (Ledger.Step.run hdue).congr (Ledger.ext hcalls.symm rfl rfl rfl rfl rfl rfl rfl hdone.symm)
  exact ⟨h.config, { h.base with
    inv := { h.base.inv with }
    balanced := hrun.balanced h.base.balanced }, { h.stage with }⟩

omit hH in
theorem kept_waitTimer :
    Kept heard settles config { c with waitTimer := false, exited := true } :=
  ⟨h.config, { h.base with
    inv := { h.base.inv with patient := fun _ _ => .inl rfl }
    woken := fun _ _ => rfl }, { h.stage with }⟩

/-- Everything about a client whose `finish` was called, but for how long it waits. -/
theorem kept_finish (hp : c.prepared = true) (hnothing : c.waitingFor = .nothing)
    (raises : Nat → List Signal) :
    Kept heard settles config (c.finish H.toFlavour raises)
      ∧ (c.finish H.toFlavour raises).callbacks.calls = c.callbacks.calls
      ∧ (c.finish H.toFlavour raises).finished = true
      ∧ (c.finish H.toFlavour raises).waitingFor ≠ .opens := by
  unfold finish
  split
  next hfinished => exact ⟨h, rfl, hfinished, by rw [hnothing]; simp⟩
  next hfinished =>
    dsimp only
    obtain ⟨hbase, hframe, hcancel, hopens⟩ := base_closeAllGently hH.flavour
      (c := { c with finished := true }) { h.base with inv := { h.base.inv with } } raises rfl
    set d := eachStream { c with finished := true }
      (fun c i => c.closeGently H.toFlavour i (raises i)) with hd
    have hconfig : d.config = c.config := hframe.config
    have hall : d.opens = d.config.streamCount.toNat := by
      rw [hopens, hconfig]
      exact h.stage.opens.trans (if_pos hp)
    have hsettled : settles → ∀ i < d.config.streamCount.toNat, (d.streams i).state ≠ .opening := by
      intro hs i hi ho
      rw [hconfig] at hi
      exact h.stage.settled hs hp (by rw [hnothing]; simp) i hi (hframe.opening i ho)
    have hcancelled : settles → d.cancelled = 0 := by
      rw [hcancel]
      exact h.stage.uncancelled
    -- a client that has terminated was finished before
    have hrunning : d.terminated ≠ true := by
      rw [hframe.terminated]
      exact fun ht => hfinished (h.stage.terminated ht).1
    split
    · exact ⟨⟨hconfig.trans h.config, hbase, Stage.of_prepared (hframe.prepared.trans hp) hall
        (fun _ => hframe.finished) (fun hs _ => hsettled hs) hcancelled
        (fun ht => absurd ht hrunning)⟩, hframe.calls, hframe.finished,
        by rw [hframe.waitingFor, hnothing]; simp⟩
    · exact ⟨⟨hconfig.trans h.config, hbase.rest (by simp), Stage.of_prepared
        (hframe.prepared.trans hp) hall (fun _ => hframe.finished) (fun hs _ => hsettled hs)
        hcancelled (fun ht => absurd ht hrunning)⟩, hframe.calls, hframe.finished, by simp⟩

omit hH in
theorem kept_drainDone (hw : c.waitingFor = .closes) :
    Kept heard settles config c.drainDone
      ∧ c.drainDone.callbacks.calls = c.callbacks.calls
      ∧ c.drainDone.finished = true ∧ c.drainDone.waitingFor = .nothing := by
  have hp : c.prepared = true := h.stage.waits (by rw [hw]; simp)
  have hrest : Kept heard settles config { c with waitTimer := false, waitingFor := .nothing } :=
    ⟨h.config, h.base.rest (by simp), { h.stage with
      waits := fun _ => hp
      closes := nofun
      settled := fun hs hp _ => h.stage.settled hs hp (by rw [hw]; simp) }⟩
  have hloop : Safe heard { c with waitTimer := false, waitingFor := .nothing }
      (eachStream { c with waitTimer := false, waitingFor := .nothing } giveUp) :=
    safe_eachStream fun d i hi => safe_giveUp hi
  exact ⟨hrest.safe hloop, hloop.moves.calls, hloop.moves.finished.trans (h.stage.closes hw),
    hloop.moves.waitingFor⟩

theorem kept_terminateStreams (hfinished : c.finished = true) (hnothing : c.waitingFor = .nothing)
    (raises : Nat → List Signal) :
    Kept heard settles config (c.terminateStreams H raises)
      ∧ (c.terminateStreams H raises).callbacks.calls = c.callbacks.calls := by
  have hp := h.stage.done hfinished
  unfold terminateStreams
  set d : StreamClient τ ρ := { c with measureLatencies := false } with hd
  have hbase : Base heard d := { h.base with inv := { h.base.inv with } }
  -- the turns of the loop close one stream each, and cancel none that is settled
  have hloop : ∀ e, e = d.eachStream (fun c i => H.terminateStream c i (raises i)) →
      Moves d e ∧ e.opens = d.opens ∧ Inv heard e ∧ (settles → e.cancelled = d.cancelled)
        ∧ ∀ i < d.config.streamCount.toNat, (e.streams i).state = .closed := by
    rintro e rfl
    refine eachStream_induct (P := fun n e => Moves d e ∧ e.opens = d.opens ∧ Inv heard e
      ∧ (settles → e.cancelled = d.cancelled) ∧ ∀ i < n, (e.streams i).state = .closed)
      ⟨Moves.refl d, rfl, hbase.inv, fun _ => rfl, fun i hi => absurd hi (Nat.not_lt_zero i)⟩ ?_
    rintro i e hi ⟨hmoves, hopens, hinv, hcancelled, hclosed⟩
    have hwaiting' : e.waitingFor = .nothing := hmoves.waitingFor.trans hnothing
    have hbase' : Base heard e := hbase.of_moves hmoves hinv
      (fun hw => nomatch hwaiting'.symm.trans hw)
    have hends := hH.terminate e i (raises i) hbase' hwaiting'
      (by rw [hmoves.config]; exact hi) (by rw [hopens]; exact h.stage.lt_opens hp hi)
    refine ⟨hmoves.trans hends.moves, hends.opens.trans hopens, hends.inv, fun hs => ?_,
      fun j hj => ?_⟩
    · refine (hends.cancelled fun ho => ?_).trans (hcancelled hs)
      exact h.stage.settled hs hp (by rw [hnothing]; simp) i hi (hmoves.opening i ho)
    · rcases Nat.lt_succ_iff_lt_or_eq.mp hj with hj | rfl
      · exact hends.moves.closed j (hclosed j hj)
      · exact hends.closed
  obtain ⟨hmoves, hopens, hinv, hcancelled, hclosed⟩ := hloop _ rfl
  set e := d.eachStream (fun c i => H.terminateStream c i (raises i)) with he
  have hnothing' : e.waitingFor = .nothing := hmoves.waitingFor.trans hnothing
  have hbase' : Base heard e := hbase.of_moves hmoves hinv
    (fun hw => nomatch hnothing'.symm.trans hw)
  have hconfig : e.config = c.config := hmoves.config
  refine ⟨⟨hconfig.trans h.config, { hbase' with inv := { hinv with } }, Stage.of_prepared
    (hmoves.prepared.trans hp) ?_ (fun _ => hmoves.finished.trans hfinished)
    (fun _ _ i hi ho => ?_) (fun hs => ?_)
      (fun _ => ⟨hmoves.finished.trans hfinished, fun i hi => ?_⟩)⟩, hmoves.calls⟩
  · rw [hopens, hconfig]
    exact h.stage.opens.trans (if_pos hp)
  · have hi' : i < d.config.streamCount.toNat := by
      rw [← hmoves.config]
      exact hi
    exact nomatch (hclosed i hi').symm.trans ho
  · exact (hcancelled hs).trans (h.stage.uncancelled hs)
  · refine hclosed i ?_
    rw [← hmoves.config]
    exact hi

theorem kept_terminate (hp : c.prepared = true) (hnothing : c.waitingFor = .nothing)
    (raises raises' : Nat → List Signal) :
    Kept heard settles config (c.terminate H raises raises')
      ∧ (c.terminate H raises raises').callbacks.calls = c.callbacks.calls := by
  obtain ⟨hk, hcalls, hfinished, hopens⟩ := kept_finish hH h hp hnothing raises
  unfold terminate
  dsimp only
  split
  · exact ⟨⟨hk.config, { hk.base with inv := { hk.base.inv with } }, { hk.stage with }⟩, hcalls⟩
  next hcloses =>
    have hnothing' : (c.finish H.toFlavour raises).waitingFor = .nothing := by
      cases hw : (c.finish H.toFlavour raises).waitingFor with
      | nothing => rfl
      | opens => exact absurd hw hopens
      | closes => exact absurd hw hcloses
    obtain ⟨hk', hcalls'⟩ := kept_terminateStreams hH hk hfinished hnothing' raises'
    exact ⟨hk', hcalls'.trans hcalls⟩

theorem kept_finishWait (hw : c.waitingFor = .closes) (raises : Nat → List Signal) :
    Kept heard settles config (c.finishWait H raises)
      ∧ (c.finishWait H raises).callbacks.calls = c.callbacks.calls := by
  obtain ⟨hk, hcalls, hfinished, hnothing⟩ := kept_drainDone h hw
  unfold finishWait
  dsimp only
  split
  · obtain ⟨hk', hcalls'⟩ :=
      kept_terminateStreams hH (c := { c.drainDone with terminating := false })
        ⟨hk.config, { hk.base with inv := { hk.base.inv with } }, { hk.stage with }⟩
        hfinished hnothing raises
    exact ⟨hk', hcalls'.trans hcalls⟩
  · exact ⟨hk, hcalls⟩

/-! ## Runs -/

omit hH in
/-- It is a call of `tryStartRequest`. -/
def Event.isTryStart : Event R → Bool
  | .tryStartRequest _ _ => true
  | _ => false

/-- **One call.** -/
theorem kept_step {e : Event R} (hs : c.step H e = some c') :
    Kept heard settles config c'
      ∧ c'.callbacks.calls = c.callbacks.calls + if e.isTryStart then 1 else 0 := by
  cases e with
  | setShouldMeasureLatencies b =>
    cases hs
    exact ⟨⟨h.config, { h.base with inv := { h.base.inv with } }, { h.stage with }⟩, rfl⟩
  | prepare message openings =>
    obtain ⟨hp, rfl⟩ := Lts.guarded hs
    obtain ⟨hk, hcalls, -⟩ := kept_prepare hH h hp message openings
    exact ⟨hk, hcalls⟩
  | prepareWait raises =>
    obtain ⟨hw, rfl⟩ := Lts.guarded hs
    exact kept_prepareWait hH h hw.1 raises
  | tryStartRequest now signals =>
    cases hs
    exact kept_tryStartRequest hH h now signals
  | signal s =>
    obtain ⟨hraisable, rfl⟩ := Lts.guarded hs
    have hsafe : Safe heard c (c.onSignal H.toFlavour s) :=
      safe_onSignal hH.flavour h.base.inv hraisable
    exact ⟨h.safe hsafe, hsafe.moves.calls⟩
  | response i r now raises =>
    obtain ⟨⟨hi, ha, hr⟩, rfl⟩ := Lts.guarded hs
    exact kept_respond hH h hi ha hr now raises
  | posted =>
    obtain ⟨b, hb, rfl⟩ := Option.map_eq_some_iff.mp hs
    exact ⟨kept_posted h hb, (Callbacks.runPosted_some hb).1⟩
  | waitTimer =>
    obtain ⟨-, rfl⟩ := Lts.guarded hs
    exact ⟨kept_waitTimer h, rfl⟩
  | finish raises =>
    obtain ⟨⟨hp, hnothing⟩, rfl⟩ := Lts.guarded hs
    obtain ⟨hk, hcalls, -⟩ := kept_finish hH h hp hnothing raises
    exact ⟨hk, hcalls⟩
  | finishWait raises =>
    obtain ⟨hw, rfl⟩ := Lts.guarded hs
    exact kept_finishWait hH h hw.1 raises
  | terminate raises raises' =>
    obtain ⟨⟨hp, hnothing⟩, rfl⟩ := Lts.guarded hs
    exact kept_terminate hH h hp hnothing raises raises'

end

theorem kept_new (config : Config) (wire : ρ) (sequence : τ) :
    Kept heard settles config (new config wire sequence) := by
  have hgood : ∀ i, Good heard ((new config wire sequence).streams i) (i < 0) := fun i => {
    pooled := nofun
    known := fun h => by rcases h with h | h <;> cases h
    fresh := fun _ => ⟨rfl, rfl⟩
    late := nofun
    past := fun h => nomatch hH.unheard.symm.trans h
    live := fun _ h => absurd h (Nat.not_lt_zero i)
    quiet := fun _ => rfl
    encoder := nofun
    held := fun _ h => by cases h }
  have hinv : Inv heard (new config wire sequence) :=
    ⟨hgood, rfl, rfl, rfl, nofun⟩
  have hpending : ((new config wire sequence).ledger 0).pending = 0 := by
    show ∑ i ∈ Finset.range config.streamCount.toNat, _ = (0 : Multiset Nat)
    exact Finset.sum_eq_zero fun _ _ => rfl
  have hledger : (new config wire sequence).ledger 0 = {} :=
    Ledger.ext rfl rfl rfl rfl rfl rfl hpending rfl rfl
  refine ⟨rfl, ⟨hinv, nofun, nofun, ?_, fun _ => Nat.zero_le _,
    config.streamCount_pos⟩, ?_⟩
  · rw [hledger]
    exact Ledger.balanced_empty
  · exact {
      opens := rfl
      waits := fun h => absurd rfl h
      closes := nofun
      done := nofun
      settled := nofun
      uncancelled := fun _ => rfl
      terminated := fun h => by cases h }

/-- **Any run.** -/
theorem kept_run {wire : ρ} {sequence : τ} {es : List (Event R)}
    (h : Lts.Run (fun a e b => StreamClient.step a H e = some b) (new config wire sequence) es c) :
    Kept heard settles config c ∧ c.callbacks.calls = es.countP Event.isTryStart := by
  induction h with
  | nil => exact ⟨kept_new hH config wire sequence, rfl⟩
  | snoc _ hs ih =>
    obtain ⟨hk, hcalls⟩ := kept_step hH ih.1 hs
    refine ⟨hk, ?_⟩
    rw [hcalls, ih.2, List.countP_append, List.countP_singleton]

/-- `prepare` waits exactly if a stream still opens. -/
theorem waits_prepare (h : Kept heard settles config c) (hp : c.prepared = false)
    (message : List UInt8) (openings : Nat → Opening) :
    (c.prepare H.toFlavour message openings).waitingFor = .opens ↔
      ∃ i < config.streamCount.toNat,
        ((c.prepare H.toFlavour message openings).streams i).state = .opening := by
  obtain ⟨hk, -, hprepared, hwaits⟩ := kept_prepare hH h hp message openings
  have hall := hk.stage.opens.trans (if_pos hprepared)
  rw [hwaits, ne_eq, hk.base.inv.pendingOpens_eq_zero_iff, hall, hk.config]
  push Not
  rfl

end Handlers

/-! ## The books -/

/-- Every call of `tryStartRequest` is a message that was sent, deferred or unavailable, every
message that was sent is received, lost or in flight, every callback is invoked once, and the
streams that open are counted. -/
structure Accounted (config : Config) (es : List (Event R)) (c : StreamClient τ ρ) : Prop where
  calls : es.countP Event.isTryStart
    = c.counters .streamMessagesSent + c.counters .streamDeferred + c.counters .streamUnavailable
  messages : c.counters .streamMessagesSent
    = c.counters .streamMessagesReceived + c.counters .streamInflightLost
      + ∑ i ∈ Finset.range config.streamCount.toNat, (c.streams i).inflight.length
  bounded : ∀ i, (c.streams i).inflight.length ≤ config.maxInflightPerStream.toNat
  /-- the callback of each call was invoked, or will be, and never twice -/
  callbacks : ∀ call < es.countP Event.isTryStart,
    (c.callbacks.invoked.map (·.1)).count call + (c.callbacks.posted.map (·.1)).count call
      + ∑ i ∈ Finset.range config.streamCount.toNat,
        ((c.streams i).inflight.map InflightMessage.completionCallback).count call = 1
  /-- when `terminate` has returned and the dispatcher has run what was posted, it was invoked -/
  completed : c.terminated = true → c.callbacks.posted = [] →
    ∀ call < es.countP Event.isTryStart, (c.callbacks.invoked.map (·.1)).count call = 1
  pending : c.prepared = true → c.pendingOpens
    = (List.range config.streamCount.toNat).countP (fun i => (c.streams i).state = .opening)
  noUnderflow : c.underflowed = false
  /-- the wait for the streams to open is over when none opens, and before that only by its timer -/
  waits : c.waitingFor = .opens →
    ((∀ i < config.streamCount.toNat, (c.streams i).state ≠ .opening) → c.exited = true)
    ∧ (c.exited = true →
      c.waitTimer = false ∨ ∀ i < config.streamCount.toNat, (c.streams i).state ≠ .opening)

theorem card_awaited : c.awaited.card
    = (List.range c.opens).countP (fun i => (c.streams i).state = .opening) := by
  rw [List.countP_eq_length_filter]
  rfl

theorem Kept.accounted {es : List (Event R)} (h : Kept heard settles config c)
    (hcalls : c.callbacks.calls = es.countP Event.isTryStart) : Accounted config es c := by
  obtain rfl := h.config
  have hall : c.prepared = true → c.opens = c.config.streamCount.toNat :=
    fun hp => h.stage.opens.trans (if_pos hp)
  have honce : ∀ call < c.callbacks.calls,
      (c.callbacks.invoked.map (·.1)).count call + (c.callbacks.posted.map (·.1)).count call
        + ∑ i ∈ Finset.range c.config.streamCount.toNat,
          ((c.streams i).inflight.map InflightMessage.completionCallback).count call = 1 := by
    intro call hcall
    have hone := h.base.balanced.once hcall
    rw [show (c.ledger 0).invoked = c.callbacks.done from rfl,
      show (c.ledger 0).posted = c.callbacks.due from rfl,
      Callbacks.count_done, Callbacks.count_due,
      show (c.ledger 0).pending = ∑ i ∈ Finset.range c.config.streamCount.toNat,
        (c.streams i).pending from rfl, Multiset.count_sum'] at hone
    simpa only [Stream.pending, Multiset.coe_count] using hone
  constructor
  case calls =>
    have hoffered : c.callbacks.calls = c.counters .streamMessagesSent + 0
        + (c.counters .streamDeferred + c.counters .streamUnavailable) := h.base.balanced.offered
    omega
  case messages =>
    have hsent : c.counters .streamMessagesSent + 0 = 0 + c.counters .streamMessagesReceived
        + c.counters .streamInflightLost + Multiset.card
          (∑ i ∈ Finset.range c.config.streamCount.toNat, (c.streams i).pending) :=
      h.base.balanced.sent
    have hlength :
        Multiset.card (∑ i ∈ Finset.range c.config.streamCount.toNat, (c.streams i).pending)
        = ∑ i ∈ Finset.range c.config.streamCount.toNat, (c.streams i).inflight.length := by
      rw [Multiset.card_sum]
      refine Finset.sum_congr rfl fun i _ => ?_
      unfold Stream.pending
      rw [Multiset.coe_card, List.length_map]
    omega
  case bounded => exact h.base.bounded
  case callbacks =>
    rw [← hcalls]
    exact honce
  case completed =>
    intro ht hposted call hcall
    rw [← hcalls] at hcall
    have hone := honce call hcall
    -- every stream is closed, and a closed stream has nothing in flight
    have hempty : ∑ i ∈ Finset.range c.config.streamCount.toNat,
        ((c.streams i).inflight.map InflightMessage.completionCallback).count call = 0 := by
      refine Finset.sum_eq_zero fun i hi => ?_
      have hclosed := (h.stage.terminated ht).2 i (Finset.mem_range.mp hi)
      rw [(h.base.inv.good i).quiet (.inr hclosed)]
      rfl
    rw [hposted, hempty] at hone
    exact hone
  case pending =>
    intro hp
    rw [h.base.inv.pending, card_awaited, hall hp]
  case noUnderflow => exact h.base.inv.noUnderflow
  case waits =>
    intro hw
    have hp := h.stage.waits (by rw [hw]; simp)
    rw [← hall hp]
    refine ⟨fun hnone => h.base.woken hw (h.base.inv.pendingOpens_eq_zero_iff.mpr hnone),
      fun hx => ?_⟩
    rw [← awaited_eq_empty_iff]
    exact h.base.inv.patient hw hx

/-- The openings of a client that settles them, once its `prepare` has returned. -/
theorem Kept.settled_of_prepared (h : Kept heard True config c) (hp : c.prepared = true)
    (hw : c.waitingFor ≠ .opens) :
    c.counters .streamsOpened + c.counters .streamOpenFailures + c.counters .streamUpgradeRejected
      = config.streamCount.toNat := by
  obtain rfl := h.config
  have hall : c.opens = c.config.streamCount.toNat := h.stage.opens.trans (if_pos hp)
  have hempty : c.awaited = ∅ := awaited_eq_empty_iff.mpr fun i hi =>
    h.stage.settled trivial hp hw i (hall ▸ hi)
  have hsettled := h.base.inv.settled
  rw [hempty, h.stage.uncancelled trivial, Finset.card_empty, hall] at hsettled
  exact hsettled

end Sortie.Engine.StreamClient
