import Sortie.Proof.TcpSlots

/-!
# The raw TCP client between calls

What the messages, the slots and the waits of the client look like between any two calls
of any history. Until the client is finished every slot is live, no link is ever put over
another one, and the first attempts that `prepare` waits for are those of the links that
have neither connected nor failed. When `finish` has returned every link is closed, so no
message is in flight.
-/

namespace Sortie.Engine

namespace TcpBenchmarkClientImpl

variable {c c' c'' : TcpBenchmarkClientImpl} {id : Nat}

/-! ## Finishing -/

/-- A link that is not closed is in a slot, so `links()` has it. -/
theorem mem_linkIds (h : c.pool.Placed) (hid : (c.link id).state ≠ .closed) : id ∈ c.linkIds := by
  rw [← state_pool] at hid
  have howned := h.owned id hid
  exact List.mem_flatMap.mpr ⟨_, List.mem_range.mpr (h.lt_connections howned), howned⟩

theorem Tends.later (h : Tends c c') (id : Nat) :
    TcpPool.rank (c.link id).state ≤ TcpPool.rank (c'.link id).state := by
  rw [← state_pool, ← state_pool]
  exact h.pool.later id

theorem Tends.closed (h : Tends c c') (hid : (c.link id).state = .closed) :
    (c'.link id).state = .closed := TcpPool.closed_of_rank hid (h.later id)

theorem Tends.connected (h : Tends c c') (hid : (c.link id).state ≠ .connecting) :
    (c'.link id).state ≠ .connecting := TcpPool.ne_connecting_of_rank hid (h.later id)

/-- However a link is closed, it is closed. -/
theorem state_closeLink (id : Nat) (type : ConnectionCloseType) (net : Network) :
    ((c.closeLink id type net).link id).state = .closed := by
  by_cases hid : (c.link id).state = .closed
  · unfold closeLink
    rw [if_pos hid]
    exact hid
  · have hsettled : ((c.pool.settle id .closed).link id).state = .closed := by
      rw [TcpPool.link_settle_closed, if_pos rfl]
    rw [← state_pool]
    rcases closeLink_cases type net hid with ⟨d, hd, -, hdrop⟩ | ⟨-, -, hshut⟩
    · rw [hd, pool_maybeExitWaitLoop, hdrop]
      exact hsettled
    · rw [hshut]
      exact hsettled

theorem finished_stable {d d' : TcpBenchmarkClientImpl} (h : Tends d d') (hf : d.finished = true) :
    d'.finished = true := h.pool.finished.trans hf

/-- A loop over all links: what it does for one that is not closed, it does for every one. -/
theorem foldl_linkIds {f : TcpBenchmarkClientImpl → Nat → TcpBenchmarkClientImpl}
    (Q : TcpBenchmarkClientImpl → Prop) (P : State → Prop) (hclosed : P .closed)
    (hQ : ∀ {d d'}, Tends d d' → Q d → Q d') (hf : ∀ d id, d.pool.Placed → Q d → Tends d (f d id))
    (hP : ∀ d id, P ((f d id).link id).state)
    (hstable : ∀ {d d' id}, Tends d d' → P (d.link id).state → P (d'.link id).state)
    (h : c.pool.Placed) (hc : Q c) :
    Tends c (c.linkIds.foldl f c) ∧ ∀ id, P ((c.linkIds.foldl f c).link id).state := by
  have htends := tends_foldl Q hQ hf h hc c.linkIds
  refine ⟨htends, fun id => ?_⟩
  by_cases hid : (c.link id).state = .closed
  · rw [htends.closed hid]
    exact hclosed
  · exact foldl_settles Q hQ hf h hc (P := fun id d => P (d.link id).state) hP hstable
      (mem_linkIds h hid)

/-- Connects that are under way are dropped: after it no link is connecting. -/
theorem dropConnects_spec (h : c.pool.Placed) (hf : c.finished = true) (net : Network) :
    Tends c (c.dropConnects net) ∧ ∀ id, ((c.dropConnects net).link id).state ≠ .connecting := by
  refine foldl_linkIds (fun d => d.finished = true) (fun s => s ≠ .connecting) nofun
    finished_stable (fun d id hd hfinished => ?_) (fun d id => ?_) (fun ht => ht.connected) h hf
  · split
    · exact tends_closeLink hd _ net (Or.inl hfinished) nofun
    · exact tends_refl hd
  · split
    · rw [state_closeLink]
      exact nofun
    · assumption

/-- At the end of `finish` all links are closed. -/
theorem closeAll_spec (h : c.pool.Placed) (hf : c.finished = true)
    (hc : ∀ id, (c.link id).state ≠ .connecting) (net : Network) :
    Tends c (c.closeAll net) ∧ ∀ id, ((c.closeAll net).link id).state = .closed := by
  have hQ : ∀ {d d' : TcpBenchmarkClientImpl}, Tends d d' →
      (d.finished = true ∧ ∀ id, (d.link id).state ≠ .connecting) →
      d'.finished = true ∧ ∀ id, (d'.link id).state ≠ .connecting :=
    fun ht hd => ⟨finished_stable ht hd.1, fun id => ht.connected (hd.2 id)⟩
  refine foldl_linkIds _ (fun s => s = .closed) rfl hQ (fun d id hd hq => ?_)
    (fun d id => state_closeLink id .flushWrite net) (fun ht => ht.closed) h ⟨hf, hc⟩
  have hcount : Tends d
      (if (d.link id).inflight.isEmpty then d else d.inc .drainIncomplete) := by
    split
    · exact tends_refl hd
    · exact tends_of_pool hd rfl rfl
  obtain ⟨hfinished, hopened⟩ := hQ hcount hq
  exact hcount.trans (tends_closeLink hcount.placed _ net (Or.inl hfinished) (fun _ => hopened id))

theorem tends_cutFlushes (h : c.pool.Placed) (net : Network) : Tends c (c.cutFlushes net) := by
  have hoff : Tends c { c with measureLatencies := false } :=
    tends_of_pool h rfl rfl
  exact hoff.trans (tends_foldl (fun _ => True) (fun _ _ => trivial)
    (fun d id hd _ => tends_onClose hd id net) hoff.placed trivial _)

/-! ## What every call keeps -/

/-- The slots of a client between calls. -/
structure Sound (c : TcpBenchmarkClientImpl) : Prop where
  placed : c.pool.Placed
  logged : c.pool.Logged
  patient : c.Patient
  woken : c.Woken
  /-- before `prepare` there is nothing -/
  blank : c.prepared = false → c.finished = false →
    c.links = [] ∧ (∀ i, c.slots i = {}) ∧ c.waitingFor = .nothing
  live : c.prepared = true → c.finished = false →
    ∀ i < c.pool.connections, (c.pool.slots i).Live
  drain : c.drainTimer = true → c.waitingFor = .echoes
  echoes : c.waitingFor = .echoes → c.finished = true
  /-- from `finish` on nothing connects -/
  stopped : c.finished = true → ∀ id, (c.link id).state ≠ .connecting
  /-- and when it has returned everything is closed -/
  shut : c.finished = true → c.waitingFor ≠ .echoes → ∀ id, (c.link id).state = .closed

theorem Sound.serves (h : Sound c) (hs : Serves c c')
    (hblank : c.prepared = false → c.finished = false →
      c'.links = [] ∧ ∀ i, c'.slots i = {}) : Sound c' where
  placed := hs.placed
  logged := hs.logged h.logged
  patient := hs.waits.patient h.patient
  woken := hs.waits.woken h.woken
  blank := fun hp hf => by
    rw [hs.waits.prepared] at hp
    rw [hs.finished] at hf
    obtain ⟨hlinks, hslots⟩ := hblank hp hf
    exact ⟨hlinks, hslots, hs.waits.waitingFor.trans (h.blank hp hf).2.2⟩
  live := fun hp hf i hi => by
    rw [hs.waits.prepared] at hp
    rw [hs.finished] at hf
    rw [hs.connections] at hi
    exact hs.live hf i (h.live hp hf i hi)
  drain := fun hd => by
    rw [hs.waits.drainTimer] at hd
    exact hs.waits.waitingFor.trans (h.drain hd)
  echoes := fun he => by
    rw [hs.waits.waitingFor] at he
    exact hs.finished.trans (h.echoes he)
  stopped := fun hf id => by
    rw [hs.finished] at hf
    exact TcpPool.ne_connecting_of_rank (h.stopped hf id) (hs.later hf id)
  shut := fun hf hw id => by
    rw [hs.finished] at hf
    rw [hs.waits.waitingFor] at hw
    exact TcpPool.closed_of_rank (h.shut hf hw id) (hs.later hf id)

/-- A handler for something there is none of before `prepare`. -/
theorem Sound.serves_of (h : Sound c) (hs : Serves c c')
    (hsome : c.links = [] → (∀ i, c.slots i = {}) → False) : Sound c' :=
  h.serves hs (fun hp hf => absurd (h.blank hp hf) (fun hb => hsome hb.1 hb.2.1))

/-- Nor is there a link. -/
theorem Sound.serves_link (h : Sound c) (hid : id < c.links.length) (hs : Serves c c') :
    Sound c' := by
  refine h.serves_of hs fun hlinks _ => ?_
  rw [hlinks] at hid
  exact Nat.not_lt_zero _ hid

theorem Sound.tends (h : Sound c) (ht : Tends c c') (hf : c.finished = true) : Sound c' :=
  h.serves ht.serves (fun _ hf' => by rw [hf] at hf'; cases hf')

/-- A call that touches no slot and no wait. -/
theorem Sound.aside (h : Sound c) (hlinks : c'.links = c.links) (hslots : c'.slots = c.slots)
    (hpool : c'.pool = c.pool) (hcalm : Calm c c') : Sound c' := by
  refine h.serves (tends_of_pool h.placed hpool hcalm).serves (fun hp hf => ?_)
  rw [hlinks, hslots]
  exact ⟨(h.blank hp hf).1, (h.blank hp hf).2.1⟩

/-- Only a client that waits for echoes has a drain timer. -/
theorem Sound.not_draining (h : Sound c) (hw : c.waitingFor = .nothing) : ¬ c.drainTimer = true :=
  fun hd => nomatch (h.drain hd).symm.trans hw

/-! ## Preparing -/

/-- The first connects are opened in empty slots, one after the other. -/
theorem serves_openAll (h : c.pool.Placed) (hf : c.finished = false) (hw : c.waitingFor ≠ .opens)
    (hempty : ∀ i, (c.pool.slots i).links = []) (nets : Nat → Network) {n : Nat}
    (hn : n ≤ c.pool.connections) :
    let d := (List.range n).foldl (fun c i => c.openLink i .active true (nets i)) c
    Serves c d ∧ (∀ i < n, (d.pool.slots i).Live) ∧ ∀ i, n ≤ i → (d.pool.slots i).links = [] := by
  induction n with
  | zero =>
    exact ⟨(tends_refl h).serves, fun i hi => absurd hi (Nat.not_lt_zero i), fun i _ => hempty i⟩
  | succ n ih =>
    obtain ⟨hserves, hlive, hrest⟩ := ih (Nat.le_of_succ_le hn)
    rw [List.range_succ, List.foldl_append]
    have hroom := hrest n (Nat.le_refl n)
    have hfree := TcpPool.free_of_empty hroom
    obtain ⟨hserves', hlive', hother⟩ := serves_openLink .active true hserves.placed
      (i := n) (by rw [hserves.connections]; exact hn) hfree (hserves.finished.trans hf)
      (nets n) (fun _ => by rw [hserves.waits.waitingFor]; exact hw)
    refine ⟨hserves.trans hserves', fun i hi => ?_, fun i hi => ?_⟩
    · rcases Nat.lt_succ_iff_lt_or_eq.mp hi with hi | hi
      · exact hserves'.live (hserves.finished.trans hf) i (hlive i hi)
      · rw [hi]
        exact hlive'
    · exact hother i (by omega) (hrest i (by omega))

/-- A client that has been prepared, and not finished. -/
theorem sound_of_prepared (hplaced : c.pool.Placed) (hlogged : c.pool.Logged)
    (hp : c.prepared = true) (hf : c.finished = false) (hw : c.waitingFor ≠ .echoes)
    (hd : ¬ c.drainTimer = true) (hlive : ∀ i < c.pool.connections, (c.pool.slots i).Live)
    (hpatient : c.Patient) (hwoken : c.Woken) : Sound c where
  placed := hplaced
  logged := hlogged
  patient := hpatient
  woken := hwoken
  blank := fun hp' => nomatch hp.symm.trans hp'
  live := fun _ _ => hlive
  drain := fun hd' => absurd hd' hd
  echoes := fun hw' => absurd hw' hw
  stopped := fun hf' => nomatch hf.symm.trans hf'
  shut := fun hf' => nomatch hf.symm.trans hf'

/-- After `prepare` has opened all slots it waits if a first attempt is left. -/
theorem Sound.prepare (h : Sound c) (hp : c.prepared = false) (hf : c.finished = false)
    (message : List UInt8) (nets : Nat → Network) :
    Sound
      (if 0 < ({ c with message := message, prepared := true }.openAll nets).pendingOpens then
        { { c with message := message, prepared := true }.openAll nets with
          waitingFor := .opens
          exited := false }
      else { c with message := message, prepared := true }.openAll nets) := by
  obtain ⟨-, hslots, hw⟩ := h.blank hp hf
  have hempty : ∀ i, (c.pool.slots i).links = [] := by
    intro i
    show (c.slots i).place.links = []
    rw [hslots]
    rfl
  obtain ⟨d, hd, hserves, hlive⟩ :
      ∃ d, { c with message := message, prepared := true }.openAll nets = d
      ∧ Serves { c with message := message, prepared := true } d
      ∧ ∀ i < c.pool.connections, (d.pool.slots i).Live := by
    obtain ⟨hserves, hlive, -⟩ := serves_openAll
      (c := { c with message := message, prepared := true }) h.placed hf (by rw [hw]; exact nofun)
      hempty nets (Nat.le_refl _)
    exact ⟨_, rfl, hserves, hlive⟩
  rw [hd]
  have hfinished : d.finished = false := hserves.finished.trans hf
  have hprepared : d.prepared = true := hserves.waits.prepared
  have hnothing : d.waitingFor = .nothing := hserves.waits.waitingFor.trans hw
  have hdrain : ¬ d.drainTimer = true := by
    rw [hserves.waits.drainTimer]
    exact h.not_draining hw
  have hlive' : ∀ i < d.pool.connections, (d.pool.slots i).Live := by
    rw [hserves.connections]
    exact hlive
  split
  · rename_i hopens
    refine sound_of_prepared hserves.placed (hserves.logged h.logged) hprepared hfinished nofun
      hdrain hlive' nofun fun _ hnone => ?_
    rw [show d.pendingOpens = 0 from hnone] at hopens
    exact absurd hopens (lt_irrefl 0)
  · have hidle : d.waitingFor ≠ .opens := by
      rw [hnothing]
      exact nofun
    exact sound_of_prepared hserves.placed (hserves.logged h.logged) hprepared hfinished
      (by rw [hnothing]; exact nofun) hdrain hlive' (fun hw' => absurd hw' hidle)
      (fun hw' => absurd hw' hidle)

/-- Where everything is closed there is little left to look after. -/
theorem sound_of_closed (hplaced : c.pool.Placed) (hlogged : c.pool.Logged) (hf : c.finished = true)
    (hw : c.waitingFor = .nothing) (hd : ¬ c.drainTimer = true)
    (hall : ∀ id, (c.link id).state = .closed) : Sound c where
  placed := hplaced
  logged := hlogged
  patient := fun hw' => nomatch hw.symm.trans hw'
  woken := fun hw' => nomatch hw.symm.trans hw'
  blank := fun _ hf' => nomatch hf.symm.trans hf'
  live := fun _ hf' => nomatch hf.symm.trans hf'
  drain := fun hd' => absurd hd' hd
  echoes := fun _ => hf
  stopped := fun _ id => by
    rw [hall id]
    exact nofun
  shut := fun _ _ => hall

theorem Sound.finish (h : Sound c) (hw : c.waitingFor = .nothing) (net : Network) :
    Sound (c.finish net) ∧ (c.finish net).finished = true := by
  unfold TcpBenchmarkClientImpl.finish
  by_cases hfinished : c.finished = true
  · rw [if_pos hfinished]
    exact ⟨h, hfinished⟩
  · rw [if_neg hfinished]
    have hstopped : c.stopOpening.pool.Placed := h.placed.stop
    have hlogged : c.stopOpening.pool.Logged := h.logged.mono rfl (fun _ _ hid => hid)
    obtain ⟨hdropped, hconnected⟩ := dropConnects_spec hstopped rfl net
    have hnothing : (c.stopOpening.dropConnects net).waitingFor = .nothing :=
      hdropped.waits.waitingFor.trans hw
    have hdrain : ¬ (c.stopOpening.dropConnects net).drainTimer = true := by
      rw [hdropped.waits.drainTimer]
      exact h.not_draining hw
    have hdone : (c.stopOpening.dropConnects net).finished = true := finished_stable hdropped rfl
    dsimp only
    split
    · refine ⟨?_, hdone⟩
      exact {
        placed := hdropped.placed
        logged := hdropped.pool.logged hlogged
        patient := nofun
        woken := nofun
        blank := fun _ hf => nomatch hdone.symm.trans hf
        live := fun _ hf => nomatch hdone.symm.trans hf
        drain := fun _ => rfl
        echoes := fun _ => hdone
        stopped := fun _ => hconnected
        shut := fun _ hw' => absurd rfl hw' }
    · obtain ⟨hclosed, hall⟩ := closeAll_spec hdropped.placed hdone hconnected net
      have hend := finished_stable hclosed hdone
      exact ⟨sound_of_closed hclosed.placed
        (hclosed.pool.logged (hdropped.pool.logged hlogged)) hend
        (hclosed.waits.waitingFor.trans hnothing)
        (fun hd => hdrain (hclosed.waits.drainTimer.symm.trans hd)) hall, hend⟩

theorem Sound.terminate (h : Sound c) (hw : c.waitingFor = .nothing) (net : Network) :
    Sound (c.terminate net) := by
  obtain ⟨hfinish, hfinished⟩ := h.finish hw net
  unfold TcpBenchmarkClientImpl.terminate
  dsimp only
  split
  · exact hfinish.aside rfl rfl rfl rfl
  · exact hfinish.tends (tends_cutFlushes hfinish.placed net) hfinished

theorem Sound.finishWait (h : Sound c) (hw : c.waitingFor = .echoes) (net : Network) :
    Sound (c.finishWait net) := by
  have hfinished := h.echoes hw
  obtain ⟨hclosed, hall⟩ :=
    closeAll_spec (c := { c with drainTimer := false, waitingFor := .nothing })
    h.placed hfinished (h.stopped hfinished) net
  have hend := finished_stable hclosed hfinished
  have hsound : Sound ({ c with drainTimer := false, waitingFor := .nothing }.closeAll net) := by
    refine sound_of_closed hclosed.placed (hclosed.pool.logged h.logged) hend
      hclosed.waits.waitingFor (fun hd => ?_) hall
    rw [hclosed.waits.drainTimer] at hd
    cases hd
  unfold TcpBenchmarkClientImpl.finishWait
  dsimp only
  split
  · have haside : Sound { { c with
        drainTimer := false, waitingFor := .nothing }.closeAll net with terminating := false } :=
      hsound.aside rfl rfl rfl rfl
    exact haside.tends (tends_cutFlushes haside.placed net) hend
  · exact hsound

/-- Before `prepare` there is nothing to send a message on. -/
theorem Sound.tryStartRequest (h : Sound c) (net : Network) : Sound (c.tryStartRequest net) := by
  refine h.serves (serves_tryStartRequest h.placed net) (fun hp hf => ?_)
  obtain ⟨hlinks, hslots, -⟩ := h.blank hp hf
  unfold TcpBenchmarkClientImpl.tryStartRequest
  dsimp only
  rw [hslots]
  exact ⟨hlinks, hslots⟩

theorem Sound.takes (h : Sound c) {e : Event} (hs : c.Takes e c') : Sound c' := by
  cases hs with
  | measure b => exact h.aside rfl rfl rfl rfl
  | prepare nets hp hf _ => exact h.prepare hp hf _ nets
  | prepareWait hw he =>
    exact { h with
      patient := nofun
      woken := nofun
      blank := fun hp hf => ⟨(h.blank hp hf).1, (h.blank hp hf).2.1, rfl⟩
      drain := fun hd => nomatch (h.drain hd).symm.trans hw
      echoes := nofun
      shut := fun hf _ => h.shut hf (by rw [hw]; exact nofun) }
  | tryStartRequest net => exact h.tryStartRequest net
  | onEvent event net hid => exact h.serves_link hid (tends_onEvent h.placed _ event net).serves
  | onData data net hid => exact h.serves_link hid (tends_onData h.placed _ data net).serves
  | onWriteBlocked blocked hid =>
    exact h.serves_link hid (tends_onWriteBlocked h.placed _ blocked).serves
  | @timer id net ht =>
    have hoff : Tends c (c.updateLink id (fun l => { l with timer := false })) :=
      tends_of_pool h.placed (pool_updateLink id (fun _ => rfl)) rfl
    refine h.serves_of (hoff.trans (tends_onTimer hoff.placed id net)).serves (fun hlinks _ => ?_)
    unfold link at ht
    rw [hlinks] at ht
    cases ht
  | @retryTimer i t net ht _ =>
    refine h.serves_of (serves_retry h.placed (by rw [ht]; rfl) net) (fun _ hslots => ?_)
    rw [hslots] at ht
    cases ht
  | posted hb => exact h.aside rfl rfl rfl rfl
  | finish net hw => exact (h.finish hw net).1
  | drainTimer hd =>
    have hw := h.drain hd
    exact { h with
      patient := fun hw' => nomatch hw.symm.trans hw'
      woken := fun hw' => nomatch hw.symm.trans hw'
      drain := nofun }
  | finishWait net hw _ => exact h.finishWait hw net
  | terminate net hw => exact h.terminate hw net

theorem sound_init (config : Config) : Sound { config := config } where
  placed := {
    fits := fun _ => ⟨nofun, nofun, nofun, nofun, nofun⟩
    owned := fun _ hid => absurd rfl hid
    outside := fun _ _ => ⟨rfl, rfl⟩
    pending := fun _ => iff_of_false nofun (fun hc => nomatch hc.1)
    count := rfl
    placements := nofun }
  logged := nofun
  patient := nofun
  woken := nofun
  blank := fun _ _ => ⟨rfl, fun _ => rfl, rfl⟩
  live := nofun
  drain := nofun
  echoes := nofun
  stopped := nofun
  shut := nofun

theorem sound_run {config : Config} {es : List Event} (h : Reaches config es c) : Sound c :=
  h.invariant (sound_init config) (fun _ _ _ ha hs => ha.takes (takes hs))

/-! ## Messages -/

theorem link_of_mem {l : Link} (h : l ∈ c.links) : ∃ id, c.link id = l := by
  obtain ⟨id, hid, rfl⟩ := List.mem_iff_getElem.mp h
  exact ⟨id, List.getD_eq_getElem _ _ hid⟩

/-- One connection that takes one message at a time and is rotated after two. -/
def soloConfig : Config where
  connections := 1
  maxInflightPerConnection := 1
  expectEcho := true
  maxMessagesPerConnection := 2
  connections_pos := by decide
  maxInflight_pos := by decide

/-- A message is echoed, the next one starts a rotation and is lost with its connection. -/
def soloEvents : List Event :=
  [.prepare [7] (fun _ => {}), .onEvent 0 .connected {}, .prepareWait, .tryStartRequest {},
    .onData 0 [7] {}, .tryStartRequest {}, .tryStartRequest {}, .onEvent 1 .connected {},
    .onEvent 0 .remoteClose {}, .posted, .finish {}]

/-- A slot has a link, one on the way, or a retry that will open one. -/
def SlotServed (c : TcpBenchmarkClientImpl) (i : Nat) : Prop :=
  (∃ id, (c.slots i).active = some id
      ∧ ((c.link id).state = .connecting ∨ (c.link id).state = .opened))
    ∨ (∃ id, (c.slots i).standby = some id ∧ (c.link id).state = .connecting)
    ∨ (c.slots i).retryTimer.isSome

/-- No slot is given up, no link is overwritten, and `prepare` waits for every first attempt. -/
structure SlotsServed (c : TcpBenchmarkClientImpl) : Prop where
  served : c.prepared = true → c.finished = false →
    ∀ i < c.config.connections.toNat, c.SlotServed i
  placements : ∀ x ∈ c.placements, x.Fair
  /-- a link in use was opened over none or promoted; nothing else puts one there -/
  placed : ∀ i id, (c.slots i).active = some id → Placement.opened i .active none id ∈ c.placements
    ∨ ∃ retired, Placement.promoted i retired (some (id, .opened)) ∈ c.placements
  unresolved : ∀ l ∈ c.links, l.initialPending = true ↔ l.initial = true ∧ l.state = .connecting
  pendingOpens : c.pendingOpens = (c.links.countP Link.initialPending : Int)
  waits : c.waitingFor = .opens →
    (c.exited = true ↔ ∀ l ∈ c.links, ¬ (l.initial = true ∧ l.state = .connecting))

theorem Sound.served (h : Sound c) (hp : c.prepared = true) (hf : c.finished = false) {i : Nat}
    (hi : i < c.config.connections.toNat) : c.SlotServed i := by
  rcases h.live hp hf i hi with ha | hs | hr
  · obtain ⟨id, hid⟩ := Option.isSome_iff_exists.mp ha
    refine Or.inl ⟨id, hid, ?_⟩
    have hstate := (h.placed.fits i).active id hid
    rw [state_pool] at hstate
    rcases hstate with hstate | hstate | ⟨-, hfinished⟩
    · exact Or.inl hstate
    · exact Or.inr hstate
    · rw [show c.finished = true from hfinished] at hf
      cases hf
  · obtain ⟨id, hid⟩ := Option.isSome_iff_exists.mp hs
    refine Or.inr (Or.inl ⟨id, hid, ?_⟩)
    rw [← state_pool]
    exact (h.placed.fits i).standby id hid
  · exact Or.inr (Or.inr hr)

theorem countP_initialPending :
    c.pool.links.countP TcpPool.Link.pending = c.links.countP Link.initialPending := by
  show (c.links.map Link.place).countP TcpPool.Link.pending = _
  rw [List.countP_map]
  rfl

theorem Sound.unresolved (h : Sound c) {l : Link} (hl : l ∈ c.links) :
    l.initialPending = true ↔ l.initial = true ∧ l.state = .connecting := by
  obtain ⟨id, rfl⟩ := link_of_mem hl
  have := h.placed.pending id
  rw [link_pool] at this
  exact this

theorem slotsServed_of_reaches {config : Config} {es : List Event} (h : Reaches config es c) :
    SlotsServed c := by
  have hsound := sound_run h
  have hcount : c.pendingOpens = (c.links.countP Link.initialPending : Int) := by
    rw [← countP_initialPending]
    exact hsound.placed.count
  refine ⟨fun hp hf i hi => hsound.served hp hf hi, hsound.placed.placements, hsound.logged,
    fun l hl => hsound.unresolved hl, hcount, fun hw => ?_⟩
  have hnone : c.pendingOpens = 0
      ↔ ∀ l ∈ c.links, ¬ (l.initial = true ∧ l.state = .connecting) := by
    rw [hcount, Int.natCast_eq_zero, List.countP_eq_zero]
    exact forall₂_congr (fun l hl => not_congr (hsound.unresolved hl))
  rw [← hnone]
  exact ⟨hsound.patient hw, hsound.woken hw⟩

/-- The rotation of the history above, before its end. -/
theorem slotsServed_soloEvents : ∃ c, Reaches soloConfig (soloEvents.take 8) c ∧ SlotsServed c
    ∧ c.finished = false ∧ (c.slots 0).active = some 1 ∧ (c.slots 0).retiring = [0] :=
  ⟨_, Lts.Run.of_foldlM_and rfl fun h => ⟨slotsServed_of_reaches h, rfl, rfl, rfl⟩⟩

/-! ## Connections -/

/-- A link that connects or is open is in use, or stands by while it connects. -/
theorem role_of_placed {p : TcpPool} (h : p.Placed)
    (hs : (p.link id).state = .connecting ∨ (p.link id).state = .opened) :
    (p.slots (p.link id).slot).active = some id
      ∨ (p.slots (p.link id).slot).standby = some id ∧ (p.link id).state = .connecting := by
  have hmem := h.owned id (by rcases hs with hs | hs <;> simp [hs])
  rcases TcpPool.Slot.mem_links.mp hmem with ha | hstandby | hretiring
  · exact Or.inl ha
  · exact Or.inr ⟨hstandby, (h.fits _).standby id hstandby⟩
  · rcases (h.fits _).retiring id hretiring with hr | hr <;> simp [hr] at hs

/-- **A slot never has two connections under way, or two open.** None is under way from `finish` on,
and when it has returned all are closed. -/
theorem links_of_reaches {config : Config} {es : List Event} (h : Reaches config es c) :
    (∀ id id', (c.link id).slot = (c.link id').slot → (c.link id).state = (c.link id').state →
        (c.link id).state = .connecting ∨ (c.link id).state = .opened → id = id')
      ∧ (c.finished = true → ∀ id, (c.link id).state ≠ .connecting)
      ∧ (c.finished = true → c.waitingFor = .nothing → ∀ id, (c.link id).state = .closed) := by
  have hsound := sound_run h
  refine ⟨fun id id' hslot hstate hs => ?_, hsound.stopped, fun hf hw =>
    hsound.shut hf (by rw [hw]; exact nofun)⟩
  rw [← slot_pool, ← slot_pool] at hslot
  rw [← state_pool] at hs
  rw [← state_pool, ← state_pool] at hstate
  have hrole := role_of_placed hsound.placed hs
  have hrole' := role_of_placed hsound.placed (hstate ▸ hs)
  rw [← hslot] at hrole'
  rcases hrole with ha | ⟨hb, hconnecting⟩ <;> rcases hrole' with ha' | ⟨hb', hconnecting'⟩
  · exact Option.some.inj (ha.symm.trans ha')
  · -- a link does not stand by for one that connects
    exact absurd (hstate.trans hconnecting') ((hsound.placed.fits _).alone _ _ hb' ha)
  · exact absurd (hstate.symm.trans hconnecting) ((hsound.placed.fits _).alone _ _ hb ha')
  · exact Option.some.inj (hb.symm.trans hb')

/-- The whole history above. -/
theorem links_soloEvents :
    ∃ c, Reaches soloConfig soloEvents c ∧ ∀ id, (c.link id).state = .closed :=
  ⟨_, Lts.Run.of_foldlM_and rfl fun h => (links_of_reaches h).2.2 rfl rfl⟩

end TcpBenchmarkClientImpl

end Sortie.Engine
