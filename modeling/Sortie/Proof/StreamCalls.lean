import Sortie.Proof.StreamClient

/-!
# The calls of a streaming client

What the worker calls: opening the streams, sending, and ending. Each call is a loop over
the streams or a single piece, with callbacks of Envoy in between. `Base` is what all of
them keep, and `Kept` what holds between calls.
-/

namespace Sortie.Engine.StreamClient

variable {τ ρ R : Type} {c c' : StreamClient τ ρ} {i : Nat} {heard : Bool → Bool → Bool}
variable {s : Stream τ ρ}

/-- A loop over the streams, with what holds before each turn. -/
theorem eachStream_induct {P : Nat → StreamClient τ ρ → Prop}
    {f : StreamClient τ ρ → Nat → StreamClient τ ρ} (hzero : P 0 c)
    (hstep : ∀ i d, i < c.config.streamCount.toNat → P i d → P (i + 1) (f d i)) :
    P c.config.streamCount.toNat (c.eachStream f) := by
  have hloop : ∀ n ≤ c.config.streamCount.toNat, P n ((List.range n).foldl f c) := by
    intro n
    induction n with
    | zero => exact fun _ => hzero
    | succ n ih =>
      intro hn
      rw [List.range_succ, List.foldl_append, List.foldl_cons, List.foldl_nil]
      exact hstep n _ hn (ih (Nat.le_of_succ_le hn))
  exact hloop _ (Nat.le_refl _)

/-- What every piece of every call keeps. -/
structure Base (heard : Bool → Bool → Bool) (c : StreamClient τ ρ) : Prop where
  inv : Inv heard c
  woken : Woken c
  handles : ∀ i, (c.streams i).pooled = true → (c.streams i).cancellable = true
  balanced : (c.ledger 0).Balanced
  bounded : ∀ i, (c.streams i).inflight.length ≤ c.config.maxInflightPerStream.toNat
  next : c.nextStream < c.config.streamCount.toNat

theorem Base.of_carries (h : Base heard c) (hc : Carries c c') (hinv : Inv heard c')
    (hwoken : Woken c')
    (hhandles : ∀ i, (c'.streams i).pooled = true → (c'.streams i).cancellable = true) :
    Base heard c' where
  inv := hinv
  woken := hwoken
  handles := hhandles
  balanced := (hc.ledger 0).balanced h.balanced
  bounded := fun i => by
    rw [hc.config]
    exact (hc.inflight i).length_le.trans (h.bounded i)
  next := by
    rw [hc.config, hc.nextStream]
    exact h.next

theorem Base.of_moves (h : Base heard c) (hm : Moves c c') (hinv : Inv heard c')
    (hwoken : Woken c') : Base heard c' :=
  h.of_carries hm.toCarries hinv hwoken fun i => hm.handles i (h.handles i)

theorem Base.safe (h : Base heard c) (hs : Safe heard c c') : Base heard c' :=
  h.of_moves hs.moves (hs.inv h.inv) (hs.woken h.woken)

/-- No stream is asked for or cancelled, none begins to open, and a closed one stays closed. -/
structure Follows (c c' : StreamClient τ ρ) : Prop extends Frame c c' where
  opens : c'.opens = c.opens
  cancelled : c'.cancelled = c.cancelled
  opening : ∀ i, (c'.streams i).state = .opening → (c.streams i).state = .opening
  closed : ∀ i, (c.streams i).state = .closed → (c'.streams i).state = .closed

theorem Safe.follows (h : Safe heard c c') : Follows c c' :=
  ⟨h.moves.toFrame, h.opens, h.cancelled, h.moves.opening, h.moves.closed⟩

/-! ## Opening -/

theorem Good.congr {p q : Prop} (h : Good heard s p) (hpq : p ↔ q) : Good heard s q := by
  rwa [← propext hpq]

/-- A stream counts as asked for from the call of `openStream` on, which changes it to `s`. -/
theorem Inv.open (h : Inv heard c) (hgood : Good heard s True)
    (hstreams : c'.streams = Function.update c.streams c.opens s) (hopens : c'.opens = c.opens + 1)
    (hunderflowed : c'.underflowed = c.underflowed) (hnothing : c'.waitingFor = .nothing)
    (hpending : c'.pendingOpens = c.pendingOpens + if s.state = .opening then 1 else 0)
    (hsettled : c'.settled + c'.cancelled
      = c.settled + c.cancelled + if s.state = .opening then 0 else 1) : Inv heard c' := by
  have hnew : c.opens ∉ c.awaited := fun hmem =>
    absurd (Finset.mem_range.mp (Finset.mem_filter.mp hmem).1) (Nat.lt_irrefl _)
  have hawaited :
      c'.awaited = if s.state = .opening then insert c.opens c.awaited else c.awaited := by
    unfold awaited
    rw [hopens, hstreams, Finset.range_add_one, Finset.filter_insert, Function.update_self]
    have hold : (Finset.range c.opens).filter
        (fun i => (Function.update c.streams c.opens s i).state = .opening)
        = (Finset.range c.opens).filter (fun i => (c.streams i).state = .opening) :=
      Finset.filter_congr fun j hj => by
        rw [Function.update_of_ne (Nat.ne_of_lt (Finset.mem_range.mp hj))]
    rw [hold]
  have hcard : c'.awaited.card = c.awaited.card + if s.state = .opening then 1 else 0 := by
    rw [hawaited]
    split
    · exact Finset.card_insert_of_notMem hnew
    · rfl
  have hcount := h.pending
  constructor
  case good =>
    intro j
    rw [hstreams, hopens]
    by_cases hj : j = c.opens
    · rw [hj, Function.update_self]
      exact hgood.congr (by simp)
    · rw [Function.update_of_ne hj]
      exact (h.good j).congr (by omega)
  case pending => omega
  case noUnderflow =>
    rw [hunderflowed]
    exact h.noUnderflow
  case settled =>
    have := h.settled
    split at hcard <;> split at hsettled <;> first | omega | contradiction
  case patient => exact fun hw => nomatch hnothing.symm.trans hw

/-- A stream that `openStream` was not called for is as it was made. -/
theorem Good.unasked {asked : Prop} (h : Good heard s asked) (hn : ¬ asked) :
    s.state = .opening ∧ s.encoder = false ∧ s.pooled = false ∧ s.attached = false
      ∧ s.answered = false := by
  have hattached : s.attached = false := eq_false_of_ne_true fun ha => hn (h.known (.inr ha))
  refine ⟨(h.fresh hn).1, (h.fresh hn).2, eq_false_of_ne_true fun hp => hn (h.known (.inl hp)),
    hattached, eq_false_of_ne_true fun ha => ?_⟩
  rw [h.late ha] at hattached
  cases hattached

/-- Without a pool a stream is closed at once. -/
theorem base_openStream_refused (h : Base heard c) (hnothing : c.waitingFor = .nothing)
    (hc' : c' = (({ c with opens := c.opens + 1 } : StreamClient τ ρ).updateStream c.opens
      (fun s => { s with state := .closed })).inc .streamOpenFailures) :
    Base heard c' ∧ Carries c c' := by
  subst hc'
  obtain ⟨hopening, -, hpooled, -, -⟩ := (h.inv.good c.opens).unasked (Nat.lt_irrefl _)
  have hclose : Carries c (({ c with opens := c.opens + 1 } : StreamClient τ ρ).updateStream c.opens
      (fun s => { s with state := .closed })) :=
    { carries_updateStream (c := c) (i := c.opens) (f := fun s => { s with state := .closed })
        (fun _ => rfl) nofun (fun ha => ha) with }
  have hcarries := hclose.trans (moves_inc (k := .streamOpenFailures) rfl).toCarries
  refine ⟨h.of_carries hcarries ?_ (fun hw => nomatch hnothing.symm.trans hw)
    (streams_updateStream (c := c) (i := c.opens) (f := fun s => { s with state := .closed })
      (P := fun _ s => s.pooled = true → s.cancellable = true) (h.handles _) h.handles), hcarries⟩
  refine h.inv.open
    (s := { c.streams c.opens with state := .closed }) ?_ rfl rfl rfl hnothing rfl ?_
  · exact .of_past trivial nofun hpooled (h.inv.good c.opens).late
      (fun _ => (h.inv.good c.opens).quiet (.inl hopening)) nofun
  · rw [settled_inc_opening rfl]
    show c.settled + 1 + c.cancelled = c.settled + c.cancelled + 1
    omega

section Flavour

variable {F : Flavour τ ρ} (hF : F.Sound heard)

include hF

/-- The next stream is opened. -/
theorem base_openStream (h : Base heard c) (hnothing : c.waitingFor = .nothing) (o : Opening) :
    Base heard (c.openStream F c.opens o) ∧ Carries c (c.openStream F c.opens o)
      ∧ (c.openStream F c.opens o).cancelled = c.cancelled
      ∧ (c.openStream F c.opens o).opens = c.opens + 1 := by
  obtain ⟨hopening, hencoder, hpooled, hattached, hanswered⟩ :=
    (h.inv.good c.opens).unasked (Nat.lt_irrefl _)
  unfold openStream
  dsimp only
  split
  · obtain ⟨hbase, hcarries⟩ := base_openStream_refused h hnothing rfl
    exact ⟨hbase, hcarries, rfl, rfl⟩
  · -- `d` is the client when the pool is asked, and `e` when it has returned
    set d : StreamClient τ ρ := { ({ c with opens := c.opens + 1 } : StreamClient τ ρ).updateStream
      c.opens (fun s => { s with wire := F.setKey o.key s.wire, pooled := true }) with
        pendingOpens := c.pendingOpens + 1 } with hd
    have hasks : Carries c d :=
      { carries_updateStream (c := c) (i := c.opens)
          (f := fun s => { s with wire := F.setKey o.key s.wire, pooled := true })
          (fun _ => rfl) (fun hs => hs) (fun ha => ha) with }
    have hinv : Inv heard d := by
      refine h.inv.open (s := { c.streams c.opens with
        wire := F.setKey o.key (c.streams c.opens).wire, pooled := true }) ?_ rfl rfl rfl hnothing
        (by rw [if_pos hopening]) (by rw [if_pos hopening]; rfl)
      exact {
        pooled := fun _ => ⟨hopening, hencoder, hattached⟩
        known := fun _ => trivial
        fresh := fun hn => absurd trivial hn
        late := (h.inv.good c.opens).late
        past := (h.inv.good c.opens).past
        live := fun _ _ => .inl rfl
        quiet := (h.inv.good c.opens).quiet
        encoder := (h.inv.good c.opens).encoder
        held := (h.inv.good c.opens).held }
    have hraise : Safe heard d (d.raise F o.raises) := safe_raise hF hinv o.raises
    set e := d.raise F o.raises with he
    -- the handle of the new stream is kept if the pool has not answered
    have hkeeps :
        (e.streams c.opens).pooled = true → F.keepsCancellable (e.streams c.opens) = true := by
      intro hp
      obtain ⟨hs, hn, -⟩ := ((hraise.inv hinv).good c.opens).pooled hp
      exact hF.keeps _ hs hn
    have hbase :
        ∀ f : Stream τ ρ → Stream τ ρ, (∀ s, f s = { s with cancellable := (f s).cancellable }) →
        ((f (e.streams c.opens)).pooled = true → (f (e.streams c.opens)).cancellable = true) →
        Base heard (e.updateStream c.opens f) ∧ Carries c (e.updateStream c.opens f)
          ∧ (e.updateStream c.opens f).cancelled = c.cancelled
          ∧ (e.updateStream c.opens f).opens = c.opens + 1 := by
      intro f hf hhandle
      have hlast : Carries e (e.updateStream c.opens f) :=
        carries_updateStream (fun s => by rw [hf]) (by rw [hf]; exact fun hs => hs)
          (by rw [hf]; exact fun ha => ha)
      have hcarries := (hasks.trans hraise.moves.toCarries).trans hlast
      refine ⟨h.of_carries hcarries ?_ ?_ fun j => ?_, hcarries, hraise.cancelled, hraise.opens⟩
      · refine (hraise.inv hinv).updateStream ?_ (by rw [hf])
        rw [hf]
        exact { (hraise.inv hinv).good c.opens with }
      · exact fun hw => nomatch (hcarries.waitingFor.trans hnothing).symm.trans hw
      · by_cases hj : j = c.opens
        · rw [hj, streams_updateStream_self]
          exact hhandle
        · rw [streams_updateStream_of_ne f hj]
          refine hraise.moves.handles j ?_
          rw [show d.streams j = c.streams j from Function.update_of_ne hj ..]
          exact h.handles j
    split
    next hk =>
      exact hbase (fun s => { s with cancellable := s.pooled }) (fun _ => rfl) (fun hp => hp)
    next hk =>
      have hsame := hbase id (fun _ => rfl) (fun hp => absurd (hkeeps hp) hk)
      have hid : e.updateStream c.opens id = e := by
        unfold updateStream
        rw [id, Function.update_eq_self]
      rwa [hid] at hsame

/-- All streams are opened, one after another. -/
theorem base_openStreams (h : Base heard c) (hnothing : c.waitingFor = .nothing)
    (hopens : c.opens = 0) (openings : Nat → Opening)
    (hc' : c' = c.eachStream (fun c i => c.openStream F i (openings i))) :
    Base heard c' ∧ Carries c c' ∧ c'.cancelled = c.cancelled
      ∧ c'.opens = c.config.streamCount.toNat := by
  subst hc'
  refine eachStream_induct (P := fun n d => Base heard d ∧ Carries c d
    ∧ d.cancelled = c.cancelled ∧ d.opens = n) ⟨h, (Moves.refl c).toCarries, rfl, hopens⟩ ?_
  rintro i d - ⟨hbase, hcarries, hcancelled, rfl⟩
  obtain ⟨hbase', hcarries', hcancelled', hopens'⟩ :=
    base_openStream hF hbase (hcarries.waitingFor.trans hnothing) (openings d.opens)
  exact ⟨hbase', hcarries.trans hcarries', hcancelled'.trans hcancelled, hopens'⟩

/-! ## Sending -/

omit hF in
/-- A message that is dropped changes nothing but its counter and its callback. -/
theorem base_drop {k : Counter} {next : Nat} (h : Base heard c)
    (hnext : next < c.config.streamCount.toNat) (hk : k = .streamDeferred ∨ k = .streamUnavailable)
    (hc' : c' = { c with nextStream := next, callbacks := c.callbacks.give }.drop k
      c.callbacks.calls) : Base heard c' ∧ Follows { c with callbacks := c.callbacks.give } c' := by
  subst hc'
  refine ⟨⟨?_, h.woken, h.handles, ?_, h.bounded, hnext⟩,
    ⟨⟨rfl, rfl, rfl, rfl, rfl, rfl⟩, rfl, rfl, fun _ hs => hs, fun _ hs => hs⟩⟩
  · refine Inv.congr h.inv rfl rfl rfl rfl ?_ rfl rfl rfl rfl
    exact settled_inc (by rcases hk with rfl | rfl <;> rfl)
  · refine Ledger.Step.balanced ?_ h.balanced
    refine (Ledger.Step.refuse (l := c.ledger 0)).congr ?_
    have hdue := Callbacks.due_post c.callbacks.give c.callbacks.calls true false
    refine Ledger.ext rfl ?_ ?_ rfl ?_ ?_ rfl hdue.symm rfl
    · show c.counters .streamDeferred + c.counters .streamUnavailable + 1
        = (c.inc k).counters .streamDeferred + (c.inc k).counters .streamUnavailable
      rcases hk with rfl | rfl
      · rw [counters_inc_self, counters_inc_of_ne (by simp)]
        omega
      · rw [counters_inc_self, counters_inc_of_ne (by simp)]
        omega
    all_goals rcases hk with rfl | rfl <;> rfl

omit hF in
/-- A message is put in flight, and is not counted as sent yet. -/
theorem step_send {m : InflightMessage τ} (hi : i < c.config.streamCount.toNat)
    (hm : m.completionCallback = c.callbacks.calls)
    (hs : s.inflight = (c.streams i).inflight ++ [m])
    (hstreams : c'.streams = Function.update c.streams i s) (hcounters : c'.counters = c.counters)
    (hcallbacks : c'.callbacks = c.callbacks.give) (hconfig : c'.config = c.config) :
    Ledger.Step (c.ledger 0) (c'.ledger 1) := by
  refine (Ledger.Step.send (l := c.ledger 0)).congr ?_
  have hpending : ∑ j ∈ Finset.range c.config.streamCount.toNat, (c'.streams j).pending
      = c.callbacks.calls ::ₘ ∑ j ∈ Finset.range c.config.streamCount.toNat,
        (c.streams j).pending := by
    have hsum := Ledger.sum_update_add Stream.pending c.streams s hi
    have hhere : s.pending = c.callbacks.calls ::ₘ (c.streams i).pending := by
      unfold Stream.pending
      rw [hs, List.map_append, ← Multiset.coe_add, Multiset.add_comm, ← hm]
      rfl
    rw [hhere, Multiset.add_cons, ← Multiset.cons_add] at hsum
    rw [hstreams]
    exact add_right_cancel hsum
  unfold ledger
  rw [hcounters, hcallbacks, hconfig, hpending]
  rfl

theorem base_send {next now : Nat} {signals : List Signal} (h : Base heard c)
    (hi : i < c.config.streamCount.toNat) (hnext : next < c.config.streamCount.toNat)
    (hopened : (c.streams i).state = .opened)
    (hroom : (c.streams i).inflight.length < c.config.maxInflightPerStream.toNat)
    (hc' : c' = { c with nextStream := next, callbacks := c.callbacks.give }.send F i
      c.callbacks.calls now signals) :
    Base heard c' ∧ Follows { c with callbacks := c.callbacks.give } c' := by
  subst hc'
  unfold send
  -- `b` is the client that was called, and `d` when the message is in flight
  set b : StreamClient τ ρ := { c with
    nextStream := next
    callbacks := c.callbacks.give
    nextSequence := F.nextSequence c.nextSequence } with hb
  set m : InflightMessage τ :=
    { sequence := c.nextSequence, sentAt := now, completionCallback := c.callbacks.calls } with hm
  set d : StreamClient τ ρ := b.updateStream i (fun s => { s with
      inflight := s.inflight ++ [m]
      wire := F.writeMessage c.config c.message c.nextSequence s.wire }) with hd
  have hinv : Inv heard d := by
    refine Inv.updateStream (c := b) { h.inv with } ?_ Iff.rfl
    refine { h.inv.good i with quiet := fun hs => ?_ }
    rcases hs with hs | hs
    · exact nomatch hopened.symm.trans hs
    · exact nomatch hopened.symm.trans hs
  have hraise : Safe heard d (d.raise F signals) := safe_raise hF hinv signals
  -- what is lost from inside the write is lost before it is counted as sent
  have hsent : Ledger.Step (c.ledger 0) (d.ledger 1) :=
    step_send hi (m := m) rfl rfl rfl rfl rfl rfl
  have hbalanced : ((d.raise F signals).ledger 1).Balanced :=
    (hraise.moves.ledger 1).balanced (hsent.balanced h.balanced)
  have hbounded : ∀ j, (d.streams j).inflight.length ≤ c.config.maxInflightPerStream.toNat := by
    refine streams_updateStream (c := b)
      (P := fun _ s => s.inflight.length ≤ c.config.maxInflightPerStream.toNat) ?_ h.bounded
    show ((c.streams i).inflight ++ [m]).length ≤ _
    rw [List.length_append]
    exact hroom
  have hhandles : ∀ j, (d.streams j).pooled = true → (d.streams j).cancellable = true :=
    streams_updateStream (c := b) (P := fun _ s => s.pooled = true → s.cancellable = true)
      (h.handles i) h.handles
  have hstate : ∀ j, (d.streams j).state = (c.streams j).state :=
    streams_updateStream (c := b) (P := fun j s => s.state = (c.streams j).state) rfl fun _ => rfl
  refine ⟨⟨(hraise.inv hinv).inc rfl, fun hw hp => hraise.woken h.woken hw hp,
    fun j => hraise.moves.handles j (hhandles j), hbalanced, fun j => ?_, ?_⟩,
    { hraise.moves.toFrame with
      opens := hraise.opens
      cancelled := hraise.cancelled
      opening := fun j hj => (hstate j).symm.trans (hraise.moves.opening j hj)
      closed := fun j hj => hraise.moves.closed j ((hstate j).trans hj) }⟩
  · show _ ≤ (d.raise F signals).config.maxInflightPerStream.toNat
    rw [hraise.moves.config]
    exact (hraise.moves.inflight j).length_le.trans (hbounded j)
  · show (d.raise F signals).nextStream < (d.raise F signals).config.streamCount.toNat
    rw [hraise.moves.config, hraise.moves.nextStream]
    exact hnext

theorem base_tryStartRequest (h : Base heard c) (now : Nat) (signals : List Signal) :
    Base heard (c.tryStartRequest F now signals)
      ∧ Follows { c with callbacks := c.callbacks.give } (c.tryStartRequest F now signals) := by
  have hnext : (c.nextStream + 1) % c.config.streamCount.toNat < c.config.streamCount.toNat :=
    Nat.mod_lt _ c.config.streamCount_pos
  unfold tryStartRequest
  dsimp only
  split
  · exact base_drop h hnext (.inr rfl) rfl
  next hopened =>
    split
    · exact base_drop h hnext (.inl rfl) rfl
    next hroom =>
      simp only [Bool.or_eq_true, decide_eq_true_eq, not_or, not_le] at hroom
      exact base_send hF h h.next hnext (not_ne_iff.mp hopened) hroom.2 rfl

/-! ## Ending -/

/-- A stream is told to end, and may be reset from inside of that: it counts as closing all the
same. -/
theorem base_closeGently (h : Base heard c) (signals : List Signal) :
    Base heard (c.closeGently F i signals) ∧ Carries c (c.closeGently F i signals)
      ∧ (c.closeGently F i signals).cancelled = c.cancelled
      ∧ (c.closeGently F i signals).opens = c.opens := by
  unfold closeGently
  split
  next hs =>
    have hwrite :
        Safe heard c (c.updateStream i (fun s => { s with wire := F.writeClose s.wire })) :=
      safe_touch fun _ => rfl
    have hsafe := hwrite.trans (safe_raise hF (hwrite.inv h.inv) signals)
    set d := (c.updateStream i (fun s => { s with wire := F.writeClose s.wire })).raise F signals
      with hd
    have hpast : (d.streams i).state ≠ .opening := fun hn =>
      nomatch hs.1.symm.trans (hsafe.moves.opening i hn)
    have hgood := (hsafe.inv h.inv).good i
    have hclosing : Carries d (d.updateStream i (fun s => { s with state := .closing })) :=
      carries_updateStream (fun _ => rfl) nofun (fun ha => ha)
    have hinv : Inv heard (d.updateStream i (fun s => { s with state := .closing })) := by
      refine (hsafe.inv h.inv).updateStream ?_ ⟨fun hn => (by cases hn), fun hn => absurd hn hpast⟩
      exact .of_past (hgood.asked_of_state hpast) nofun (hgood.pooled_eq_false (.inl hpast))
        hgood.late nofun nofun
    have hbase := h.safe hsafe
    exact ⟨hbase.of_carries hclosing hinv (hsafe.woken h.woken)
      (streams_updateStream (P := fun _ s => s.pooled = true → s.cancellable = true)
        (hbase.handles i) hbase.handles),
      hsafe.moves.toCarries.trans hclosing, hsafe.cancelled, hsafe.opens⟩
  next => exact ⟨h, (Moves.refl c).toCarries, rfl, rfl⟩

theorem base_closeAllGently (h : Base heard c) (raises : Nat → List Signal)
    (hc' : c' = c.eachStream (fun c i => c.closeGently F i (raises i))) :
    Base heard c' ∧ Carries c c' ∧ c'.cancelled = c.cancelled ∧ c'.opens = c.opens := by
  subst hc'
  refine eachStream_induct (P := fun _ d => Base heard d ∧ Carries c d
    ∧ d.cancelled = c.cancelled ∧ d.opens = c.opens) ⟨h, (Moves.refl c).toCarries, rfl, rfl⟩ ?_
  rintro i d - ⟨hbase, hcarries, hcancelled, hopens⟩
  obtain ⟨hbase', hcarries', hcancelled', hopens'⟩ := base_closeGently hF hbase (raises i)
  exact ⟨hbase', hcarries.trans hcarries', hcancelled'.trans hcancelled, hopens'.trans hopens⟩

end Flavour

theorem safe_giveUp (hi : i < c.config.streamCount.toNat) : Safe heard c (c.giveUp i) := by
  unfold giveUp
  split
  · exact (safe_inc (k := .streamDrainIncomplete) rfl rfl).trans
      (safe_completeInflight (c := c.inc .streamDrainIncomplete) hi)
  · exact Safe.refl c

/-- A loop of safe turns is safe. -/
theorem safe_eachStream {f : StreamClient τ ρ → Nat → StreamClient τ ρ}
    (hf : ∀ d i, i < d.config.streamCount.toNat → Safe heard d (f d i)) :
    Safe heard c (c.eachStream f) := by
  refine eachStream_induct (P := fun _ d => Safe heard c d) (Safe.refl c) ?_
  intro i d hi hd
  rw [← hd.moves.config] at hi
  exact hd.trans (hf d i hi)

end Sortie.Engine.StreamClient
