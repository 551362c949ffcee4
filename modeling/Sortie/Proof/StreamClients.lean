import Sortie.Engine.GrpcStreamClient
import Sortie.Engine.WebSocketStreamClient
import Sortie.Proof.StreamRuns

/-!
# The books of the two streaming clients

The WebSocket client learns that a stream is open from its response, the gRPC client from
the pool. Both are sound in what they do in their own ways, and so everything about runs
holds of both.
-/

namespace Sortie.Engine

open StreamClient

namespace StreamClient

variable {τ ρ : Type} {c : StreamClient τ ρ} {i : Nat} {heard : Bool → Bool → Bool}

/-- The pool hands a stream over, and `onStreamReady` notes its encoder. -/
def Stream.handOver (s : Stream τ ρ) : Stream τ ρ :=
  { s with cancellable := false, pooled := false, encoder := true, attached := true }

theorem moves_handOver : Moves c (c.updateStream i Stream.handOver) :=
  moves_updateStream (fun _ => rfl) (fun hs => hs) (fun _ => rfl) nofun (fun hs => hs)

/-- An opening stream is settled, which is counted. -/
theorem safe_resolved {f : Stream τ ρ → Stream τ ρ} {k : Counter} (hk : k.isOpening = true)
    (hi : i < c.opens) (hopening : (c.streams i).state = .opening)
    (hmoves : Moves c (c.updateStream i f)) (hsettled : (f (c.streams i)).state ≠ .opening)
    (hgood : Inv heard c → Good heard (f (c.streams i)) (i < c.opens)) :
    Safe heard c ((c.updateStream i f).inc k).openResolved.maybeExitWaitLoop := by
  refine safe_maybeExitWaitLoop
    ((hmoves.trans (moves_inc (isBooked_of_isOpening hk))).trans moves_openResolved)
    rfl rfl fun h => ?_
  refine h.resolve hi hopening (hgood h) hsettled rfl rfl rfl rfl ?_ rfl rfl rfl
  show (c.inc k).settled + c.cancelled = _
  rw [settled_inc_opening hk]
  omega

theorem closed_closeStream (hi : i < c.config.streamCount.toNat) (status : Option (Option Nat)) :
    ((c.closeStream i status).streams i).state = .closed := by
  by_cases hclosed : (c.streams i).state = .closed
  · unfold closeStream
    rw [if_pos hclosed]
    exact hclosed
  · obtain ⟨counters, callbacks, -, heq, -⟩ := closeStream_spec hi hclosed status
    rw [heq, frame_maybeExitWaitLoop.2.2]
    show (Function.update c.streams i (c.streams i).shut i).state = .closed
    rw [Function.update_self]
    rfl

theorem maybeExitWaitLoop_of_nothing (h : c.waitingFor = .nothing) : c.maybeExitWaitLoop = c := by
  unfold maybeExitWaitLoop
  rw [h]

/-- Closing a stream when nothing is waited for. -/
theorem closeStream_of_nothing (hi : i < c.config.streamCount.toNat)
    (hs : (c.streams i).state ≠ .closed) (hnothing : c.waitingFor = .nothing) :
    c.closeStream i none = (c.updateStream i (fun s => { s with
      state := .closed, encoder := false })).completeInflight i false := by
  unfold closeStream
  rw [if_neg hs]
  refine maybeExitWaitLoop_of_nothing ?_
  have hcomplete : Safe (fun _ _ => false) (c.updateStream i (fun s => { s with
      state := .closed, encoder := false })) _ := safe_completeInflight hi
  exact hcomplete.moves.waitingFor.trans hnothing

theorem completeInflight_of_nil (h : (c.streams i).inflight = []) (success : Bool) :
    c.completeInflight i success = c := by
  unfold completeInflight
  rw [h]
  rfl

theorem updateStream_updateStream (f g : Stream τ ρ → Stream τ ρ) :
    (c.updateStream i f).updateStream i g = c.updateStream i (fun s => g (f s)) := by
  unfold updateStream
  simp only [Function.update_idem, Function.update_self]

theorem updateStream_congr {f g : Stream τ ρ → Stream τ ρ} (h : f (c.streams i) = g (c.streams i)) :
    c.updateStream i f = c.updateStream i g := by
  unfold updateStream
  rw [h]

/-- The request for a stream that the pool has not given is taken back. -/
theorem safe_forgotten (hp : (c.streams i).pooled = true)
    (hnothing : c.waitingFor = .nothing) :
    Safe heard c ((c.inc .streamOpenFailures).openResolved.updateStream i Stream.forgotten) := by
  have hsafe : Safe heard c (c.onStreamOpenFailure i) := safe_onStreamOpenFailure hp
  have heq : c.onStreamOpenFailure i
      = (c.inc .streamOpenFailures).openResolved.updateStream i Stream.forgotten :=
    maybeExitWaitLoop_of_nothing hnothing
  rwa [heq] at hsafe

/-- `terminate` gives up on a stream that opens, and counts it nowhere. -/
theorem ends_forgotten (h : Inv heard c) (hp : (c.streams i).pooled = true) :
    Ends heard c { (c.updateStream i Stream.forgotten).openResolved with
      cancelled := c.cancelled + 1 } i := by
  have hgood := h.good i
  have hopening := (hgood.pooled hp).1
  have hmoves : Moves c (c.updateStream i Stream.forgotten).openResolved :=
    moves_forgotten.trans moves_openResolved
  refine ⟨{ hmoves with }, rfl, ?_, ?_, fun hs => absurd hopening hs⟩
  · refine h.resolve (hgood.known (.inl hp)) hopening (hgood.forgotten hp) nofun
      rfl rfl rfl rfl ?_ rfl rfl rfl
    show c.settled + (c.cancelled + 1) = _
    omega
  · show ((c.updateStream i Stream.forgotten).streams i).state = .closed
    rw [streams_updateStream_self]
    rfl

theorem Ends.safe {c' c'' : StreamClient τ ρ} (h : Ends heard c c' i) (hs : Safe heard c' c'') :
    Ends heard c c'' i where
  moves := h.moves.trans hs.moves
  opens := hs.opens.trans h.opens
  inv := hs.inv h.inv
  closed := hs.moves.closed i h.closed
  cancelled := fun hn => hs.cancelled.trans (h.cancelled hn)

theorem ends_closeStream (h : Inv heard c) (hi : i < c.config.streamCount.toNat)
    (hs : (c.streams i).state ≠ .opening) : Ends heard c (c.closeStream i none) i := by
  have hsafe : Safe heard c (c.closeStream i none) := safe_closeStream hi hs none
  exact ⟨hsafe.moves, hsafe.opens, hsafe.inv h, closed_closeStream hi none,
    fun _ => hsafe.cancelled⟩

/-- `terminate` closes a stream whose response is awaited. -/
theorem ends_closeOpening (h : Inv heard c) (hi : i < c.config.streamCount.toNat)
    (hopening : (c.streams i).state = .opening) (ha : (c.streams i).attached = true)
    (hnothing : c.waitingFor = .nothing) :
    Ends heard c (closeStream { c.openResolved with cancelled := c.cancelled + 1 } i none) i := by
  have hgood := h.good i
  have hasked := hgood.known (.inr ha)
  have hmoves : Moves c { c.openResolved with cancelled := c.cancelled + 1 } :=
    { (moves_openResolved (c := c)) with }
  have hclosed := closed_closeStream (c := { c.openResolved with cancelled := c.cancelled + 1 })
    (i := i) hi none
  obtain ⟨counters, callbacks, hclose, heq, hcounters⟩ :=
    closeStream_spec (c := { c.openResolved with cancelled := c.cancelled + 1 }) (i := i) hi
      (fun hn => nomatch hopening.symm.trans hn) none
  rw [heq, maybeExitWaitLoop_of_nothing (by exact hnothing)] at hclosed ⊢
  refine ⟨hmoves.trans hclose, rfl, ?_, hclosed, fun hs => absurd hopening hs⟩
  refine h.resolve hasked hopening (hgood.shut hasked (hgood.pooled_eq_false (.inr ha)))
    nofun rfl rfl rfl rfl ?_ rfl rfl rfl
  rw [settled_congr (c := c) hcounters]
  show c.settled + (c.cancelled + 1) = _
  omega

end StreamClient

/-! ## The WebSocket client -/

namespace WebSocketStreamBenchmarkClientImpl

variable {c : WebSocketStreamBenchmarkClientImpl} {i : Nat} {out : Outside}

/-- A stream is past opening once it was answered. -/
def heard (_attached answered : Bool) : Bool := answered

theorem safe_handOver (hp : (c.streams i).pooled = true) :
    Safe heard c (c.updateStream i Stream.handOver) where
  moves := moves_handOver
  opens := rfl
  cancelled := rfl
  inv := fun h => by
    have hgood := h.good i
    obtain ⟨hopening, -, hattached⟩ := hgood.pooled hp
    have hanswered : (c.streams i).answered = false :=
      eq_false_of_ne_true fun ha => nomatch hattached.symm.trans (hgood.late ha)
    refine h.updateStream ?_ Iff.rfl
    exact {
      pooled := nofun
      known := fun _ => hgood.known (.inl hp)
      fresh := fun hn => absurd (hgood.known (.inl hp)) hn
      late := fun _ => rfl
      past := fun ha => nomatch hanswered.symm.trans ha
      live := fun _ _ => .inr ⟨rfl, hanswered⟩
      quiet := hgood.quiet
      encoder := fun _ => rfl
      held := fun _ _ => rfl }
  woken := fun h => h

theorem safe_onStreamReady (h : Inv heard c) (hi : i < c.config.streamCount.toNat)
    (hp : (c.streams i).pooled = true) (encodes : Bool) :
    Safe heard c (onStreamReady c i encodes) := by
  unfold onStreamReady
  have hover := safe_handOver hp
  split
  · exact hover
  · refine hover.trans (safe_closeOpening (c := c.updateStream i Stream.handOver)
      (k := .streamOpenFailures) rfl hi ?_ (fun _ => ?_) none)
    · rw [streams_updateStream_self]
      exact ((h.good i).pooled hp).1
    · refine ⟨(h.good i).known (.inl hp), ?_⟩
      rw [streams_updateStream_self]
      rfl

theorem sound_flavour : flavour.Sound heard where
  ready := fun _ _ encodes h hi hp => safe_onStreamReady h hi hp encodes
  keeps := fun s hs he => by
    show (s.state == .opening && !s.encoder) = true
    rw [hs, he]
    rfl

theorem safe_send (h : Inv heard c) (frame : WebSocket.Frame) (signals : List Signal) :
    Safe heard c (send c i frame signals) := by
  have hwrite : Safe heard c (c.updateStream i (fun s => { s with wire := s.wire.write frame })) :=
    safe_touch fun _ => rfl
  exact hwrite.trans (safe_raise sound_flavour (hwrite.inv h) signals)

/-- The response of a stream that opens settles it. -/
theorem safe_onResponseHeaders (h : Inv heard c) (hi : i < c.config.streamCount.toNat)
    (ha : (c.streams i).attached = true) (headers : ResponseHeaders) (endStream : Bool)
    (raises : Nat → List Signal) :
    Safe heard c (onResponseHeaders c out i headers endStream raises)
      ∧ ((onResponseHeaders c out i headers endStream raises).streams i).state ≠ .opening := by
  have hgood := h.good i
  have hasked : i < c.opens := hgood.known (.inr ha)
  have hpooled : (c.streams i).pooled = false := hgood.pooled_eq_false (.inr ha)
  unfold onResponseHeaders
  split
  next hs => exact ⟨Safe.refl c, hs⟩
  next hs =>
    have hopening : (c.streams i).state = .opening := not_ne_iff.mp hs
    dsimp only
    split
    · -- the upgrade is refused
      have hclose : Safe heard c
          ((c.inc .streamUpgradeRejected).openResolved.closeStream i none) :=
        safe_closeOpening rfl hi hopening (fun _ => ⟨hasked, hpooled⟩) none
      have hclosed :
          (((c.inc .streamUpgradeRejected).openResolved.closeStream i none).streams i).state
          = .closed := closed_closeStream (c := (c.inc .streamUpgradeRejected).openResolved) hi none
      split
      · have hraise := safe_raise sound_flavour (hclose.inv h) (raises 0)
        refine ⟨hclose.trans hraise, fun ho => ?_⟩
        exact nomatch (hraise.moves.closed i hclosed).symm.trans ho
      · exact ⟨hclose, fun ho => nomatch hclosed.symm.trans ho⟩
    · refine ⟨safe_resolved (f := fun s => { s with state := .opened })
        (k := .streamsOpened) rfl hasked
        hopening ?_ nofun fun _ => ?_, ?_⟩
      · exact moves_updateStream (fun _ => rfl) nofun (fun hn => hn) (fun hn => hn)
          (fun hn => nomatch hopening.symm.trans hn)
      · exact .of_past hasked nofun hpooled hgood.late nofun (fun _ => hgood.held hopening ha)
      · rw [frame_maybeExitWaitLoop.2.2]
        show (Function.update c.streams i { c.streams i with state := .opened } i).state ≠ .opening
        rw [Function.update_self]
        simp

section

variable (hi : i < c.config.streamCount.toNat)
include hi

theorem safe_onMessage (payload : List UInt8) (now : Nat) :
    Safe heard c (onMessage c out i payload now) := by
  have hunexpected : Safe heard c (c.inc .streamUnexpectedMessage) := safe_inc rfl rfl
  unfold onMessage
  split
  · exact hunexpected
  · split
    · exact hunexpected
    next sequence _ =>
      dsimp only
      split
      · exact hunexpected
      next message hfound =>
        -- the first message with this number is taken out
        exact safe_receive hi (Ledger.perm_eraseP_of_find hfound) List.eraseP_sublist now

theorem safe_onFragment (frame : WebSocket.Frame) (now : Nat) :
    Safe heard c (onFragment c out i frame now) := by
  unfold onFragment
  have happend : Safe heard c (c.updateStream i (fun s => { s with
      wire := { s.wire with fragments := s.wire.fragments ++ frame.payload } })) :=
    safe_touch fun _ => rfl
  split
  · refine happend.trans (Safe.trans (safe_onMessage ?_ _ now) (safe_touch fun _ => rfl))
    exact hi
  · exact happend

theorem safe_onFrames (h : Inv heard c) (hs : (c.streams i).state ≠ .opening) (now : Nat)
    (raises : Nat → List Signal) (k : Nat) (frames : List WebSocket.Frame) :
    Safe heard c (onFrames out i now raises k frames c).1 := by
  induction frames generalizing c k with
  | nil => exact Safe.refl c
  | cons frame frames ih =>
    -- what a frame leads to is safe, and the stream stays past opening
    have hnext :
        ∀ d, Safe heard c d → Safe heard c (onFrames out i now raises (k + 1) frames d).1 := by
      intro d hd
      exact hd.trans (ih (hd.index hi) (hd.inv h) (hd.past hs) (k + 1))
    unfold onFrames
    cases frame.opcode with
    | text => exact hnext _ (safe_onFragment hi frame now)
    | binary => exact hnext _ (safe_onFragment hi frame now)
    | continuation => exact hnext _ (safe_onFragment hi frame now)
    | pong => exact hnext _ (Safe.refl c)
    | ping =>
      refine hnext _ ?_
      split
      · exact safe_send h _ _
      · exact Safe.refl c
    | close =>
      have hanswer : Safe heard c (if (c.streams i).state = .opened then
          send (c.inc .streamEarlyClose) i (WebSocket.closeFrame 1000) (raises k) else c) := by
        split
        · exact (safe_inc (k := .streamEarlyClose) rfl rfl).trans (safe_send (h.inc rfl) _ _)
        · exact Safe.refl c
      exact hanswer.trans (safe_closeStream (hanswer.index hi) (hanswer.past hs) none)

theorem safe_onResponseEnd (hs : (c.streams i).state ≠ .opening) :
    Safe heard c (onResponseEnd c i) := by
  unfold onResponseEnd
  split
  · exact (safe_inc (k := .streamEarlyClose) rfl rfl).trans
      (safe_closeStream (c := c.inc .streamEarlyClose) hi hs none)
  · exact safe_closeStream hi hs none

theorem safe_onResponseData (h : Inv heard c) (hs : (c.streams i).state ≠ .opening)
    (data : List UInt8) (endStream : Bool) (now : Nat) (raises : Nat → List Signal) :
    Safe heard c (onResponseData c out i data endStream now raises) := by
  -- the response may end whatever is made of the data
  have hend : ∀ d, Safe heard c d → Safe heard c (if endStream then onResponseEnd d i else d) := by
    intro d hd
    split
    · exact hd.trans (safe_onResponseEnd (hd.index hi) (hd.past hs))
    · exact hd
  unfold onResponseData
  dsimp only
  split
  · generalize WebSocket.Decoder.feed ((c.streams i).wire.received ++ data) = fed
    have hfed : Safe heard c (c.updateStream i (fun s => { s with
        wire := s.wire.keep (s.wire.received ++ data) })) := safe_touch fun _ => rfl
    set d := c.updateStream i (fun s => { s with wire := s.wire.keep (s.wire.received ++ data) })
      with hd
    have hsd : (d.streams i).state ≠ .opening := hfed.past hs
    split
    · -- the decoder refuses the data, and the connection is given up
      have hclose : Safe heard c ((d.inc .streamProtocolErrors).closeStream i none) :=
        (hfed.trans (safe_inc (k := .streamProtocolErrors) rfl rfl)).trans
          (safe_closeStream (c := d.inc .streamProtocolErrors) hi hsd none)
      split
      · exact hclose.trans (safe_raise sound_flavour (hclose.inv h) (raises 0))
      · exact hclose
    · have hframes : Safe heard c (onFrames out i now raises 0 fed.items d).1 :=
        hfed.trans (safe_onFrames (hfed.index hi) (hfed.inv h) hsd now raises 0 fed.items)
      revert hframes
      rcases onFrames out i now raises 0 fed.items d with ⟨e, returned⟩
      intro hframes
      cases returned with
      | true => exact hframes
      | false => exact hend e hframes
  · exact hend c (Safe.refl c)

/-- A stream that still opens is settled: its request is taken back, or it is reset. -/
theorem safe_settle (h : Base heard c) (hnothing : c.waitingFor = .nothing) (hasked : i < c.opens)
    (signals : List Signal) :
    Safe heard c (settle c i signals) ∧ ((settle c i signals).streams i).state ≠ .opening := by
  unfold settle
  split
  next hs => exact ⟨Safe.refl c, hs⟩
  next hs =>
    have hopening : (c.streams i).state = .opening := not_ne_iff.mp hs
    have hgood := h.inv.good i
    rcases hgood.live hopening hasked with hp | ⟨ha, -⟩
    · -- the pool has not answered yet
      have hencoder := (hgood.pooled hp).2.1
      have hclosed : ((c.inc .streamOpenFailures).openResolved.updateStream i
          (fun s => { s with cancellable := false })).closeStream i none
          = ((c.inc .streamOpenFailures).openResolved.updateStream i
            (fun s => { s with cancellable := false })).updateStream i
            (fun s => { s with state := .closed, encoder := false }) := by
        rw [closeStream_of_nothing (by exact hi) _ (by exact hnothing), completeInflight_of_nil]
        · rw [streams_updateStream_self, streams_updateStream_self]
          exact hgood.quiet (.inl hopening)
        · rw [streams_updateStream_self]
          exact fun hn => nomatch hopening.symm.trans hn
      dsimp only
      rw [hclosed, updateStream_updateStream, updateStream_updateStream, if_neg, if_pos,
        updateStream_congr (g := Stream.forgotten)]
      · refine ⟨safe_forgotten hp hnothing, ?_⟩
        rw [streams_updateStream_self]
        simp [Stream.forgotten]
      · show { c.streams i with
          state := .closed, encoder := false, cancellable := false, pooled := false }
          = (c.streams i).forgotten
        unfold Stream.forgotten
        rw [hencoder]
      · exact h.handles i hp
      · exact ne_true_of_eq_false hencoder
    · -- its response is awaited
      have hpooled := hgood.pooled_eq_false (.inr ha)
      have htouch : Safe heard c (c.updateStream i (fun s => { s with cancellable := false })) :=
        ⟨moves_updateStream (fun _ => rfl) (fun hs => hs) (fun ha => ha)
          (fun _ hp => nomatch hpooled.symm.trans hp) (fun hs => hs), rfl, rfl,
          fun h => h.updateStream { h.good i with } Iff.rfl, fun h => h⟩
      have hclose := htouch.trans (safe_closeOpening
        (c := c.updateStream i (fun s => { s with cancellable := false }))
        (k := .streamOpenFailures) rfl hi (by rw [streams_updateStream_self]; exact hopening)
        (fun _ => ⟨hasked, by rw [streams_updateStream_self]; exact hpooled⟩) none)
      have hclosed := closed_closeStream (c := ((c.updateStream i (fun s => { s with
        cancellable := false })).inc .streamOpenFailures).openResolved) hi none
      rw [if_pos (show ((c.inc .streamOpenFailures).openResolved.streams i).encoder = true from
        hgood.held hopening ha)]
      have hraise := safe_raise sound_flavour (hclose.inv h.inv) signals
      exact ⟨hclose.trans hraise, fun hs =>
        nomatch (hraise.moves.closed i hclosed).symm.trans hs⟩

/-- A stream is cancelled or reset. -/
theorem ends_terminateStream (h : Base heard c) (hnothing : c.waitingFor = .nothing)
    (hasked : i < c.opens) (signals : List Signal) :
    Ends heard c (terminateStream c i signals) i := by
  have hgood := h.inv.good i
  unfold terminateStream
  dsimp only
  split
  next hs =>
    rcases hgood.live hs.1 hasked with hp | ⟨ha, -⟩
    · exact ends_forgotten h.inv hp
    · exact nomatch hs.2.1.symm.trans (hgood.held hs.1 ha)
  next hn =>
    split
    next hs =>
      -- what is done about the stream is what `closeStream` does
      have hclose :
          ∀ d : WebSocketStreamBenchmarkClientImpl, Ends heard c (d.closeStream i none) i →
          d.config = c.config → d.streams = c.streams → d.waitingFor = c.waitingFor →
          Ends heard c (if (c.streams i).encoder = true then
            ((d.updateStream i (fun s => { s with
              state := .closed, encoder := false })).completeInflight i false).raise flavour signals
          else (d.updateStream i (fun s => { s with
            state := .closed, encoder := false })).completeInflight i false) i := by
        intro d hends hconfig hstreams hwaiting
        rw [← closeStream_of_nothing (by rw [hconfig]; exact hi) (by rw [hstreams]; exact hs)
          (hwaiting.trans hnothing)]
        split
        · exact hends.safe (safe_raise sound_flavour hends.inv signals)
        · exact hends
      by_cases hopening : (c.streams i).state = .opening
      · rw [if_pos hopening]
        refine hclose _ (ends_closeOpening h.inv hi hopening ?_ hnothing) rfl rfl rfl
        -- its request would have been taken back otherwise
        rcases hgood.live hopening hasked with hp | ⟨ha, -⟩
        · exact absurd ⟨hopening, (hgood.pooled hp).2.1, h.handles i hp⟩ hn
        · exact ha
      · rw [if_neg hopening]
        exact hclose c (ends_closeStream h.inv hi hopening) rfl rfl rfl
    next hs =>
      exact ⟨Moves.refl c, rfl, h.inv, not_ne_iff.mp hs, fun _ => rfl⟩

end

/-- **The WebSocket client is sound**, and leaves no stream opening. -/
theorem sound_handlers (out : Outside) : (handlers out).Sound heard True where
  flavour := sound_flavour
  unheard := rfl
  settle := fun c i signals h hnothing hi hasked =>
    ⟨(safe_settle hi h hnothing hasked signals).1,
      fun _ => (safe_settle hi h hnothing hasked signals).2⟩
  response := fun c i r now raises h hi ha hr => by
    cases r with
    | headers headers endStream =>
      obtain ⟨hsafe, hpast⟩ := safe_onResponseHeaders (h.inv) hi ha headers endStream raises
      exact ⟨hsafe, fun _ => hpast⟩
    | data bytes endStream =>
      have hs := (h.inv.good i).past (hr.resolve_right (by simp [handlers, Response.isHeaders]))
      exact ⟨safe_onResponseData hi h.inv hs bytes endStream now raises, fun hn => by cases hn⟩
    | trailers =>
      have hs := (h.inv.good i).past (hr.resolve_right (by simp [handlers, Response.isHeaders]))
      exact ⟨safe_onResponseEnd hi hs, fun hn => by cases hn⟩
  terminate := fun c i signals h hnothing hi hasked =>
    ends_terminateStream hi h hnothing hasked signals

end WebSocketStreamBenchmarkClientImpl

/-! ## The gRPC client -/

namespace GrpcStreamBenchmarkClientImpl

variable {c : GrpcStreamBenchmarkClientImpl} {i : Nat}

/-- A stream is past opening once the pool gave it. -/
def heard (attached _answered : Bool) : Bool := attached

/-- A stream that the pool gave is settled at once, and counted by `k`. -/
theorem safe_given {state : StreamState} {k : StreamClient.Counter} (hk : k.isOpening = true)
    (hstate : state = .opened ∨ state = .closed) (h : Inv heard c)
    (hp : (c.streams i).pooled = true) :
    Safe heard c (((c.updateStream i Stream.handOver).updateStream i
      (fun s => { s with state := state })).inc k).openResolved.maybeExitWaitLoop := by
  have hgood := h.good i
  obtain ⟨hopening, -, -⟩ := hgood.pooled hp
  have hpast : state ≠ .opening := by rcases hstate with rfl | rfl <;> simp
  rw [updateStream_updateStream]
  refine safe_resolved hk (hgood.known (.inl hp)) hopening ?_ hpast fun _ => ?_
  · exact moves_updateStream (fun _ => rfl) (fun hn => absurd hn hpast) (fun _ => rfl)
      nofun (fun hn => nomatch hopening.symm.trans hn)
  · exact .of_past (hgood.known (.inl hp)) hpast rfl (fun _ => rfl)
      (fun _ => hgood.quiet (.inl hopening)) (fun _ => rfl)

theorem sound_flavour : flavour.Sound heard where
  ready := fun c i encodes h _ hp => by
    show Safe heard c (onStreamReady c i encodes)
    cases encodes with
    | true => exact safe_given (k := .streamsOpened) rfl (.inl rfl) h hp
    | false => exact safe_given (k := .streamOpenFailures) rfl (.inr rfl) h hp
  keeps := fun s hs _ => by
    show (s.state == .opening) = true
    rw [hs]
    rfl

section

variable (hi : i < c.config.streamCount.toNat)
include hi

theorem safe_closeByServer (hs : (c.streams i).state ≠ .opening) (status : Option Nat) :
    Safe heard c (closeByServer c i status) := by
  unfold closeByServer
  split
  · exact (safe_inc (k := .streamEarlyClose) rfl rfl).trans
      (safe_closeStream (c := c.inc .streamEarlyClose) hi hs (some status))
  · exact safe_closeStream hi hs (some status)

theorem safe_onFrames (now frames : Nat) :
    Safe heard c (onFrames i now frames c) := by
  induction frames generalizing c with
  | zero => exact Safe.refl c
  | succ frames ih =>
    unfold onFrames
    split
    · have hunexpected : Safe heard c (c.inc .streamUnexpectedMessage) := safe_inc rfl rfl
      exact hunexpected.trans (ih hi)
    next message rest hinflight =>
      have hreceive : Safe heard c (c.receive i message rest now) := by
        refine safe_receive hi ?_ ?_ now
        · rw [hinflight]
        · rw [hinflight]
          exact List.sublist_cons_self message rest
      exact hreceive.trans (ih (hreceive.index hi))

theorem safe_onResponse (hs : (c.streams i).state ≠ .opening) (r : Response) (now : Nat)
    (raises : Nat → List Signal) :
    Safe heard c (onResponse c i r now raises) := by
  unfold onResponse
  cases r with
  | headers status endStream =>
    dsimp only
    unfold onResponseHeaders
    split
    · exact safe_closeByServer hi hs status
    · exact Safe.refl c
  | data frames endStream =>
    unfold onResponseData
    have hframes := safe_onFrames (c := c) hi now frames
    dsimp only
    split
    · exact hframes.trans (safe_closeByServer (hframes.index hi) (hframes.past hs) none)
    · exact hframes
  | trailers status => exact safe_closeByServer hi hs status

theorem ends_terminateStream (h : Base heard c) (hnothing : c.waitingFor = .nothing)
    (hasked : i < c.opens) (signals : List Signal) :
    Ends heard c (terminateStream c i signals) i := by
  have hgood := h.inv.good i
  -- a stream that opens is one the pool has not given
  have hpooled : (c.streams i).state = .opening → (c.streams i).pooled = true := by
    intro hopening
    rcases hgood.live hopening hasked with hp | ⟨ha, hn⟩
    · exact hp
    · exact nomatch ha.symm.trans hn
  unfold terminateStream
  dsimp only
  split
  next hs => exact ends_forgotten h.inv (hpooled hs.1)
  next hn =>
    have hpast : (c.streams i).state ≠ .opening := fun hs => hn ⟨hs, h.handles i (hpooled hs)⟩
    split
    next hs =>
      have hlive : (c.streams i).state ≠ .closed := by rcases hs with hs | hs <;> rw [hs] <;> simp
      have hends := ends_closeStream h.inv hi hpast
      rw [closeStream_of_nothing hi hlive hnothing] at hends
      split
      · exact hends.safe (safe_raise sound_flavour hends.inv signals)
      · exact hends
    next hs =>
      refine ⟨Moves.refl c, rfl, h.inv, ?_, fun _ => rfl⟩
      cases hstate : (c.streams i).state with
      | opening => exact absurd hstate hpast
      | opened => exact absurd (.inl hstate) hs
      | closing => exact absurd (.inr hstate) hs
      | closed => rfl

end

/-- **The gRPC client is sound.** Its `prepare` leaves streams opening that the pool has not given.
-/
theorem sound_handlers : handlers.Sound heard False where
  flavour := sound_flavour
  unheard := rfl
  settle := fun c _ _ _ _ _ _ => ⟨Safe.refl c, fun hn => hn.elim⟩
  response := fun c i r now raises h hi ha _ => by
    have hs := (h.inv.good i).past ha
    have hsafe := safe_onResponse hi hs r now raises
    exact ⟨hsafe, fun _ => hsafe.past hs⟩
  terminate := fun c i signals h hnothing hi hasked =>
    ends_terminateStream hi h hnothing hasked signals

end GrpcStreamBenchmarkClientImpl

/-! ## Both -/

/-- **The books of both streaming clients**, after any run. When the WebSocket client's `prepare`
has returned, every stream was opened, failed to open or was rejected. -/
theorem streamClients_accounted :
    (∀ out config es c, WebSocketStreamBenchmarkClientImpl.Reaches out config es c →
      Accounted config es c
        ∧ (c.prepared = false → ∀ message openings,
          (c.prepare WebSocketStreamBenchmarkClientImpl.flavour message openings).waitingFor
            = .opens ↔
            ∃ i < config.streamCount.toNat, ((c.prepare WebSocketStreamBenchmarkClientImpl.flavour
              message openings).streams i).state = .opening)
        ∧ (c.prepared = true → c.waitingFor ≠ .opens →
          c.counters .streamsOpened + c.counters .streamOpenFailures
            + c.counters .streamUpgradeRejected = config.streamCount.toNat))
    ∧ ∀ config es c, GrpcStreamBenchmarkClientImpl.Reaches config es c →
      Accounted config es c
        ∧ (c.prepared = false → ∀ message openings,
          (c.prepare GrpcStreamBenchmarkClientImpl.flavour message openings).waitingFor = .opens ↔
            ∃ i < config.streamCount.toNat, ((c.prepare GrpcStreamBenchmarkClientImpl.flavour
              message openings).streams i).state = .opening) := by
  refine ⟨fun out config es c h => ?_, fun config es c h => ?_⟩
  · have hsound := WebSocketStreamBenchmarkClientImpl.sound_handlers out
    obtain ⟨hk, hcalls⟩ := kept_run hsound h
    exact ⟨hk.accounted hcalls,
      fun hp message openings => waits_prepare hsound hk hp message openings,
      fun hp hw => hk.settled_of_prepared hp hw⟩
  · have hsound := GrpcStreamBenchmarkClientImpl.sound_handlers
    obtain ⟨hk, hcalls⟩ := kept_run hsound h
    exact ⟨hk.accounted hcalls,
      fun hp message openings => waits_prepare hsound hk hp message openings⟩

/-- Two streams, with room for one message each. -/
def pairOfStreams : Config where
  streamCount := 2
  maxInflightPerStream := 1
  streamCount_pos := Nat.two_pos
  maxInflight_pos := Nat.one_pos

namespace WebSocketStreamBenchmarkClientImpl

/-- Knows the key that is drawn, and reads the number of the first message. -/
def knowsFirst : Outside where
  acceptKey key := if key = "dGhlIHNhbXBsZSBub25jZQ==" then "s3pPLMBiTxaQ9kYGzzhZRbK+xOo=" else ""
  simpleHexAtoi bytes := if bytes = sequencePrefix 0 then some 0 else none

/-- The answer to that key. -/
def upgraded : ResponseHeaders where
  status := 101
  upgrade := some "websocket"
  connection := some "Upgrade"
  accept := ["s3pPLMBiTxaQ9kYGzzhZRbK+xOo="]

/-- The first stream is upgraded and the second finds no pool. Of three messages one is echoed, one
finds no stream and one no room. -/
def echoEvents : List (Event Response) :=
  [.prepare [104, 105] (fun i => ⟨i == 0, "dGhlIHNhbXBsZSBub25jZQ==", [.ready 0 true]⟩),
    .response 0 (.headers upgraded false) 1 (fun _ => []), .prepareWait (fun _ => []),
    .tryStartRequest 5 [], .tryStartRequest 6 [], .tryStartRequest 7 [],
    .response 0 (.data (0x81 :: 18 :: (sequencePrefix 0 ++ [104, 105])) false) 9 (fun _ => []),
    .posted, .posted, .terminate (fun _ => []) (fun _ => []), .waitTimer,
    .finishWait (fun _ => [.reset 0])]

end WebSocketStreamBenchmarkClientImpl

namespace GrpcStreamBenchmarkClientImpl

/-- The pool gives the first stream at once and never the second. A message is lost when its stream
is reset from inside the write. -/
def lossEvents : List (Event Response) :=
  [.prepare [104, 105] (fun i => { raises := if i = 0 then [.ready 0 true] else [] }),
    .waitTimer, .prepareWait (fun _ => []), .tryStartRequest 5 [.reset 0], .tryStartRequest 6 [],
    .posted, .terminate (fun _ => []) (fun _ => [])]

end GrpcStreamBenchmarkClientImpl

theorem streamClients_accounted_pair :
    (∃ c, WebSocketStreamBenchmarkClientImpl.Reaches WebSocketStreamBenchmarkClientImpl.knowsFirst
        pairOfStreams WebSocketStreamBenchmarkClientImpl.echoEvents c
      ∧ Accounted pairOfStreams WebSocketStreamBenchmarkClientImpl.echoEvents c
      ∧ c.counters .streamMessagesReceived = 1 ∧ c.counters .streamUnavailable = 1
      ∧ c.counters .streamDeferred = 1 ∧ c.terminated = true)
    ∧ ∃ c, GrpcStreamBenchmarkClientImpl.Reaches pairOfStreams
        GrpcStreamBenchmarkClientImpl.lossEvents c
      ∧ Accounted pairOfStreams GrpcStreamBenchmarkClientImpl.lossEvents c
      ∧ c.counters .streamMessagesSent = 1 ∧ c.counters .streamInflightLost = 1
      ∧ c.terminated = true := by
  constructor
  · exact ⟨_, Lts.Run.of_foldlM_and rfl fun h =>
      ⟨(streamClients_accounted.1 _ _ _ _ h).1, rfl, rfl, rfl, rfl⟩⟩
  · exact ⟨_, Lts.Run.of_foldlM_and rfl fun h =>
      ⟨(streamClients_accounted.2 _ _ _ h).1, rfl, rfl, rfl⟩⟩

end Sortie.Engine
