import Sortie.Proof.StreamClients

/-!
# What the WebSocket client counts, and how its response is cut

A response arrives in chunks. What the client makes of one depends on little of what it
knows, which is `Seen`, and the handling of a chunk is a function of that. Frames are
handled in the order they arrive, whichever chunk they came in. But a chunk that ends in a
malformed header is given up whole: the frames in front of it that came in the same chunk
are dropped, and those that came in an earlier one were counted.
-/

namespace Sortie.Engine.WebSocketStreamBenchmarkClientImpl

open StreamClient Sortie.Engine.WebSocket Incremental

variable {c : WebSocketStreamBenchmarkClientImpl} {i : Nat} {out : Outside}
variable {f : Frame} {signals : List Signal} {bytes : List UInt8}

/-- What is counted about responses. -/
structure Tally where
  messagesReceived : Nat
  unexpectedMessage : Nat
  inflightLost : Nat
  earlyClose : Nat
  protocolErrors : Nat
  deriving DecidableEq, Repr

def tally (c : WebSocketStreamBenchmarkClientImpl) : Tally where
  messagesReceived := c.counters .streamMessagesReceived
  unexpectedMessage := c.counters .streamUnexpectedMessage
  inflightLost := c.counters .streamInflightLost
  earlyClose := c.counters .streamEarlyClose
  protocolErrors := c.counters .streamProtocolErrors

/-- What the handling of a response looks at, with what it counts. -/
structure Seen where
  state : StreamState
  inflight : List (InflightMessage UInt64)
  received : List UInt8
  fragments : List UInt8
  tally : Tally

def seen (c : WebSocketStreamBenchmarkClientImpl) (i : Nat) : Seen where
  state := (c.streams i).state
  inflight := (c.streams i).inflight
  received := (c.streams i).wire.received
  fragments := (c.streams i).wire.fragments
  tally := tally c

namespace Seen

/-- A closed stream loses what is in flight. -/
def close (v : Seen) : Seen :=
  { v with
    state := .closed
    inflight := []
    tally := { v.tally with inflightLost := v.tally.inflightLost + v.inflight.length } }

def unexpected (v : Seen) : Seen :=
  { v with tally := { v.tally with unexpectedMessage := v.tally.unexpectedMessage + 1 } }

def receive (v : Seen) (rest : List (InflightMessage UInt64)) : Seen :=
  { v with
    inflight := rest
    tally := { v.tally with messagesReceived := v.tally.messagesReceived + 1 } }

/-- A whole message. -/
def message (out : Outside) (v : Seen) (payload : List UInt8) : Seen :=
  if payload.length < kSequencePrefixLength then v.unexpected
  else match out.simpleHexAtoi (payload.take kSequencePrefixLength) with
    | none => v.unexpected
    | some sequence =>
      match v.inflight.find? (fun m => m.sequence == sequence) with
      | none => v.unexpected
      | some _ => v.receive (v.inflight.eraseP fun m => m.sequence == sequence)

/-- A piece of a message, perhaps its last one. -/
def fragment (out : Outside) (v : Seen) (f : Frame) : Seen :=
  let v := { v with fragments := v.fragments ++ f.payload }
  if f.fin then { v.message out v.fragments with fragments := [] } else v

/-- A frame on a stream that is not closed. -/
def frame (out : Outside) (v : Seen) (f : Frame) : Seen :=
  match f.opcode with
  | .text | .binary | .continuation => v.fragment out f
  | .ping | .pong => v
  | .close =>
    if v.state = .opened then
      close { v with tally := { v.tally with earlyClose := v.tally.earlyClose + 1 } }
    else v.close

/-- Frames, up to the one that closes the stream. -/
def frames (out : Outside) (v : Seen) (fs : List Frame) : Seen :=
  fs.foldl (fun v f => if v.state = .closed then v else v.frame out f) v

/-- A chunk of a response. -/
def data (out : Outside) (v : Seen) (bytes : List UInt8) : Seen :=
  if v.state = .closed then v
  else
    let fed := Decoder.feed (v.received ++ bytes)
    let v := { v with received := fed.rest }
    if fed.ok then v.frames out fed.items
    else close { v with tally := { v.tally with protocolErrors := v.tally.protocolErrors + 1 } }

end Seen

/-! ## The client as it is seen -/

theorem seen_maybeExitWaitLoop : seen c.maybeExitWaitLoop i = seen c i := by
  unfold maybeExitWaitLoop
  split
  · split <;> rfl
  · split <;> rfl
  · rfl

theorem seen_addLatency (latency : Nat) : seen (c.addLatency latency) i = seen c i := by
  unfold addLatency
  split <;> rfl

/-- A change to a stream of which only this is seen. -/
theorem seen_updateStream (f : StreamClient.Stream UInt64 Wire → StreamClient.Stream UInt64 Wire) :
    seen (c.updateStream i f) i = { seen c i with
      state := (f (c.streams i)).state
      inflight := (f (c.streams i)).inflight
      received := (f (c.streams i)).wire.received
      fragments := (f (c.streams i)).wire.fragments } := by
  unfold seen
  rw [streams_updateStream_self]
  rfl

/-- A change to a stream of which nothing is seen. -/
theorem seen_touch {j : Nat} {f : StreamClient.Stream UInt64 Wire → StreamClient.Stream UInt64 Wire}
    (hf : ∀ s, (f s).state = s.state ∧ (f s).inflight = s.inflight
      ∧ (f s).wire.received = s.wire.received ∧ (f s).wire.fragments = s.wire.fragments) :
    seen (c.updateStream j f) i = seen c i := by
  by_cases hj : j = i
  · subst hj
    obtain ⟨hstate, hinflight, hreceived, hfragments⟩ := hf (c.streams j)
    rw [seen_updateStream, hstate, hinflight, hreceived, hfragments]
    rfl
  · unfold seen
    rw [streams_updateStream_of_ne f (Ne.symm hj)]
    rfl

theorem seen_completeMessages {l : List (InflightMessage UInt64)}
    (hl : (c.streams i).inflight = l) :
    seen (completeMessages i false l c) i = { seen c i with
      inflight := []
      tally := { tally c with inflightLost := (tally c).inflightLost + l.length } } := by
  induction l generalizing c with
  | nil =>
    unfold completeMessages seen
    rw [hl]
    rfl
  | cons m rest ih =>
    unfold completeMessages
    have hrest :
        (((c.inc .streamInflightLost).complete i m rest false).streams i).inflight = rest := by
      show (Function.update c.streams i { c.streams i with inflight := rest } i).inflight = rest
      rw [Function.update_self]
    have hone : seen ((c.inc .streamInflightLost).complete i m rest false) i = { seen c i with
        inflight := rest
        tally := { tally c with inflightLost := (tally c).inflightLost + 1 } } :=
      seen_updateStream (c := c.inc .streamInflightLost) (fun s => { s with inflight := rest })
    have htally : tally ((c.inc .streamInflightLost).complete i m rest false)
        = { tally c with inflightLost := (tally c).inflightLost + 1 } := congrArg Seen.tally hone
    rw [if_neg (by simp), ih hrest, hone, htally]
    rw [List.length_cons, Nat.add_assoc, Nat.add_comm 1]

theorem seen_closeStream (hs : (c.streams i).state ≠ .closed) :
    seen (c.closeStream i none) i = (seen c i).close := by
  unfold closeStream
  rw [if_neg hs]
  dsimp only [Option.elim_none]
  rw [seen_maybeExitWaitLoop]
  unfold completeInflight
  rw [seen_completeMessages rfl, seen_updateStream, streams_updateStream_self]
  rfl

theorem seen_onWriteBlocked (j : Nat) (blocked : Bool) :
    seen (c.onWriteBlocked j blocked) i = seen c i := by
  unfold onWriteBlocked
  split <;> exact seen_touch fun _ => ⟨rfl, rfl, rfl, rfl⟩

/-- Signals of which nothing is seen. -/
theorem seen_raise_of {v : Seen} (hone : ∀ s ∈ signals, ∀ d : WebSocketStreamBenchmarkClientImpl,
    seen d i = v → seen (d.onSignal flavour s) i = v) (hc : seen c i = v) :
    seen (c.raise flavour signals) i = v := by
  induction signals generalizing c with
  | nil => exact hc
  | cons s signals ih =>
    obtain ⟨hs, hrest⟩ := List.forall_mem_cons.mp hone
    unfold raise
    rw [List.foldl_cons]
    split
    · exact ih hrest (hs c hc)
    · exact ih hrest hc

/-- A write may go over a watermark, which is not seen. -/
theorem seen_raise (hsignals : ∀ s ∈ signals, ∃ j blocked, s = Signal.writeBlocked j blocked) :
    seen (c.raise flavour signals) i = seen c i := by
  refine seen_raise_of (fun s hs d hd => ?_) rfl
  obtain ⟨j, blocked, rfl⟩ := hsignals s hs
  exact (seen_onWriteBlocked j blocked).trans hd

theorem seen_onMessage (payload : List UInt8) (now : Nat) :
    seen (onMessage c out i payload now) i = (seen c i).message out payload := by
  unfold onMessage Seen.message
  split
  · rfl
  · cases out.simpleHexAtoi (payload.take kSequencePrefixLength) with
    | none => rfl
    | some sequence =>
      dsimp only
      cases hfound : (c.streams i).inflight.find? (fun m => m.sequence == sequence) with
      | none =>
        rw [show (seen c i).inflight.find? (fun m => m.sequence == sequence) = none from hfound]
        rfl
      | some m =>
        rw [show (seen c i).inflight.find? (fun m => m.sequence == sequence) = some m from hfound]
        unfold StreamClient.receive
        rw [seen_addLatency]
        exact seen_updateStream (c := c.inc .streamMessagesReceived) (fun s => { s with
          inflight := (c.streams i).inflight.eraseP fun m => m.sequence == sequence })

theorem seen_onFragment (f : Frame) (now : Nat) :
    seen (onFragment c out i f now) i = (seen c i).fragment out f := by
  unfold onFragment Seen.fragment
  have happend : seen (c.updateStream i (fun s => { s with
      wire := { s.wire with fragments := s.wire.fragments ++ f.payload } })) i
      = { seen c i with fragments := (seen c i).fragments ++ f.payload } := seen_updateStream _
  split
  · have hfragments : (StreamClient.streams (c.updateStream i (fun s => { s with
        wire := { s.wire with fragments := s.wire.fragments ++ f.payload } })) i).wire.fragments
        = (seen c i).fragments ++ f.payload := congrArg Seen.fragments happend
    rw [seen_updateStream, hfragments]
    show { seen (onMessage _ out i _ now) i with fragments := [] } = _
    rw [seen_onMessage, happend]
  · exact happend

theorem seen_send (f : Frame)
    (hsignals : ∀ s ∈ signals, ∃ j blocked, s = Signal.writeBlocked j blocked) :
    seen (send c i f signals) i = seen c i := by
  unfold send
  rw [seen_raise hsignals]
  exact seen_touch fun _ => ⟨rfl, rfl, rfl, rfl⟩

namespace Seen

variable {v : Seen}

theorem frames_of_closed (h : v.state = .closed) (fs : List Frame) : v.frames out fs = v := by
  induction fs with
  | nil => rfl
  | cons f fs ih =>
    unfold frames at ih ⊢
    rw [List.foldl_cons, if_pos h]
    exact ih

theorem frames_cons (h : v.state ≠ .closed) (f : Frame) (fs : List Frame) :
    v.frames out (f :: fs) = (v.frame out f).frames out fs := by
  unfold frames
  rw [List.foldl_cons, if_neg h]

theorem frames_append (fs gs : List Frame) :
    v.frames out (fs ++ gs) = (v.frames out fs).frames out gs := by
  exact List.foldl_append

/-- A message is expected or it is not. -/
theorem message_cases (out : Outside) (v : Seen) (payload : List UInt8) :
    v.message out payload = v.unexpected ∨ ∃ rest, v.message out payload = v.receive rest := by
  unfold message
  split
  · exact .inl rfl
  · split
    · exact .inl rfl
    · split
      · exact .inl rfl
      · exact .inr ⟨_, rfl⟩

theorem state_fragment : (v.fragment out f).state = v.state := by
  unfold fragment
  dsimp only
  split
  · rcases message_cases out { v with fragments := v.fragments ++ f.payload }
      (v.fragments ++ f.payload) with h | ⟨rest, h⟩ <;> rw [h] <;> rfl
  · rfl

/-- Only a Close closes a stream. -/
theorem state_frame (hf : f.opcode ≠ .close) : (v.frame out f).state = v.state := by
  unfold frame
  cases hop : f.opcode with
  | text | binary | continuation => exact state_fragment
  | ping | pong => rfl
  | close => exact absurd hop hf

theorem data_of_closed (h : v.state = .closed) (bytes : List UInt8) : v.data out bytes = v := by
  unfold data
  rw [if_pos h]

theorem data_of_ok (h : v.state ≠ .closed) (hok : (Decoder.feed (v.received ++ bytes)).ok = true) :
    v.data out bytes = { v with received := (Decoder.feed (v.received ++ bytes)).rest }.frames out
      (Decoder.feed (v.received ++ bytes)).items := by
  unfold data
  rw [if_neg h]
  rw [if_pos hok]

theorem data_of_error (h : v.state ≠ .closed)
    (hok : (Decoder.feed (v.received ++ bytes)).ok = false) :
    v.data out bytes = close { v with
      received := (Decoder.feed (v.received ++ bytes)).rest
      tally := { v.tally with protocolErrors := v.tally.protocolErrors + 1 } } := by
  unfold data
  rw [if_neg h]
  rw [if_neg (by rw [hok]; simp)]

end Seen

/-- The frames of a chunk. -/
theorem seen_onFrames (now : Nat) {raises : Nat → List Signal}
    (hraises : ∀ k, ∀ s ∈ raises k, ∃ j blocked, s = Signal.writeBlocked j blocked) (k : Nat)
    (fs : List Frame) (hs : (c.streams i).state ≠ .closed) :
    seen (onFrames out i now raises k fs c).1 i = (seen c i).frames out fs := by
  induction fs generalizing c k with
  | nil => rfl
  | cons f fs ih =>
    rw [Seen.frames_cons hs]
    -- a frame other than a Close leaves the stream as it is
    have hnext : ∀ d : WebSocketStreamBenchmarkClientImpl, f.opcode ≠ .close →
        seen d i = (seen c i).frame out f →
        seen (onFrames out i now raises (k + 1) fs d).1 i
          = ((seen c i).frame out f).frames out fs := by
      intro d hf hd
      rw [ih (k + 1) ?_, hd]
      have hstate : (seen d i).state = (seen c i).state := by rw [hd, Seen.state_frame hf]
      exact fun hn => hs (hstate.symm.trans hn)
    unfold onFrames
    cases hop : f.opcode with
    | text | binary | continuation =>
      refine hnext _ (by simp [hop]) ((seen_onFragment f now).trans ?_)
      simp only [Seen.frame, hop]
    | pong => exact hnext c (by simp [hop]) (by simp only [Seen.frame, hop])
    | ping =>
      refine hnext _ (by simp [hop]) ?_
      simp only [Seen.frame, hop]
      split
      · exact seen_send _ (hraises k)
      · rfl
    | close =>
      dsimp only
      have hframe : (seen c i).frame out f = if (c.streams i).state = .opened then
          Seen.close { seen c i with tally := { tally c with
            earlyClose := (tally c).earlyClose + 1 } } else (seen c i).close := by
        unfold Seen.frame
        rw [hop]
        rfl
      rw [Seen.frames_of_closed (by rw [hframe]; split <;> rfl), hframe]
      split
      · have hsend : seen (send (c.inc .streamEarlyClose) i (closeFrame 1000) (raises k)) i
            = { seen c i with tally := { tally c with
              earlyClose := (tally c).earlyClose + 1 } } := seen_send _ (hraises k)
        rw [seen_closeStream, hsend]
        exact fun hn => hs ((congrArg Seen.state hsend).symm.trans hn)
      · exact seen_closeStream hs

/-- A chunk of a response on stream `i`, with the time it is handled at and with what Envoy calls
back: from inside the writes of the client no more than that a watermark was passed, and from inside
a reset also that this stream was reset. -/
structure Chunk (i : Nat) where
  bytes : List UInt8
  now : Nat := 0
  writes : Nat → List Signal := fun _ => []
  resets : List Signal := []
  watermarks : ∀ k, ∀ s ∈ writes k, ∃ j blocked, s = Signal.writeBlocked j blocked := by simp
  own : ∀ s ∈ resets, (∃ j blocked, s = Signal.writeBlocked j blocked) ∨ s = .reset i := by simp

/-- A chunk is delivered. The client resets a stream when it cannot read the chunk. -/
def Chunk.deliver (k : Chunk i) (out : Outside) (c : WebSocketStreamBenchmarkClientImpl) :
    WebSocketStreamBenchmarkClientImpl :=
  onResponseData c out i k.bytes false k.now
    (if (Decoder.feed ((c.streams i).wire.received ++ k.bytes)).ok then k.writes
      else fun _ => k.resets)

/-- A stream that is closed is not reset again. -/
theorem seen_raise_closed (hs : (c.streams i).state = .closed)
    (hsignals : ∀ s ∈ signals, (∃ j blocked, s = Signal.writeBlocked j blocked) ∨ s = .reset i) :
    seen (c.raise flavour signals) i = seen c i := by
  refine seen_raise_of (fun s hsignal d hd => ?_) rfl
  rcases hsignals s hsignal with ⟨j, blocked, rfl⟩ | rfl
  · exact (seen_onWriteBlocked j blocked).trans hd
  · have hclosed : (d.streams i).state = .closed := (congrArg Seen.state hd).trans hs
    rw [← hd]
    show seen (d.onStreamReset i none) i = _
    unfold onStreamReset
    rw [if_pos hclosed]

theorem seen_chunk (hs : (c.streams i).state ≠ .opening) (k : Chunk i) :
    seen (k.deliver out c) i = (seen c i).data out k.bytes := by
  unfold Chunk.deliver onResponseData
  dsimp only
  by_cases hclosed : (c.streams i).state = .closed
  · rw [if_neg (by rw [hclosed]; simp), if_neg (by simp)]
    exact (Seen.data_of_closed (v := seen c i) hclosed k.bytes).symm
  · have hopen : (c.streams i).state = .opened ∨ (c.streams i).state = .closing := by
      cases hstate : (c.streams i).state with
      | opening => exact absurd hstate hs
      | opened => exact .inl rfl
      | closing => exact .inr rfl
      | closed => exact absurd hstate hclosed
    rw [if_pos hopen]
    have hkeep : seen (c.updateStream i (fun s => { s with
        wire := s.wire.keep (s.wire.received ++ k.bytes) })) i
        = { seen c i with
            received := (Decoder.feed ((seen c i).received ++ k.bytes)).rest } :=
        seen_updateStream _
    set d : WebSocketStreamBenchmarkClientImpl := c.updateStream i (fun s => { s with
      wire := s.wire.keep (s.wire.received ++ k.bytes) }) with hd
    have hlive : (d.streams i).state ≠ .closed := fun hn =>
      hclosed ((congrArg Seen.state hkeep).symm.trans hn)
    cases hok : (Decoder.feed ((c.streams i).wire.received ++ k.bytes)).ok with
    | true =>
      rw [if_neg (by simp), if_pos rfl, Seen.data_of_ok (v := seen c i) hclosed hok]
      have hframes : seen (onFrames out i k.now k.writes 0
          (Decoder.feed ((c.streams i).wire.received ++ k.bytes)).items d).1 i = _ :=
        seen_onFrames k.now k.watermarks 0 _ hlive
      rw [hkeep] at hframes
      revert hframes
      rcases onFrames out i k.now k.writes 0
        (Decoder.feed ((c.streams i).wire.received ++ k.bytes)).items d with ⟨e, returned⟩
      intro hframes
      cases returned <;> exact hframes
    | false =>
      rw [if_pos (by simp), if_neg Bool.false_ne_true,
        Seen.data_of_error (v := seen c i) hclosed hok]
      have hclose : seen ((d.inc .streamProtocolErrors).closeStream i none) i
          = Seen.close { seen d i with tally := { (seen d i).tally with
            protocolErrors := (seen d i).tally.protocolErrors + 1 } } :=
        seen_closeStream (c := d.inc .streamProtocolErrors) hlive
      rw [hkeep] at hclose
      split
      · exact (seen_raise_closed (congrArg Seen.state hclose) k.own).trans hclose
      · exact hclose

/-- The chunks of a response are delivered one after another. -/
def deliver (c : WebSocketStreamBenchmarkClientImpl) (out : Outside) (i : Nat)
    (chunks : List (Chunk i)) : WebSocketStreamBenchmarkClientImpl :=
  chunks.foldl (fun c k => k.deliver out c) c

/-! ## Frames that count -/

/-- Whether the client counts something when it handles the frame: it ends a message, or closes. -/
def counts (f : Frame) : Bool :=
  match f.opcode with
  | .text | .binary | .continuation => f.fin
  | .ping | .pong => false
  | .close => true

namespace Seen

variable {v : Seen}

/-- A message is counted once, with its last piece. -/
theorem tally_fragment (hf : f.fin = true) :
    (v.fragment out f).tally.messagesReceived + (v.fragment out f).tally.unexpectedMessage
      = v.tally.messagesReceived + v.tally.unexpectedMessage + 1 := by
  unfold fragment
  dsimp only
  rw [if_pos hf]
  rcases message_cases out { v with fragments := v.fragments ++ f.payload }
    (v.fragments ++ f.payload) with h | ⟨rest, h⟩
  · rw [h]
    exact (Nat.add_assoc _ _ _).symm
  · rw [h]
    exact Nat.add_right_comm _ _ _

/-- A frame that does not count changes what is buffered only. -/
theorem frame_of_not_counts (hf : counts f = false) :
    ∃ fragments, v.frame out f = { v with fragments := fragments } := by
  unfold counts at hf
  unfold frame
  cases hop : f.opcode with
  | text | binary | continuation =>
    rw [hop] at hf
    dsimp only [fragment] at hf ⊢
    rw [if_neg (by rw [hf]; simp)]
    exact ⟨_, rfl⟩
  | ping | pong => exact ⟨v.fragments, rfl⟩
  | close =>
    rw [hop] at hf
    cases hf

theorem frames_of_not_counts {fs : List Frame} (hs : v.state ≠ .closed)
    (hfs : ∀ f ∈ fs, counts f = false) :
    ∃ fragments, v.frames out fs = { v with fragments := fragments } := by
  induction fs generalizing v with
  | nil => exact ⟨v.fragments, rfl⟩
  | cons f fs ih =>
    obtain ⟨fragments, hframe⟩ : ∃ fragments, v.frame out f = { v with fragments := fragments } :=
      frame_of_not_counts (hfs f List.mem_cons_self)
    rw [frames_cons hs, hframe]
    exact ih hs fun g hg => hfs g (List.mem_cons_of_mem f hg)

theorem message_received (payload received : List UInt8) :
    { v with received := received }.message out payload
      = { v.message out payload with received := received } := by
  unfold message
  by_cases hshort : payload.length < kSequencePrefixLength
  · rw [if_pos hshort, if_pos hshort]
    rfl
  · rw [if_neg hshort, if_neg hshort]
    cases out.simpleHexAtoi (payload.take kSequencePrefixLength) with
    | none => rfl
    | some sequence =>
      dsimp only
      cases v.inflight.find? (fun m => m.sequence == sequence) <;> rfl

theorem fragment_received (f : Frame) (received : List UInt8) :
    { v with received := received }.fragment out f
      = { v.fragment out f with received := received } := by
  unfold fragment
  dsimp only
  cases f.fin with
  | true =>
    rw [if_pos rfl, if_pos rfl,
      message_received (v := { v with fragments := v.fragments ++ f.payload })]
  | false => rfl

/-- What is left in the buffer does not matter to frames. -/
theorem frame_received (f : Frame) (received : List UInt8) :
    { v with received := received }.frame out f = { v.frame out f with received := received } := by
  unfold frame
  cases f.opcode with
  | text | binary | continuation => exact fragment_received f received
  | ping | pong => rfl
  | close =>
    by_cases hs : v.state = .opened
    · rw [if_pos hs, if_pos hs]
      rfl
    · rw [if_neg hs, if_neg hs]
      rfl

theorem frames_received (fs : List Frame) (received : List UInt8) :
    { v with received := received }.frames out fs
      = { v.frames out fs with received := received } := by
  induction fs generalizing v with
  | nil => rfl
  | cons f fs ih =>
    by_cases hs : v.state = .closed
    · rw [frames_of_closed (v := v) hs, frames_of_closed (v := { v with received := received }) hs]
    · rw [frames_cons (v := v) hs, frames_cons (v := { v with received := received }) hs,
        frame_received, ih]

/-! ## Chunks -/

theorem foldl_data_of_closed (h : v.state = .closed) (chunks : List (List UInt8)) :
    chunks.foldl (data out) v = v := by
  induction chunks with
  | nil => rfl
  | cons chunk chunks ih => rw [List.foldl_cons, data_of_closed h, ih]

/-- What the decoder makes of a first chunk and of the rest. -/
theorem feed_cons (received chunk : List UInt8) (chunks : List (List UInt8)) :
    Decoder.feed (received ++ (chunk :: chunks).flatten)
      = if (Decoder.feed (received ++ chunk)).ok then
          (Decoder.feed ((Decoder.feed (received ++ chunk)).rest ++ chunks.flatten)).after
            (Decoder.feed (received ++ chunk)).items
        else Decoder.feed (received ++ chunk) := by
  rw [List.flatten_cons, ← List.append_assoc]
  exact feed_append steady_readFrame (received ++ chunk) chunks.flatten

section

variable (hsettled : readFrame v.received = .wait) {chunks : List (List UInt8)}
  (hok : (Decoder.feed (v.received ++ chunks.flatten)).ok = true)
include hsettled hok

/-- Bytes that can be read are handled frame by frame, however they are cut. -/
theorem deliver_of_ok :
    ∃ received, chunks.foldl (data out) v
      = { v.frames out (Decoder.feed (v.received ++ chunks.flatten)).items with
          received := received } := by
  induction chunks generalizing v with
  | nil =>
    rw [List.flatten_nil, List.append_nil, Decoder.feed, feed_of_wait hsettled]
    exact ⟨v.received, rfl⟩
  | cons chunk chunks ih =>
    rw [List.foldl_cons]
    by_cases hs : v.state = .closed
    · rw [data_of_closed hs, foldl_data_of_closed hs, frames_of_closed hs]
      exact ⟨v.received, rfl⟩
    rw [feed_cons] at hok ⊢
    cases hfirst : (Decoder.feed (v.received ++ chunk)).ok with
    | false =>
      -- a chunk that cannot be read makes all of it unreadable
      rw [if_neg (by rw [hfirst]; simp), hfirst] at hok
      cases hok
    | true =>
      rw [hfirst, if_pos rfl] at hok
      rw [if_pos rfl, data_of_ok hs hfirst, frames_received]
      obtain ⟨received, hrest⟩ := ih (v := { v.frames out
          (Decoder.feed (v.received ++ chunk)).items with
          received := (Decoder.feed (v.received ++ chunk)).rest })
        (readFrame_rest _) hok
      refine ⟨received, hrest.trans ?_⟩
      rw [frames_received]
      rw [← frames_append]
      rfl

theorem tally_of_ok :
    (chunks.foldl (data out) v).tally
      = (v.frames out (Decoder.feed (v.received ++ chunks.flatten)).items).tally :=
  (deliver_of_ok hsettled hok).elim fun _ h => by rw [h]

end

/-- Bytes that cannot be read, behind frames that do not count, are one protocol error. -/
theorem deliver_of_error (hs : v.state ≠ .closed) (hsettled : readFrame v.received = .wait)
    {chunks : List (List UInt8)}
    (hok : (Decoder.feed (v.received ++ chunks.flatten)).ok = false)
    (hitems : ∀ f ∈ (Decoder.feed (v.received ++ chunks.flatten)).items, counts f = false) :
    (chunks.foldl (data out) v).tally = { v.tally with
      inflightLost := v.tally.inflightLost + v.inflight.length
      protocolErrors := v.tally.protocolErrors + 1 } := by
  induction chunks generalizing v with
  | nil =>
    rw [List.flatten_nil, List.append_nil, Decoder.feed, feed_of_wait hsettled] at hok
    cases hok
  | cons chunk chunks ih =>
    rw [List.foldl_cons]
    rw [feed_cons] at hok hitems
    cases hfirst : (Decoder.feed (v.received ++ chunk)).ok with
    | false =>
      rw [data_of_error hs hfirst, foldl_data_of_closed rfl]
      rfl
    | true =>
      rw [hfirst, if_pos rfl] at hok hitems
      obtain ⟨fragments, hframes⟩ : ∃ fragments, v.frames out
          (Decoder.feed (v.received ++ chunk)).items = { v with fragments := fragments } :=
        frames_of_not_counts hs fun f hf => hitems f (List.mem_append_left _ hf)
      rw [data_of_ok hs hfirst, frames_received, hframes]
      exact ih hs (readFrame_rest _) hok fun f hf => hitems f (List.mem_append_right _ hf)

end Seen

/-- Whole frames, one of them a frame that counts, and behind them a malformed header. -/
def Spoiled (bytes : List UInt8) : Prop :=
  ∃ (pieces : List (Frame × List UInt8)) (bad : List UInt8),
    bytes = (pieces.map Prod.snd).flatten ++ bad ∧ Pieces readFrame pieces ∧ Malformed bad
      ∧ ∃ p ∈ pieces, counts p.1 = true

theorem not_spoiled_iff : ¬ Spoiled bytes ↔
    (Decoder.feed bytes).ok = true ∨ ∀ f ∈ (Decoder.feed bytes).items, counts f = false := by
  constructor
  · intro h
    by_contra hn
    obtain ⟨hok, hitems⟩ := not_or.mp hn
    obtain ⟨pieces, bad, hbytes, hpieces, hread, hbad⟩ :=
      pieces_of_feed steady_readFrame exact_readFrame bytes
    rw [if_neg (show ¬ (feed readFrame bytes).ok = true from hok)] at hbad
    refine h ⟨pieces, bad, hbytes, hpieces, readFrame_error_iff.mp hbad, ?_⟩
    by_contra hnone
    refine hitems fun f hf => eq_false_of_ne_true fun hcounts => hnone ?_
    rw [Decoder.feed, ← hread] at hf
    obtain ⟨p, hp, rfl⟩ := List.mem_map.mp hf
    exact ⟨p, hp, hcounts⟩
  · rintro h ⟨pieces, bad, rfl, hpieces, hbad, p, hp, hcounts⟩
    have hfeed := feed_pieces steady_readFrame hpieces bad
    rw [feed_of_error (readFrame_error_iff.mpr hbad)] at hfeed
    rcases h with hok | hitems
    · rw [Decoder.feed, hfeed] at hok
      cases hok
    · have hmem : p.1 ∈ (Decoder.feed ((pieces.map Prod.snd).flatten ++ bad)).items := by
        rw [Decoder.feed, hfeed]
        exact List.mem_append_left _ (List.mem_map_of_mem hp)
      rw [hitems p.1 hmem] at hcounts
      cases hcounts

namespace Seen

variable {v : Seen}

/-- A frame that counts is a message or closes the stream. -/
theorem frame_of_counts (out : Outside) (hf : counts f = true) (hs : v.state = .opened) :
    ((v.frame out f).state = .closed
      ∧ (v.frame out f).tally.protocolErrors = v.tally.protocolErrors)
      ∨ ((v.frame out f).state ≠ .closed
        ∧ (v.frame out f).tally.messagesReceived + (v.frame out f).tally.unexpectedMessage
          = v.tally.messagesReceived + v.tally.unexpectedMessage + 1) := by
  unfold counts at hf
  unfold frame
  cases hop : f.opcode with
  | text | binary | continuation =>
    rw [hop] at hf
    refine .inr ⟨?_, tally_fragment hf⟩
    dsimp only
    rw [state_fragment, hs]
    simp
  | ping | pong =>
    rw [hop] at hf
    cases hf
  | close =>
    dsimp only
    rw [if_pos hs]
    exact .inl ⟨rfl, rfl⟩

/-- Of a stream that is open, spoiled bytes can be cut behind the first frame that counts: then it
is counted, and otherwise it is not. -/
theorem exists_cut_of_spoiled (hs : v.state = .opened) (hsettled : readFrame v.received = .wait)
    (h : Spoiled (v.received ++ bytes)) :
    ∃ first rest, first ++ rest = bytes
      ∧ ((v.data out first).data out rest).tally ≠ (v.data out bytes).tally := by
  have hlive : v.state ≠ .closed := by rw [hs]; simp
  obtain ⟨pieces, bad, hbytes, hpieces, hbad, p, hp, hcounts⟩ := h
  have hbad := readFrame_error_iff.mpr hbad
  -- the first frame that counts
  obtain ⟨q, hq⟩ := Option.isSome_iff_exists.mp
    (List.find?_isSome (p := fun p => counts p.1).mpr ⟨p, hp, hcounts⟩)
  obtain ⟨hqcounts, before, after, rfl, hbefore⟩ := List.find?_eq_some_iff_append.mp hq
  have hfront : Pieces readFrame (before ++ [q]) := fun r hr => hpieces r (by
    rw [List.append_cons]
    exact List.mem_append_left _ hr)
  have hback : Pieces readFrame after := fun r hr => hpieces r (by simp [hr])
  set front := ((before ++ [q]).map Prod.snd).flatten with hfrontbytes
  set back := (after.map Prod.snd).flatten ++ bad with hbackbytes
  have hcut : v.received ++ bytes = front ++ back := by
    rw [hbytes, hfrontbytes, hbackbytes]
    simp
  have hfeedfront : Decoder.feed front = ⟨true, (before ++ [q]).map Prod.fst, []⟩ := by
    have := feed_pieces steady_readFrame hfront []
    rw [List.append_nil] at this
    rw [Decoder.feed, this, feed_of_wait rfl]
    simp [Fed.after]
  have hfeedback : (Decoder.feed back).ok = false := by
    rw [Decoder.feed, hbackbytes, feed_pieces steady_readFrame hback, feed_of_error hbad]
    rfl
  have hfeedall : (Decoder.feed (v.received ++ bytes)).ok = false := by
    rw [hcut, hfrontbytes, Decoder.feed, feed_pieces steady_readFrame hfront]
    exact hfeedback
  -- what was received before does not reach behind the first frame
  obtain ⟨first, hfirst, hrest⟩ : ∃ first, front = v.received ++ first ∧ bytes = first ++ back := by
    rcases List.append_eq_append_iff.mp hcut with hfirst | ⟨more, hmore, -⟩
    · exact hfirst
    · have hread := feed_pieces steady_readFrame hfront more
      rw [← hfrontbytes, ← hmore, feed_of_wait hsettled] at hread
      have hnil := congrArg (fun d => d.items.length) hread
      simp [Fed.after] at hnil
  refine ⟨first, back, hrest.symm, fun htally => ?_⟩
  -- the frames in front of it do not count
  obtain ⟨fragments, hframes⟩ : ∃ fragments, v.frames out (before.map Prod.fst)
      = { v with fragments := fragments } := by
    refine frames_of_not_counts hlive fun f hf => ?_
    obtain ⟨r, hr, rfl⟩ := List.mem_map.mp hf
    exact eq_false_of_ne_true fun hn => by simpa [hn] using hbefore r hr
  have hdata : v.data out first
      = { Seen.frame out { v with fragments := fragments } q.1 with received := [] } := by
    rw [data_of_ok hlive (by rw [← hfirst, hfeedfront]), ← hfirst, hfeedfront, frames_received,
      List.map_append, frames_append, hframes]
    rw [show List.map Prod.fst [q] = [q.1] from rfl, frames_cons (by exact hlive)]
    rfl
  rw [hdata, data_of_error hlive hfeedall] at htally
  rcases frame_of_counts (v := { v with fragments := fragments }) out hqcounts hs with
    ⟨hclosed, herrors⟩ | ⟨hopen, hmessages⟩
  · rw [data_of_closed (by exact hclosed)] at htally
    have := congrArg Tally.protocolErrors htally
    rw [show _ = v.tally.protocolErrors from herrors] at this
    exact absurd this (Nat.ne_of_lt (Nat.lt_succ_self _))
  · rw [data_of_error (by exact hopen) (by exact hfeedback)] at htally
    have := congrArg (fun t => t.messagesReceived + t.unexpectedMessage) htally
    exact absurd (hmessages.symm.trans this) (Nat.succ_ne_self _)

theorem state_frames (fs : List Frame) :
    (v.frames out fs).state = v.state ∨ (v.frames out fs).state = .closed := by
  induction fs generalizing v with
  | nil => exact .inl rfl
  | cons f fs ih =>
    by_cases hs : v.state = .closed
    · exact .inl (by rw [frames_of_closed hs])
    rw [frames_cons hs]
    by_cases hf : f.opcode = .close
    · have hclosed : (v.frame out f).state = .closed := by
        unfold frame
        rw [hf]
        dsimp only
        split <;> rfl
      exact .inr (by rw [frames_of_closed hclosed, hclosed])
    · rw [← state_frame (v := v) hf]
      exact ih

/-- A response does not begin to open a stream again. -/
theorem state_data (h : v.state ≠ .opening) (bytes : List UInt8) :
    (v.data out bytes).state ≠ .opening := by
  by_cases hs : v.state = .closed
  · rw [data_of_closed hs]
    exact h
  cases hok : (Decoder.feed (v.received ++ bytes)).ok with
  | true =>
    rw [data_of_ok hs hok, frames_received]
    rcases state_frames (v := v) (Decoder.feed (v.received ++ bytes)).items with hn | hn
    · exact fun hopening => h (hn.symm.trans hopening)
    · exact fun hopening => nomatch hn.symm.trans hopening
  | false =>
    rw [data_of_error hs hok]
    exact fun hn => by cases hn

end Seen

theorem seen_deliver (hs : (c.streams i).state ≠ .opening) (chunks : List (Chunk i)) :
    seen (deliver c out i chunks) i
      = (chunks.map Chunk.bytes).foldl (Seen.data out) (seen c i) := by
  induction chunks generalizing c with
  | nil => rfl
  | cons k chunks ih =>
    have hdata : seen (k.deliver out c) i = (seen c i).data out k.bytes := seen_chunk hs k
    unfold deliver at ih ⊢
    rw [List.foldl_cons, List.map_cons, List.foldl_cons, ← hdata]
    refine ih fun hn => ?_
    exact Seen.state_data (v := seen c i) hs k.bytes ((congrArg Seen.state hdata).symm.trans hn)

/-- **What is counted does not depend on how a response is cut, unless it is spoiled.** -/
theorem tally_deliver_iff (hs : (c.streams i).state = .opened) (bytes : List UInt8) :
    (∀ chunks chunks' : List (Chunk i), (chunks.map Chunk.bytes).flatten = bytes →
      (chunks'.map Chunk.bytes).flatten = bytes →
      tally (deliver c out i chunks) = tally (deliver c out i chunks'))
    ↔ ¬ Spoiled ((c.streams i).wire.received ++ bytes) := by
  have hseen : ∀ chunks : List (Chunk i), tally (deliver c out i chunks)
      = ((chunks.map Chunk.bytes).foldl (Seen.data out) (seen c i)).tally := by
    intro chunks
    rw [← seen_deliver (by rw [hs]; simp)]
    rfl
  have hsettled : readFrame (seen c i).received = .wait := (c.streams i).wire.settled
  constructor
  · intro hsame hspoiled
    obtain ⟨first, rest, hbytes, hdiffer⟩ :=
      Seen.exists_cut_of_spoiled (v := seen c i) hs hsettled hspoiled
    have htwo := hsame [{ bytes := first }, { bytes := rest }] [{ bytes := bytes }]
      (by simpa using hbytes) (by simp)
    rw [hseen, hseen] at htwo
    exact hdiffer htwo
  · intro hsound
    obtain ⟨t, ht⟩ : ∃ t, ∀ chunks : List (Chunk i), (chunks.map Chunk.bytes).flatten = bytes →
        tally (deliver c out i chunks) = t := by
      cases hok : (Decoder.feed ((seen c i).received ++ bytes)).ok with
      | true =>
        let items := (Decoder.feed ((seen c i).received ++ bytes)).items
        refine ⟨((seen c i).frames out items).tally, fun chunks hchunks => ?_⟩
        rw [hseen, Seen.tally_of_ok hsettled (by rw [hchunks]; exact hok), hchunks]
      | false =>
        have hitems := (not_spoiled_iff.mp hsound).resolve_left fun hn => nomatch hok.symm.trans hn
        have hlive : (seen c i).state ≠ .closed := fun hn => nomatch hs.symm.trans hn
        exact ⟨_, fun chunks hchunks => (hseen chunks).trans (Seen.deliver_of_error hlive hsettled
          (by rw [hchunks]; exact hok) (by rw [hchunks]; exact hitems))⟩
    exact fun chunks chunks' h h' => (ht chunks h).trans (ht chunks' h').symm

/-- The first stream is upgraded, and a message is sent on it. -/
def sentEvents : List (Event Response) :=
  [.prepare [104, 105] (fun i => ⟨i == 0, "dGhlIHNhbXBsZSBub25jZQ==", [.ready 0 true]⟩),
    .response 0 (.headers upgraded false) 1 (fun _ => []), .prepareWait (fun _ => []),
    .tryStartRequest 5 []]

/-- The echo of that message. -/
def echo : List UInt8 := 0x81 :: 18 :: (sequencePrefix 0 ++ [104, 105])

theorem tally_deliver_echo : ∃ c, Reaches knowsFirst pairOfStreams sentEvents c
    ∧ (c.streams 0).state = .opened
    ∧ ∀ chunks chunks' : List (Chunk 0), (chunks.map Chunk.bytes).flatten = echo →
      (chunks'.map Chunk.bytes).flatten = echo →
      tally (deliver c knowsFirst 0 chunks) = tally (deliver c knowsFirst 0 chunks') := by
  refine ⟨_, Lts.Run.of_foldlM rfl, rfl, ?_⟩
  exact (tally_deliver_iff rfl echo).mpr (not_spoiled_iff.mpr (.inl (by decide)))

/-- Behind the echo comes a header with reserved bits. If both arrive at once the echo is not
counted. -/
theorem tally_deliver_differs : ∃ c, Reaches knowsFirst pairOfStreams sentEvents c
    ∧ (c.streams 0).state = .opened
    ∧ (tally (deliver c knowsFirst 0 [{ bytes := echo }, { bytes := [0xF1, 0] }])).messagesReceived
      = 1
    ∧ (tally (deliver c knowsFirst 0 [{ bytes := echo ++ [0xF1, 0] }])).messagesReceived = 0 :=
  ⟨_, Lts.Run.of_foldlM rfl, rfl, rfl, rfl⟩

end Sortie.Engine.WebSocketStreamBenchmarkClientImpl
