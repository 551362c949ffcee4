import Mathlib.Data.List.GetD
import Sortie.Engine.WebSocket

/-!
# Frames through the decoder

The decoder is steady, so what it reads does not depend on how the bytes arrive, and it
reads every frame back that was encoded: with each of the three forms of a length, masked
or not.
-/

namespace Sortie.Engine.WebSocket

open Incremental

variable {f x : Frame} {rest : List UInt8}

/-! ## The decoder is steady -/

variable {data : List UInt8} {fin masked : Bool} {op : Opcode} {short : Nat}

theorem two_le_headerLength (short : Nat) (masked : Bool) : 2 ≤ headerLength short masked := by
  unfold headerLength
  omega

/-- The length is in the header, so more bytes do not change it. -/
theorem announcedLength_append (h : headerLength short masked ≤ data.length) (more : List UInt8) :
    announcedLength short (data ++ more) = announcedLength short data := by
  unfold headerLength at h
  unfold announcedLength
  split
  · rename_i hs
    rw [if_pos hs] at h
    rw [List.drop_append_of_le_length (by omega), List.take_append_of_le_length]
    rw [List.length_drop]
    omega
  · rename_i hs
    rw [if_neg hs] at h
    split
    · rename_i hl
      rw [if_pos hl] at h
      rw [List.drop_append_of_le_length (by omega), List.take_append_of_le_length]
      rw [List.length_drop]
      omega
    · rfl

theorem readPayload_append {frame : Frame} {header length : Nat}
    (hheader : masked = true → 4 ≤ header)
    (h : readPayload frame masked header length data = .item x rest) (more : List UInt8) :
    readPayload frame masked header length (data ++ more) = .item x (rest ++ more) := by
  unfold readPayload at h ⊢
  by_cases hlt : data.length < header + length
  · rw [if_pos hlt] at h
    cases h
  · rw [if_neg hlt] at h
    rw [if_neg (by rw [List.length_append]; omega)]
    have hpayload : ((data ++ more).drop header).take length = (data.drop header).take length := by
      rw [List.drop_append_of_le_length (by omega), List.take_append_of_le_length]
      rw [List.length_drop]
      omega
    have hrest : (data ++ more).drop (header + length) = data.drop (header + length) ++ more :=
      List.drop_append_of_le_length (by omega)
    have hkey : masked = true → (fun i : Fin 4 => (data ++ more).getD (header - 4 + i) 0)
        = fun i : Fin 4 => data.getD (header - 4 + i) 0 := by
      intro hm
      funext i
      have := hheader hm
      exact List.getD_append _ _ _ _ (by omega)
    rw [hpayload, hrest]
    cases masked with
    | false =>
      cases h
      rfl
    | true =>
      rw [hkey rfl]
      cases h
      rfl

/-- What there is to a frame that is read behind its first two bytes. -/
theorem readBody_item (h : readBody fin op masked short data = .item x rest) :
    headerLength short masked + announcedLength short data ≤ data.length
      ∧ ¬ (short = 127 ∧ kMaxPayloadLength < announcedLength short data)
      ∧ ¬ (op.isControl = true ∧ (fin = false ∨ 125 < announcedLength short data))
      ∧ readPayload { fin := fin, opcode := op } masked (headerLength short masked)
          (announcedLength short data) data = .item x rest := by
  revert h
  fun_cases readBody fin op masked short data <;> intro h
  case case4 _ hmax hcontrol =>
    refine ⟨Nat.le_of_not_lt fun hlt => ?_, hmax, hcontrol, h⟩
    rw [readPayload, if_pos hlt] at h
    cases h
  all_goals cases h

theorem readBody_append_of_item (h : readBody fin op masked short data = .item x rest)
    (more : List UInt8) : readBody fin op masked short (data ++ more) = .item x (rest ++ more) := by
  obtain ⟨hlong, hmax, hcontrol, hread⟩ := readBody_item h
  unfold readBody
  rw [announcedLength_append (Nat.le_of_add_right_le hlong),
    if_neg (by rw [List.length_append]; omega), if_neg hmax, if_neg hcontrol]
  refine readPayload_append (fun hm => ?_) hread more
  unfold headerLength
  rw [hm]
  simp only [if_true]
  omega

theorem readBody_error_iff : readBody fin op masked short data = .error ↔
    headerLength short masked ≤ data.length
      ∧ (short = 127 ∧ kMaxPayloadLength < announcedLength short data
        ∨ op.isControl = true ∧ (fin = false ∨ 125 < announcedLength short data)) := by
  fun_cases readBody fin op masked short data
  case case1 hlong => exact ⟨fun h => (by cases h), fun h => absurd hlong (Nat.not_lt.mpr h.1)⟩
  case case2 hlong hmax => exact ⟨fun _ => ⟨Nat.le_of_not_lt hlong, .inl hmax⟩, fun _ => rfl⟩
  case case3 hlong _ hcontrol =>
    exact ⟨fun _ => ⟨Nat.le_of_not_lt hlong, .inr hcontrol⟩, fun _ => rfl⟩
  case case4 _ hmax hcontrol =>
    refine ⟨fun h => ?_, fun h => absurd h.2 (not_or.mpr ⟨hmax, hcontrol⟩)⟩
    unfold readPayload at h
    split at h <;> cases h

theorem readBody_append_of_error (h : readBody fin op masked short data = .error)
    (more : List UInt8) : readBody fin op masked short (data ++ more) = .error := by
  obtain ⟨hlong, hbad⟩ := readBody_error_iff.mp h
  refine readBody_error_iff.mpr ⟨by rw [List.length_append]; omega, ?_⟩
  rwa [announcedLength_append hlong]

/-- Behind its first two bytes, a frame is read as these say. -/
theorem readFrame_cons {h0 h1 : UInt8} {tail : List UInt8} (hrsv : h0 &&& 0x70 = 0)
    (hop : Opcode.ofByte (h0 &&& 0x0F) = some op) :
    readFrame (h0 :: h1 :: tail) = readBody (decide (h0 &&& 0x80 ≠ 0)) op
      (decide (h1 &&& 0x80 ≠ 0)) (h1 &&& 0x7F).toNat (h0 :: h1 :: tail) := by
  unfold readFrame
  dsimp only
  rw [if_neg (Classical.not_not.mpr hrsv), hop]

theorem readFrame_item (h : readFrame data = .item x rest) :
    ∃ h0 h1 tail op, data = h0 :: h1 :: tail ∧ h0 &&& 0x70 = 0
      ∧ Opcode.ofByte (h0 &&& 0x0F) = some op
      ∧ readBody (decide (h0 &&& 0x80 ≠ 0)) op (decide (h1 &&& 0x80 ≠ 0)) (h1 &&& 0x7F).toNat data
        = .item x rest := by
  revert h
  fun_cases readFrame data <;> intro h
  case case3 h0 h1 tail hrsv op hop =>
    exact ⟨h0, h1, tail, op, rfl, Classical.not_not.mp hrsv, hop, h⟩
  all_goals cases h

theorem steady_readFrame : Steady readFrame where
  item := by
    intro bytes x rest more h
    obtain ⟨h0, h1, tail, op, rfl, hrsv, hop, hbody⟩ := readFrame_item h
    exact (readFrame_cons hrsv hop).trans (readBody_append_of_item hbody more)
  error := by
    intro bytes more h
    revert h
    fun_cases readFrame bytes <;> intro h
    case case1 hrsv => exact if_pos hrsv
    case case2 hrsv hop =>
      rw [List.cons_append, List.cons_append, readFrame, if_neg hrsv, hop]
    case case3 hrsv op hop =>
      exact (readFrame_cons (Classical.not_not.mp hrsv) hop).trans (readBody_append_of_error h more)
    case case4 => cases h
  shorter := by
    intro bytes x rest h
    obtain ⟨h0, h1, tail, op, rfl, -, -, hbody⟩ := readFrame_item h
    obtain ⟨hlong, -, -, hread⟩ := readBody_item hbody
    have htwo := two_le_headerLength (h1 &&& 0x7F).toNat (decide (h1 &&& 0x80 ≠ 0))
    rw [readPayload, if_neg (Nat.not_lt.mpr hlong)] at hread
    cases hread
    rw [List.length_drop]
    omega

/-- The bytes begin with a header that the protocol does not allow: its reserved bits are set or its
opcode is not known, its payload is over 64 MiB, or it is of a control frame that is fragmented or
too long. -/
def Malformed (data : List UInt8) : Prop :=
  ∃ h0 h1 tail, data = h0 :: h1 :: tail
    ∧ (h0 &&& 0x70 ≠ 0 ∨ Opcode.ofByte (h0 &&& 0x0F) = none
      ∨ headerLength (h1 &&& 0x7F).toNat (decide (h1 &&& 0x80 ≠ 0)) ≤ data.length
        ∧ ((h1 &&& 0x7F).toNat = 127
            ∧ kMaxPayloadLength < announcedLength (h1 &&& 0x7F).toNat data
          ∨ ∃ op, Opcode.ofByte (h0 &&& 0x0F) = some op ∧ op.isControl = true
            ∧ (h0 &&& 0x80 = 0 ∨ 125 < announcedLength (h1 &&& 0x7F).toNat data)))

/-- The decoder refuses what is malformed, and nothing else. -/
theorem readFrame_error_iff : readFrame data = .error ↔ Malformed data := by
  unfold readFrame Malformed
  split
  next h0 h1 tail =>
    constructor
    · intro h
      refine ⟨h0, h1, tail, rfl, ?_⟩
      split at h
      next hrsv => exact .inl hrsv
      next hrsv =>
        split at h
        next hop => exact .inr (.inl hop)
        next op hop =>
          obtain ⟨hlong, hmax | ⟨hcontrol, hfin⟩⟩ := readBody_error_iff.mp h
          · exact .inr (.inr ⟨hlong, .inl hmax⟩)
          · refine .inr (.inr ⟨hlong, .inr ⟨op, hop, hcontrol, hfin.imp (fun hf => ?_) id⟩⟩)
            simpa using hf
    · rintro ⟨b0, b1, body, hbytes, h⟩
      cases hbytes
      by_cases hrsv : h0 &&& 0x70 ≠ 0
      · rw [if_pos hrsv]
      rw [if_neg hrsv]
      rcases h with h | h | ⟨hlong, h⟩
      · exact absurd h hrsv
      · rw [h]
      · cases hop : Opcode.ofByte (h0 &&& 0x0F) with
        | none => rfl
        | some op =>
          refine readBody_error_iff.mpr ⟨hlong, h.imp id ?_⟩
          rintro ⟨op', hop', hcontrol, hfin⟩
          obtain rfl := Option.some.inj (hop.symm.trans hop')
          exact ⟨hcontrol, hfin.imp (fun hf => by simpa using hf) id⟩
  next hshort =>
    refine ⟨fun h => (by cases h), ?_⟩
    rintro ⟨h0, h1, tail, rfl, -⟩
    exact absurd rfl (hshort h0 h1 tail)

/-- The bytes of a frame are enough to read a frame. -/
theorem readBody_take (h : readBody fin op masked short data = .item x rest) :
    ∃ used y, data = used ++ rest ∧ 2 ≤ used.length
      ∧ readBody fin op masked short used = .item y [] := by
  have htwo := two_le_headerLength short masked
  obtain ⟨hlong, hmax, hcontrol, hread⟩ := readBody_item h
  set size := headerLength short masked + announcedLength short data with hsize
  have hlength : (data.take size).length = size := by rw [List.length_take]; omega
  have hannounced : announcedLength short (data.take size) = announcedLength short data := by
    have hheader : headerLength short masked ≤ (data.take size).length := by rw [hlength]; omega
    have happend := announcedLength_append hheader (data.drop size)
    rw [List.take_append_drop] at happend
    exact happend.symm
  have htake : ∃ y, readBody fin op masked short (data.take size) = .item y [] := by
    unfold readBody
    rw [hannounced, if_neg (by rw [hlength]; omega), if_neg hmax, if_neg hcontrol]
    unfold readPayload
    rw [if_neg (by rw [hlength]; omega), ← hsize, List.drop_eq_nil_of_le (Nat.le_of_eq hlength)]
    exact ⟨_, rfl⟩
  rw [readPayload, if_neg (Nat.not_lt.mpr hlong)] at hread
  cases hread
  obtain ⟨y, hy⟩ := htake
  exact ⟨data.take size, y, (List.take_append_drop size data).symm, by rw [hlength]; omega, hy⟩

theorem exact_readFrame : Exact readFrame := by
  intro data x rest h
  -- some frame is read off them, and more bytes do not change which
  have hsome : ∃ used y, data = used ++ rest ∧ readFrame used = .item y [] := by
    obtain ⟨h0, h1, tail, op, rfl, hrsv, hop, hbody⟩ := readFrame_item h
    obtain ⟨used, y, hused, htwo, hread⟩ := readBody_take hbody
    match used, htwo, hused, hread with
    | b0 :: b1 :: body, _, hused, hread =>
      obtain ⟨rfl, htail⟩ := List.cons.inj hused
      obtain ⟨rfl, -⟩ := List.cons.inj htail
      exact ⟨h0 :: h1 :: body, y, hused, (readFrame_cons hrsv hop).trans hread⟩
  obtain ⟨used, y, rfl, hread⟩ := hsome
  have hmore := steady_readFrame.item rest hread
  rw [h, List.nil_append] at hmore
  cases hmore
  exact ⟨used, rfl, hread⟩

/-- Whatever `feed` leaves makes no whole frame. -/
theorem readFrame_rest (data : List UInt8) : readFrame (Decoder.feed data).rest = .wait := by
  cases hok : (Decoder.feed data).ok with
  | true => exact read_rest steady_readFrame data hok
  | false =>
    rw [Decoder.feed] at hok ⊢
    rw [rest_of_error steady_readFrame data hok]
    rfl

/-! ## What was encoded is read back -/

/-- A frame as the protocol has them: a control frame is short and not fragmented. -/
structure Frame.Valid (f : Frame) : Prop where
  length : f.payload.length ≤ kMaxPayloadLength
  control : f.opcode.isControl = true → f.fin = true ∧ f.payload.length ≤ 125

theorem applyMask_applyMask (payload : List UInt8) (key : MaskKey) :
    applyMask (applyMask payload key) key = payload := by
  unfold applyMask
  rw [List.mapIdx_mapIdx]
  refine (List.mapIdx_eq_iff).mpr (fun i => ?_)
  cases h : payload[i]? with
  | none => rfl
  | some b =>
    simp only [Function.comp, Option.map_some, UInt8.xor_assoc, UInt8.xor_self, UInt8.xor_zero]

theorem length_applyMask (payload : List UInt8) (key : MaskKey) :
    (applyMask payload key).length = payload.length := List.length_mapIdx

/-- The first byte holds the fin bit and the opcode, and nothing else. -/
theorem firstByte (fin : Bool) (op : Opcode) (b : UInt8)
    (hb : b = (if fin then 0x80 else 0x00) ||| op.toByte) :
    b &&& 0x70 = 0 ∧ Opcode.ofByte (b &&& 0x0F) = some op ∧ decide (b &&& 0x80 ≠ 0) = fin := by
  rw [hb]
  cases fin <;> cases op <;> decide

/-- The second byte holds the mask bit and a short length. -/
theorem secondByte (mask : Bool) (short : Nat) (hs : short < 128) (b : UInt8)
    (hb : b = (if mask then 0x80 else 0x00) ||| UInt8.ofNat short) :
    decide (b &&& 0x80 ≠ 0) = mask ∧ (b &&& 0x7F).toNat = short := by
  have hall : ∀ m : Bool, ∀ n : Fin 128,
      decide (((if m then 0x80 else 0x00) ||| UInt8.ofNat n) &&& 0x80 ≠ 0) = m
        ∧ (((if m then 0x80 else 0x00) ||| UInt8.ofNat n) &&& 0x7F).toNat = n.val := by
    decide
  rw [hb]
  exact hall mask ⟨short, hs⟩

/-- The header of a frame: its two bytes, and a length that is read back. -/
theorem encodeHeader_spec (f : Frame) (mask : Bool) (hf : f.payload.length ≤ kMaxPayloadLength) :
    ∃ (short : Nat) (extended : List UInt8), short < 128
      ∧ encodeHeader f mask = ((if f.fin then 0x80 else 0x00) ||| f.opcode.toByte)
          :: ((if mask then 0x80 else 0x00) ||| UInt8.ofNat short) :: extended
      ∧ headerLength short mask = 2 + extended.length + (if mask then 4 else 0)
      ∧ ∀ h0 h1 tail, announcedLength short (h0 :: h1 :: (extended ++ tail))
        = f.payload.length := by
  unfold kMaxPayloadLength at hf
  unfold encodeHeader announcedLength headerLength
  dsimp only
  by_cases hshort : f.payload.length < 126
  · refine ⟨f.payload.length, [], by omega, by rw [if_pos hshort], ?_, fun h0 h1 tail => ?_⟩
    · rw [if_neg (by omega), if_neg (by omega)]
      rfl
    · rw [if_neg (by omega), if_neg (by omega)]
  · by_cases hmedium : f.payload.length ≤ 0xFFFF
    · refine ⟨126, BigEndian.bytes 2 f.payload.length, by omega, ?_, ?_, fun h0 h1 tail => ?_⟩
      · rw [if_neg hshort, if_pos hmedium]
        rfl
      · rw [BigEndian.length_bytes]
        rfl
      · rw [if_pos rfl, List.drop_succ_cons, List.drop_succ_cons, List.drop_zero,
          List.take_left' (BigEndian.length_bytes 2 _), BigEndian.value_bytes 2 _ (by omega)]
    · refine ⟨127, BigEndian.bytes 8 f.payload.length, by omega, ?_, ?_, fun h0 h1 tail => ?_⟩
      · rw [if_neg hshort, if_neg hmedium]
        rfl
      · rw [BigEndian.length_bytes]
        rfl
      · rw [if_neg (by decide), if_pos rfl, List.drop_succ_cons, List.drop_succ_cons,
          List.drop_zero, List.take_left' (BigEndian.length_bytes 8 _),
          BigEndian.value_bytes 8 _ (by omega)]

theorem take_drop_middle (front body rest : List UInt8) :
    ((front ++ body ++ rest).drop front.length).take body.length = body := by
  rw [List.append_assoc, List.drop_left, List.take_left]

theorem drop_both (front body rest : List UInt8) :
    (front ++ body ++ rest).drop (front.length + body.length) = rest :=
  List.drop_left' (List.length_append ..)

theorem readPayload_plain (f : Frame) (header rest : List UInt8) :
    readPayload { fin := f.fin, opcode := f.opcode } false header.length f.payload.length
      (header ++ f.payload ++ rest) = .item f rest := by
  unfold readPayload
  rw [if_neg (by simp only [List.length_append]; omega), take_drop_middle, drop_both]
  rfl

theorem readPayload_masked (f : Frame) (key : MaskKey) (header rest : List UInt8) :
    readPayload { fin := f.fin, opcode := f.opcode } true (header.length + 4) f.payload.length
      (header ++ List.ofFn key ++ applyMask f.payload key ++ rest) = .item f rest := by
  have hfront : (header ++ List.ofFn key).length = header.length + 4 := by
    rw [List.length_append, List.length_ofFn]
  have hlength := length_applyMask f.payload key
  have hkey : (fun i : Fin 4 => (header ++ List.ofFn key ++ applyMask f.payload key ++ rest).getD
      (header.length + 4 - 4 + i) 0) = key := by
    funext i
    have hi : (List.ofFn key).length = 4 := List.length_ofFn
    rw [List.append_assoc, List.getD_append _ _ _ _ (by omega), Nat.add_sub_cancel,
      List.getD_append_right _ _ _ _ (by omega), Nat.add_sub_cancel_left,
      List.getD_eq_getElem _ _ (by omega), List.getElem_ofFn]
  unfold readPayload
  rw [if_neg (by simp only [List.length_append, List.length_ofFn]; omega), hkey]
  rw [← hfront, ← hlength, take_drop_middle, drop_both]
  dsimp only
  rw [if_pos rfl, applyMask_applyMask]

/-- Behind the header of a frame its payload is read. -/
theorem readFrame_header (hf : f.Valid) (mask : Bool) (tail : List UInt8)
    (htail : (if mask then 4 else 0) ≤ tail.length) :
    readFrame (encodeHeader f mask ++ tail)
      = readPayload { fin := f.fin, opcode := f.opcode } mask
          ((encodeHeader f mask).length + if mask then 4 else 0) f.payload.length
          (encodeHeader f mask ++ tail) := by
  obtain ⟨short, extended, hshort, hheader, hlength, hannounced⟩ :=
    encodeHeader_spec f mask hf.length
  obtain ⟨hrsv, hop, hfin⟩ := firstByte f.fin f.opcode _ rfl
  obtain ⟨hmask, hlow⟩ := secondByte mask short hshort _ rfl
  have hmax := hf.length
  have hcontrol : ¬ (f.opcode.isControl = true ∧ (f.fin = false ∨ 125 < f.payload.length)) := by
    rintro ⟨hc, hn | hn⟩
    · rw [(hf.control hc).1] at hn
      cases hn
    · have := (hf.control hc).2
      omega
  have hsize :
      (encodeHeader f mask).length + (if mask then 4 else 0) = headerLength short mask := by
    rw [hheader, hlength, List.length_cons, List.length_cons]
    omega
  rw [hsize, hheader, List.cons_append, List.cons_append, readFrame_cons hrsv hop, hfin, hmask,
    hlow]
  unfold readBody
  rw [hannounced, if_neg, if_neg (fun h => by omega), if_neg hcontrol]
  rw [hlength, List.length_cons, List.length_cons, List.length_append]
  omega

/-- **Every frame that was encoded is read back**, whatever follows it. -/
theorem readFrame_encodeFrame (hf : f.Valid) (key : Option MaskKey) (rest : List UInt8) :
    readFrame (encodeFrame f key ++ rest) = .item f rest := by
  cases key with
  | none =>
    have hread := readFrame_header hf false (f.payload ++ rest) (Nat.zero_le _)
    rw [← List.append_assoc] at hread
    exact hread.trans (readPayload_plain f _ rest)
  | some key =>
    have hread := readFrame_header hf true (List.ofFn key ++ applyMask f.payload key ++ rest) (by
      simp only [List.length_append, List.length_ofFn, if_true]
      omega)
    rw [← List.append_assoc, ← List.append_assoc] at hread
    exact hread.trans (readPayload_masked f key _ rest)

/-- The bytes of frames, each with the key that was drawn for it. -/
def encodeFrames (frames : List (Frame × Option MaskKey)) : List UInt8 :=
  frames.flatMap (fun f => encodeFrame f.1 f.2)

theorem encodeFrames_cons (f : Frame × Option MaskKey) (frames : List (Frame × Option MaskKey)) :
    encodeFrames (f :: frames) = encodeFrame f.1 f.2 ++ encodeFrames frames := List.flatMap_cons

theorem feed_encodeFrames {frames : List (Frame × Option MaskKey)}
    (hframes : ∀ f ∈ frames, f.1.Valid) :
    Decoder.feed (encodeFrames frames) = ⟨true, frames.map Prod.fst, []⟩ := by
  induction frames with
  | nil => exact feed_of_wait rfl
  | cons f frames ih =>
    have hread := readFrame_encodeFrame (hframes f List.mem_cons_self) f.2 (encodeFrames frames)
    have hrest := ih (fun g hg => hframes g (List.mem_cons_of_mem f hg))
    unfold Decoder.feed at hrest ⊢
    rw [encodeFrames_cons, feed_of_item steady_readFrame hread, hrest]
    rfl

/-- Frames that were encoded one after another are read back in order, however their bytes are cut
into chunks, and nothing is left of them. -/
theorem feedChunks_encodeFrames {frames : List (Frame × Option MaskKey)}
    (hframes : ∀ f ∈ frames, f.1.Valid) {chunks : List (List UInt8)}
    (hchunks : chunks.flatten = encodeFrames frames) :
    (∀ d ∈ Decoder.feedChunks chunks, d.ok = true)
      ∧ (Decoder.feedChunks chunks).flatMap Fed.items = frames.map Prod.fst
      ∧ ((Decoder.feedChunks chunks).map Fed.rest).getLastD [] = [] := by
  have hwhole : feed readFrame ([] ++ chunks.flatten) = ⟨true, frames.map Prod.fst, []⟩ := by
    rw [List.nil_append, hchunks]
    exact feed_encodeFrames hframes
  have hall := feeds_of_ok steady_readFrame (show readFrame [] = .wait from rfl) chunks
    (by rw [hwhole])
  rw [hwhole] at hall
  exact hall

/-- A masked ping and an unmasked fragment. -/
def pingAndFragment : List (Frame × Option MaskKey) :=
  [({ opcode := .ping, payload := [0x40] }, some (fun i => UInt8.ofNat (i + 1))),
    ({ fin := false, opcode := .continuation, payload := [0x61] }, none)]

theorem valid_pingAndFragment : ∀ f ∈ pingAndFragment, f.1.Valid := by
  intro f hf
  rcases List.mem_cons.mp hf with rfl | hf
  · exact ⟨by decide, by decide⟩
  · obtain rfl := List.mem_singleton.mp hf
    exact ⟨by decide, by decide⟩

/-- They are cut inside of both headers. -/
theorem feedChunks_pingAndFragment :
    (∀ d ∈ Decoder.feedChunks [[0x89], [0x81, 1, 2], [3, 4, 0x41, 0x00], [0x01, 0x61]], d.ok = true)
      ∧ (Decoder.feedChunks [[0x89], [0x81, 1, 2], [3, 4, 0x41, 0x00], [0x01, 0x61]]).flatMap
        Fed.items
        = pingAndFragment.map Prod.fst := by
  have h := feedChunks_encodeFrames valid_pingAndFragment (show List.flatten
    [[0x89], [0x81, 1, 2], [3, 4, 0x41, 0x00], [0x01, 0x61]]
      = encodeFrames pingAndFragment by decide)
  exact ⟨h.1, h.2.1⟩

end Sortie.Engine.WebSocket
