import Sortie.Lib.BigEndian
import Sortie.Lib.Incremental

/-!
# WebSocket frames

Frames and their decoder (engine/source/common/websocket.cc). A buffer is the list of its
bytes, and the random mask key is an argument.
-/

namespace Sortie.Engine.WebSocket

open Incremental

/-- `kMaxPayloadLength`. -/
def kMaxPayloadLength : Nat := 64 * 1024 * 1024

inductive Opcode where
  | continuation | text | binary | close | ping | pong
  deriving DecidableEq, Repr

namespace Opcode

def toByte : Opcode → UInt8
  | continuation => 0x0
  | text => 0x1
  | binary => 0x2
  | close => 0x8
  | ping => 0x9
  | pong => 0xA

/-- The opcode of a byte that `isKnown`. -/
def ofByte (b : UInt8) : Option Opcode :=
  if b = 0x0 then some continuation
  else if b = 0x1 then some text
  else if b = 0x2 then some binary
  else if b = 0x8 then some close
  else if b = 0x9 then some ping
  else if b = 0xA then some pong
  else none

/-- `isControl`. -/
def isControl (op : Opcode) : Bool := decide (0x8 ≤ op.toByte)

end Opcode

structure Frame where
  fin : Bool := true
  opcode : Opcode := .binary
  payload : List UInt8 := []
  deriving DecidableEq, Repr

abbrev MaskKey := Fin 4 → UInt8

/-- `applyMask`. -/
def applyMask (payload : List UInt8) (key : MaskKey) : List UInt8 :=
  payload.mapIdx (fun i b => b ^^^ key (Fin.ofNat 4 i))

/-- The first two bytes of a header, and the length when it takes more than they hold. -/
def encodeHeader (frame : Frame) (mask : Bool) : List UInt8 :=
  let length := frame.payload.length
  let maskBit : UInt8 := if mask then 0x80 else 0x00
  ((if frame.fin then 0x80 else 0x00) ||| frame.opcode.toByte) ::
    if length < 126 then [maskBit ||| UInt8.ofNat length]
    else if length ≤ 0xFFFF then (maskBit ||| 126) :: BigEndian.bytes 2 length
    else (maskBit ||| 127) :: BigEndian.bytes 8 length

/-- `encodeFrame`, with the key that was drawn if the frame is masked. -/
def encodeFrame (frame : Frame) (key : Option MaskKey) : List UInt8 :=
  match key with
  | none => encodeHeader frame false ++ frame.payload
  | some key => encodeHeader frame true ++ List.ofFn key ++ applyMask frame.payload key

/-- `closeFrame`. -/
def closeFrame (code : UInt16) : Frame :=
  { opcode := .close, payload := BigEndian.bytes 2 code.toNat }

/-- What is left of a frame once its header is known: the payload has to be there. -/
def readPayload (frame : Frame) (masked : Bool) (headerLength length : Nat) (data : List UInt8) :
    Read UInt8 Frame :=
  if data.length < headerLength + length then .wait
  else
    let key : MaskKey := fun i => data.getD (headerLength - 4 + i) 0
    let payload := (data.drop headerLength).take length
    .item { frame with payload := if masked then applyMask payload key else payload }
      (data.drop (headerLength + length))

/-- The length a header announces: the short one, or the bytes behind the first two. -/
def announcedLength (short : Nat) (data : List UInt8) : Nat :=
  if short = 126 then BigEndian.value ((data.drop 2).take 2)
  else if short = 127 then BigEndian.value ((data.drop 2).take 8)
  else short

/-- How many bytes a header has. -/
def headerLength (short : Nat) (masked : Bool) : Nat :=
  2 + (if short = 126 then 2 else if short = 127 then 8 else 0) + if masked then 4 else 0

/-- A frame whose first two bytes are known to be those of a frame. -/
def readBody (fin : Bool) (op : Opcode) (masked : Bool) (short : Nat) (data : List UInt8) :
    Read UInt8 Frame :=
  if data.length < headerLength short masked then .wait
  else if short = 127 ∧ kMaxPayloadLength < announcedLength short data then .error
  else if op.isControl = true ∧ (fin = false ∨ 125 < announcedLength short data) then .error
  else
    readPayload { fin := fin, opcode := op } masked (headerLength short masked)
      (announcedLength short data) data

/-- One turn of the loop of `feed`. -/
def readFrame (data : List UInt8) : Read UInt8 Frame :=
  match data with
  | h0 :: h1 :: _ =>
    if h0 &&& 0x70 ≠ 0 then .error
    else match Opcode.ofByte (h0 &&& 0x0F) with
      | none => .error
      | some op =>
        readBody (decide (h0 &&& 0x80 ≠ 0)) op (decide (h1 &&& 0x80 ≠ 0)) (h1 &&& 0x7F).toNat data
  | _ => .wait

/-- `Decoder::feed`: whether it succeeded, the frames it read, and what it left in the buffer. -/
def Decoder.feed (data : List UInt8) : Fed UInt8 Frame := Incremental.feed readFrame data

/-- The calls of `feed` for chunks that are appended to the buffer one by one. -/
def Decoder.feedChunks (chunks : List (List UInt8)) : List (Fed UInt8 Frame) :=
  Incremental.feeds readFrame [] chunks

end Sortie.Engine.WebSocket
