import Mathlib.Algebra.Group.Nat.Defs

/-!
# Sequence numbers on the wire

The datagram and WebSocket clients send each message behind its sequence number, as
sixteen hexadecimal digits, and find the message an echo belongs to by them.
-/

namespace Sortie.Engine

/-- `kSequencePrefixLength`. -/
def kSequencePrefixLength : Nat := 16

/-- The digit of a number below sixteen. -/
def hexDigit (n : Nat) : UInt8 := UInt8.ofNat (if n < 10 then 48 + n else 87 + n)

/-- `sequencePrefix`: the format `%016x`. -/
def sequencePrefix (sequence : UInt64) : List UInt8 :=
  (List.range kSequencePrefixLength).map fun i => hexDigit (sequence.toNat / 16 ^ (15 - i) % 16)

end Sortie.Engine
