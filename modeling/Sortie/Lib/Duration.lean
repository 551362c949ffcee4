import Mathlib.Tactic.Ring

/-!
# Durations: `time.Duration` and `google.protobuf.Duration`

A `Span` is a `time.Duration`, a 64-bit count of nanoseconds. A `Duration` is the
protobuf message as it comes off the wire: any 64-bit seconds and any 32-bit
nanoseconds. Text formats only deliver the well-formed ones, a `ParsedDuration`,
whose two fields agree in sign and whose nanoseconds stay below a second.

Reading a message as a span saturates, because the message reaches much further
than the span does; writing a span as a message never loses anything.
-/

namespace Proto

/-- `time.Duration`: a 64-bit count of nanoseconds. -/
@[ext] structure Span where
  ns : Int
  inRange : -2 ^ 63 ≤ ns ∧ ns < 2 ^ 63
  deriving DecidableEq, Repr

/-- `time.Second`, in nanoseconds. -/
def second : Int := 1000000000

namespace Span

/-- The nearest span to a number of nanoseconds. -/
def clamp (n : Int) : Span where
  ns := if n < -2 ^ 63 then -2 ^ 63 else if 2 ^ 63 ≤ n then 2 ^ 63 - 1 else n
  inRange := by
    split
    · omega
    · split <;> omega

theorem clamp_ns (n : Int) :
    (clamp n).ns = if n < -2 ^ 63 then -2 ^ 63 else if 2 ^ 63 ≤ n then 2 ^ 63 - 1 else n := rfl

instance : Zero Span := ⟨⟨0, by decide⟩⟩
instance : LT Span := ⟨fun a b => a.ns < b.ns⟩
instance : LE Span := ⟨fun a b => a.ns ≤ b.ns⟩
instance (a b : Span) : Decidable (a < b) := inferInstanceAs (Decidable (a.ns < b.ns))
instance (a b : Span) : Decidable (a ≤ b) := inferInstanceAs (Decidable (a.ns ≤ b.ns))

@[simp] theorem zero_ns : (0 : Span).ns = 0 := rfl
theorem lt_iff {a b : Span} : a < b ↔ a.ns < b.ns := Iff.rfl
theorem le_iff {a b : Span} : a ≤ b ↔ a.ns ≤ b.ns := Iff.rfl

/-- A whole number of seconds. -/
def ofSeconds (n : Int) : Span := clamp (n * second)

/-- A number of nanoseconds in 64 bits: what does not fit wraps around. -/
def wrap (n : Int) : Span where
  ns := n.bmod (2 ^ 64)
  inRange := by
    have hl := Int.le_bmod (x := n) (m := 2 ^ 64) (by decide)
    have hu := Int.bmod_lt (x := n) (m := 2 ^ 64) (by decide)
    omega

/-- `math.MaxInt64` nanoseconds, some 292 years. -/
def max : Span := ⟨2 ^ 63 - 1, by decide⟩

end Span

/-- `google.protobuf.Duration`, as the wire format delivers it. -/
@[ext] structure Duration where
  seconds : Int
  nanos : Int
  secondsInt64 : -2 ^ 63 ≤ seconds ∧ seconds < 2 ^ 63
  nanosInt32 : -2 ^ 31 ≤ nanos ∧ nanos < 2 ^ 31
  deriving DecidableEq, Repr

namespace Duration

/-- The nanoseconds a message stands for. -/
def total (d : Duration) : Int := d.seconds * second + d.nanos

/-- `AsDuration`: the message as a span. Seconds that overflow by themselves decide alone. -/
def asDuration (d : Duration) : Span :=
  if d.seconds * second < -2 ^ 63 ∨ 2 ^ 63 ≤ d.seconds * second then
    Span.clamp (d.seconds * second)
  else Span.clamp d.total

/-- Truncated division by a second, for one span: what `durationpb.New` relies on. -/
theorem tdiv_second (n : Int) :
    n = n.tdiv second * second + n.tmod second
      ∧ -second < n.tmod second ∧ n.tmod second < second
      ∧ (0 ≤ n → 0 ≤ n.tmod second) ∧ (n ≤ 0 → n.tmod second ≤ 0) := by
  have hpos : (0 : Int) < second := by decide
  refine ⟨(Int.tdiv_mul_add_tmod n second).symm, Int.lt_tmod_of_pos n hpos,
    Int.tmod_lt_of_pos n hpos, fun h => Int.tmod_nonneg _ h, fun h => ?_⟩
  have := Int.tmod_nonneg second (a := -n) (by omega)
  rw [Int.neg_tmod] at this
  omega

/-- `durationpb.New`: a span as a message, with the quotient truncated toward zero. -/
def new (s : Span) : Duration where
  seconds := s.ns.tdiv second
  nanos := s.ns.tmod second
  secondsInt64 := by
    have h := s.inRange
    have hd := tdiv_second s.ns
    unfold second at *
    omega
  nanosInt32 := by
    have hd := tdiv_second s.ns
    unfold second at *
    omega

/-- Writing a span as a message loses nothing. -/
theorem total_new (s : Span) : (new s).total = s.ns := (tdiv_second s.ns).1.symm

end Duration

/-- A duration that was written as text: `1.5s`, at most some ten thousand years. -/
@[ext] structure ParsedDuration extends Duration where
  secondsInRange : -315576000000 ≤ seconds ∧ seconds ≤ 315576000000
  nanosInRange : -999999999 ≤ nanos ∧ nanos ≤ 999999999
  sameSign : (0 < seconds → 0 ≤ nanos) ∧ (seconds < 0 → nanos ≤ 0)
  deriving DecidableEq, Repr

namespace ParsedDuration

/-- A parsed duration saturates as a whole. -/
theorem asDuration_ns (d : ParsedDuration) :
    d.asDuration.ns = if d.total < -2 ^ 63 then -2 ^ 63
      else if 2 ^ 63 ≤ d.total then 2 ^ 63 - 1 else d.total := by
  have hs := d.sameSign
  unfold Duration.asDuration
  split
  · rw [Span.clamp_ns]
    unfold Duration.total second at *
    split <;> split <;> omega
  · exact Span.clamp_ns _

instance : NeZero 1000000000 := ⟨by decide⟩

/-- So many milliseconds. -/
def ofMillis (n : Fin 1000000000) : ParsedDuration where
  seconds := n / 1000
  nanos := n % 1000 * 1000000
  secondsInt64 := by have := n.isLt; omega
  nanosInt32 := by omega
  secondsInRange := by have := n.isLt; omega
  nanosInRange := by omega
  sameSign := by omega

end ParsedDuration

end Proto
