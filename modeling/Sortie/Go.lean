import Sortie.Lib.Duration
import Sortie.Lib.Text

/-!
# What sortie takes from Go and from the machine it runs on

`Go F` collects the functions of the standard library whose code is not part of
the repository: floating-point arithmetic on a type `F` of 64-bit floats, parsing
of numbers, durations and IP literals, and reading files. Nothing is assumed about
them, so every result holds for whatever they return.

A Go function that returns an error returns an `Except`; `Failure` tells an error
from a panic.
-/

namespace Sortie

open Proto

/-- The functions of the Go standard library that sortie's logic calls. -/
structure Go (F : Type) where
  /-- `strconv.ParseFloat(s, 64)` -/
  parseFloat : String → Option F
  isNaN : F → Bool
  isInf : F → Bool
  /-- the conversion of an integer -/
  ofInt : Int → F
  /-- the constant nearest to a rational number -/
  lit : Rat → F
  lt : F → F → Bool
  le : F → F → Bool
  eq : F → F → Bool
  sub : F → F → F
  div : F → F → F
  /-- `time.Duration.Seconds` -/
  seconds : Span → F
  /-- the verbs `%v` and `%.4g` -/
  formatV : F → String
  format4g : F → String
  /-- `time.Duration.String` -/
  formatSpan : Span → String
  /-- `time.ParseDuration` -/
  parseDuration : String → Option Span
  /-- whether `net.ParseIP` recognises the text -/
  parseIP : String → Bool
  /-- `os.ReadFile`, with the text of its error -/
  readFile : String → Except String (List UInt8)

/-- A library in which no text is a number, a duration or an address, and no file exists. -/
def Go.bare : Go Unit where
  parseFloat := fun _ => none
  isNaN := fun _ => false
  isInf := fun _ => false
  ofInt := fun _ => ()
  lit := fun _ => ()
  lt := fun _ _ => false
  le := fun _ _ => true
  eq := fun _ _ => true
  sub := fun _ _ => ()
  div := fun _ _ => ()
  seconds := fun _ => ()
  formatV := fun _ => "0"
  format4g := fun _ => "0"
  formatSpan := fun s => toString s.ns ++ "ns"
  parseDuration := fun _ => none
  parseIP := fun _ => false
  readFile := fun path => .error ("open " ++ path ++ ": no such file or directory")

/-- How a Go function that does not return normally ends. -/
inductive Failure where
  | error (text : String)
  | panic (text : String)
  deriving DecidableEq, Repr

end Sortie
