import Mathlib.Algebra.Group.Nat.Defs
import Mathlib.Data.List.Basic

/-!
# Strings the way Go's standard library handles them

The few functions of `absl` that the engine uses are here too. Everything is computed on
the list of a string's characters, so that it reduces in the kernel. Two functions of the
library are cut down to what a comparison against ASCII text can see: lower-casing and
case folding move a character outside ASCII only when Go maps it into ASCII.
-/

namespace Text

/-! ## Searching and cutting -/

/-- `strings.HasPrefix`. -/
def hasPrefix (s p : String) : Bool := p.toList.isPrefixOf s.toList

/-- `strings.HasSuffix`. -/
def hasSuffix (s p : String) : Bool := p.toList.isSuffixOf s.toList

/-- `strings.CutPrefix`. -/
def cutPrefix (s p : String) : Option String :=
  if hasPrefix s p then some (String.ofList (s.toList.drop p.toList.length)) else none

/-- The text before and after the first occurrence of `sep`. -/
def cutList (sep : List Char) : List Char → Option (List Char × List Char)
  | [] => if sep.isEmpty then some ([], []) else none
  | c :: cs =>
    if sep.isPrefixOf (c :: cs) then some ([], (c :: cs).drop sep.length)
    else (cutList sep cs).map fun (before, after) => (c :: before, after)

/-- Cutting at one character. -/
theorem cutList_singleton_iff {c : Char} {cs before after : List Char} :
    cutList [c] cs = some (before, after) ↔ cs = before ++ c :: after ∧ c ∉ before := by
  induction cs generalizing before with
  | nil => simp [cutList]
  | cons d cs ih =>
    rw [cutList]
    by_cases hd : d = c
    · subst hd
      rw [if_pos (by simp)]
      constructor
      · intro h
        cases h
        exact ⟨rfl, List.not_mem_nil⟩
      · rintro ⟨heq, hnot⟩
        -- the first character is the one cut at, so nothing stands before it
        cases before with
        | nil => obtain ⟨-, rfl⟩ := List.cons.inj heq; rfl
        | cons b before =>
          obtain ⟨rfl, -⟩ := List.cons.inj heq
          exact absurd List.mem_cons_self hnot
    · rw [if_neg (by simp [Ne.symm hd]), Option.map_eq_some_iff]
      constructor
      · rintro ⟨⟨b, a⟩, hcut, hpair⟩
        obtain ⟨rfl, rfl⟩ := Prod.mk.inj hpair
        obtain ⟨rfl, hnot⟩ := ih.1 hcut
        exact ⟨rfl, by simp [hnot, Ne.symm hd]⟩
      · rintro ⟨heq, hnot⟩
        cases before with
        | nil => exact absurd (List.cons.inj heq).1 hd
        | cons b before =>
          obtain ⟨rfl, rfl⟩ := List.cons.inj heq
          exact ⟨(before, after), ih.2 ⟨rfl, fun h => hnot (List.mem_cons_of_mem _ h)⟩, rfl⟩

/-- `strings.Cut`. -/
def cut (s sep : String) : Option (String × String) :=
  (cutList sep.toList s.toList).map fun (before, after) =>
    (String.ofList before, String.ofList after)

/-- The text before and after the last occurrence of the character `c`. -/
def cutLast (s : String) (c : Char) : Option (String × String) :=
  (cutList [c] s.toList.reverse).map fun (after, before) =>
    (String.ofList before.reverse, String.ofList after.reverse)

/-- Every occurrence of `old` replaced, from the left, in text of at most `n` occurrences. -/
def replaceList (old new : List Char) : Nat → List Char → List Char
  | 0, cs => cs
  | n + 1, cs =>
    match cutList old cs with
    | none => cs
    | some (before, after) => before ++ new ++ replaceList old new n after

/-- `absl::StrReplaceAll` for one pair; `old` is not empty. -/
def replaceAll (s old new : String) : String :=
  String.ofList (replaceList old.toList new.toList s.toList.length s.toList)

/-- `strings.ContainsAny`. -/
def containsAny (s chars : String) : Bool := s.toList.any chars.toList.contains

/-- The text before the first of `chars`. -/
def upToAny (s chars : String) : String :=
  String.ofList (s.toList.takeWhile fun c => !chars.toList.contains c)

/-- `strings.Split` at a single character. -/
def split (s : String) (c : Char) : List String := (s.toList.splitOn c).map String.ofList

/-- `strings.Join`. -/
def join (sep : String) : List String → String
  | [] => ""
  | [a] => a
  | a :: as => a ++ sep ++ join sep as

/-- `unicode.IsSpace`. -/
def isSpace (c : Char) : Bool :=
  let n := c.toNat
  (9 ≤ n && n ≤ 13) || n == 0x20 || n == 0x85 || n == 0xA0 || n == 0x1680
    || (0x2000 ≤ n && n ≤ 0x200A) || n == 0x2028 || n == 0x2029 || n == 0x202F
    || n == 0x205F || n == 0x3000

/-- `strings.TrimSpace`. -/
def trimSpace (s : String) : String :=
  String.ofList ((s.toList.dropWhile isSpace).reverse.dropWhile isSpace).reverse

/-! ## Case -/

/-- `unicode.ToLower`, as far as it reaches ASCII: U+0130 and the Kelvin sign do. -/
def toLowerRune (c : Char) : Char :=
  if 'A' ≤ c ∧ c ≤ 'Z' then Char.ofNat (c.toNat + 32)
  else if c.toNat = 0x130 then 'i'
  else if c.toNat = 0x212A then 'k'
  else c

/-- `unicode.ToUpper`, as far as it reaches ASCII: the dotless i and the long s do. -/
def toUpperRune (c : Char) : Char :=
  if 'a' ≤ c ∧ c ≤ 'z' then Char.ofNat (c.toNat - 32)
  else if c.toNat = 0x131 then 'I'
  else if c.toNat = 0x17F then 'S'
  else c

/-- The representative of a character's case-folding class. -/
def foldRune (c : Char) : Char :=
  if 'A' ≤ c ∧ c ≤ 'Z' then Char.ofNat (c.toNat + 32)
  else if c.toNat = 0x17F then 's'
  else if c.toNat = 0x212A then 'k'
  else c

/-- `absl::AsciiStrToLower`. -/
def asciiLower (s : String) : String :=
  String.ofList (s.toList.map fun c => if 'A' ≤ c ∧ c ≤ 'Z' then Char.ofNat (c.toNat + 32) else c)

/-- `strings.ToUpper`. -/
def toUpper (s : String) : String := String.ofList (s.toList.map toUpperRune)

/-- `strings.EqualFold`. -/
def equalFold (s t : String) : Bool := s.toList.map foldRune == t.toList.map foldRune

/-! ## Numbers -/

/-- The value of a list of decimal digits. -/
def digitsValue (cs : List Char) : Nat :=
  cs.foldl (fun n c => 10 * n + (c.toNat - '0'.toNat)) 0

/-- `strconv.ParseUint(s, 10, bits)`. -/
def parseUint (s : String) (bits : Nat) : Option Nat :=
  if s.toList.isEmpty || !s.toList.all Char.isDigit then none
  else if digitsValue s.toList < 2 ^ bits then some (digitsValue s.toList) else none

theorem parseUint_lt {s : String} {bits n : Nat} (h : parseUint s bits = some n) :
    n < 2 ^ bits := by
  unfold parseUint at h
  split at h
  · cases h
  · split at h
    · rename_i hlt
      cases h
      exact hlt
    · cases h

/-- `%q`, on text without unprintable characters outside ASCII. -/
def quote (s : String) : String :=
  let hex (n : Nat) : Char := (Nat.digitChar n)
  let escape (c : Char) : List Char :=
    if c = '"' then ['\\', '"'] else if c = '\\' then ['\\', '\\']
    else if c.toNat = 7 then ['\\', 'a'] else if c.toNat = 8 then ['\\', 'b']
    else if c.toNat = 9 then ['\\', 't'] else if c.toNat = 10 then ['\\', 'n']
    else if c.toNat = 11 then ['\\', 'v'] else if c.toNat = 12 then ['\\', 'f']
    else if c.toNat = 13 then ['\\', 'r']
    else if c.toNat < 32 ∨ c.toNat = 127 then
      ['\\', 'x', hex (c.toNat / 16), hex (c.toNat % 16)]
    else [c]
  String.ofList ('"' :: s.toList.flatMap escape ++ ['"'])

/-! ## host:port -/

/-- `net.SplitHostPort`, with the text of its `AddrError`. -/
def splitHostPort (hostport : String) : Except String (String × String) :=
  let cs := hostport.toList
  let fail (why : String) : Except String (String × String) :=
    .error ("address " ++ hostport ++ ": " ++ why)
  match cutList [':'] cs.reverse with
  | none => fail "missing port in address"
  | some (portRev, hostRev) =>
    let before := hostRev.reverse
    let port := String.ofList portRev.reverse
    match cs with
    | '[' :: rest =>
      match cutList [']'] rest with
      | none => fail "missing ']' in address"
      | some (host, after) =>
        -- the bracket has to close right before the last colon
        if after = [] then fail "missing port in address"
        else if before = '[' :: host ++ [']'] then
          if rest.contains '[' then fail "unexpected '[' in address"
          else if after.contains ']' then fail "unexpected ']' in address"
          else .ok (String.ofList host, port)
        else if after.head? = some ':' then fail "too many colons in address"
        else fail "missing port in address"
    | _ =>
      if before.contains ':' then fail "too many colons in address"
      else if cs.contains '[' then fail "unexpected '[' in address"
      else if cs.contains ']' then fail "unexpected ']' in address"
      else .ok (String.ofList before, port)

/-- `net.JoinHostPort`. -/
def joinHostPort (host port : String) : String :=
  if host.toList.contains ':' then "[" ++ host ++ "]:" ++ port else host ++ ":" ++ port

end Text
