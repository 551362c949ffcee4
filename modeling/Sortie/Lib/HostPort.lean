import Mathlib.Tactic.IntervalCases
import Sortie.Lib.Naming
import Sortie.Lib.Text

/-!
# Numerals and `host:port`

A decimal numeral that was parsed is written back as it was exactly when it has no
zeros in front. A host and a port that `net.SplitHostPort` took apart are joined by
`net.JoinHostPort` and taken apart again without loss, whether or not the host needs
brackets.
-/

namespace Text

/-! ## Decimal numerals -/

theorem toList_toString (n : Nat) : (toString n).toList = Nat.toDigits 10 n :=
  String.toList_ofList

theorem digitsValue_toString (n : Nat) : digitsValue (toString n).toList = n := by
  rw [toList_toString]
  exact Nat.ofDigitChars_toDigits (by decide) (by decide)

theorem toString_injective : Function.Injective (toString : Nat → String) := by
  intro m n h
  rw [← digitsValue_toString m, h, digitsValue_toString]

theorem isDigit_of_mem_toString {n : Nat} {c : Char} (h : c ∈ (toString n).toList) :
    c.isDigit = true := by
  rw [toList_toString] at h
  exact Nat.isDigit_of_mem_toDigits (by decide) (by decide) h

/-- A numeral without zeros in front. -/
def Unpadded (s : String) : Prop := s = "0" ∨ s.toList.head? ≠ some '0'

instance (s : String) : Decidable (Unpadded s) := inferInstanceAs (Decidable (_ ∨ _))

theorem head?_toDigits {n : Nat} (hn : 0 < n) : (Nat.toDigits 10 n).head? ≠ some '0' := by
  induction n using Nat.strongRecOn with
  | ind n ih =>
    rw [Nat.toDigits_eq_if (by decide)]
    by_cases hlt : n < 10
    · rw [if_pos hlt]
      interval_cases n <;> decide
    · rw [if_neg hlt]
      have hhead := ih (n / 10) (by omega) (by omega)
      cases hds : Nat.toDigits 10 (n / 10) with
      | nil => exact absurd hds Nat.toDigits_ne_nil
      | cons d ds =>
        rw [hds] at hhead
        exact hhead

theorem unpadded_toString (n : Nat) : Unpadded (toString n) := by
  rcases Nat.eq_zero_or_pos n with rfl | hn
  · exact .inl rfl
  · exact .inr (toList_toString n ▸ head?_toDigits hn)

theorem digitsValue_append_singleton (cs : List Char) (c : Char) :
    digitsValue (cs ++ [c]) = 10 * digitsValue cs + (c.toNat - '0'.toNat) := by
  rw [digitsValue, List.foldl_append]
  rfl

theorem digit_value {c : Char} (h : c.isDigit = true) :
    c.toNat - '0'.toNat < 10 ∧ Nat.digitChar (c.toNat - '0'.toNat) = c := by
  have hrange : 48 ≤ c.toNat ∧ c.toNat ≤ 57 := by
    simp only [Char.isDigit, Bool.and_eq_true, decide_eq_true_eq] at h
    exact h
  have hval : '0'.toNat = 48 := rfl
  refine ⟨by omega, ?_⟩
  obtain ⟨k, hk⟩ : ∃ k, c.toNat = 48 + k := ⟨c.toNat - 48, by omega⟩
  have hk9 : k ≤ 9 := by omega
  have hc : c = Char.ofNat (48 + k) := by rw [← hk, Char.ofNat_toNat]
  rw [hk, hc, hval]
  interval_cases k <;> rfl

section

variable {cs : List Char} (hne : cs ≠ []) (hdigits : ∀ c ∈ cs, c.isDigit = true)
include hne hdigits

theorem digitsValue_pos (hhead : cs.head? ≠ some '0') : 0 < digitsValue cs := by
  induction cs using List.reverseRecOn with
  | nil => exact absurd rfl hne
  | append_singleton cs c ih =>
    rw [digitsValue_append_singleton]
    by_cases hcs : cs = []
    · -- a single digit, and not zero
      subst hcs
      obtain ⟨-, hchar⟩ := digit_value (hdigits c (by simp))
      by_contra hzero
      have hval : c.toNat - '0'.toNat = 0 := by omega
      rw [hval] at hchar
      exact hhead (by rw [← hchar]; rfl)
    · have hpos := ih hcs (fun d hd => hdigits d (by simp [hd])) (by
        rwa [List.head?_append_of_ne_nil _ hcs] at hhead)
      omega

/-- A numeral without zeros in front is the one its value is written as. -/
theorem toDigits_digitsValue (hhead : cs = ['0'] ∨ cs.head? ≠ some '0') :
    Nat.toDigits 10 (digitsValue cs) = cs := by
  induction cs using List.reverseRecOn with
  | nil => exact absurd rfl hne
  | append_singleton cs c ih =>
    obtain ⟨hlt, hchar⟩ := digit_value (hdigits c (by simp))
    rw [digitsValue_append_singleton]
    by_cases hcs : cs = []
    · subst hcs
      have hzero : digitsValue [] = 0 := rfl
      rw [hzero, Nat.mul_zero, Nat.zero_add, Nat.toDigits_of_lt_base hlt, hchar]
      rfl
    · have hhead' : cs.head? ≠ some '0' := by
        rcases hhead with heq | hh
        · have hlen := congrArg List.length heq
          have := List.length_pos_iff.2 hcs
          rw [List.length_append, List.length_singleton, List.length_singleton] at hlen
          omega
        · rwa [List.head?_append_of_ne_nil _ hcs] at hh
      have hrest : ∀ d ∈ cs, d.isDigit = true := fun d hd => hdigits d (by simp [hd])
      rw [← Nat.toDigits_append_toDigits (by decide) (digitsValue_pos hcs hrest hhead') hlt,
        ih hcs hrest (.inr hhead'), Nat.toDigits_of_lt_base hlt, hchar]

end

/-- **A number is written as it was read exactly when it had no zeros in front.** -/
theorem toString_parseUint {s : String} {bits n : Nat} (h : parseUint s bits = some n) :
    toString n = s ↔ Unpadded s := by
  constructor
  · rintro rfl
    exact unpadded_toString n
  · intro hs
    unfold parseUint at h
    split at h
    · cases h
    · rename_i hdigits
      split at h
      · cases h
        simp only [Bool.or_eq_true, List.isEmpty_iff, Bool.not_eq_true', not_or,
          Bool.not_eq_false, List.all_eq_true] at hdigits
        have hhead : s.toList = ['0'] ∨ s.toList.head? ≠ some '0' :=
          hs.imp (fun h0 => by rw [h0]; rfl) id
        refine String.toList_injective ?_
        rw [toList_toString]
        exact toDigits_digitsValue hdigits.1 hdigits.2 hhead
      · cases h

/-! ## Host and port -/

/-- What `net.SplitHostPort` returns: brackets in neither part, and no colon in the port. -/
structure Joinable (host port : String) : Prop where
  hostOpen : '[' ∉ host.toList
  hostClose : ']' ∉ host.toList
  portColon : ':' ∉ port.toList
  portOpen : '[' ∉ port.toList
  portClose : ']' ∉ port.toList

/-- What is taken apart can be joined, and its port is what follows the last colon. -/
theorem splitHostPort_ok {hostport host port : String}
    (h : splitHostPort hostport = .ok (host, port)) :
    Joinable host port ∧ ∃ before, hostport.toList = before ++ ':' :: port.toList := by
  unfold splitHostPort at h
  dsimp only at h
  split at h
  · cases h
  · rename_i portRev hostRev hcut
    obtain ⟨hrev, hcolon⟩ := cutList_singleton_iff.1 hcut
    have hcs : hostport.toList = hostRev.reverse ++ ':' :: portRev.reverse := by
      rw [← List.reverse_reverse hostport.toList, hrev]
      simp
    split at h
    · rename_i rest hbracket
      split at h
      · cases h
      · rename_i inner after hclose
        obtain ⟨hrest, hinner⟩ := cutList_singleton_iff.1 hclose
        split at h
        · cases h
        · split at h
          · rename_i hbefore
            split at h
            · cases h
            · rename_i hopen
              split at h
              · cases h
              · rename_i hafter
                obtain ⟨rfl, rfl⟩ := Prod.mk.inj (Except.ok.inj h)
                refine ⟨?_, hostRev.reverse, by simpa using hcs⟩
                -- the bracket closes right before the last colon
                rw [hbracket, hbefore, hrest] at hcs
                have hport : after = ':' :: portRev.reverse := by simpa using hcs
                simp only [List.contains_eq_mem, decide_eq_true_eq] at hopen hafter
                rw [hrest] at hopen
                rw [hport] at hopen hafter
                simp only [List.mem_append, List.mem_cons, not_or] at hopen hafter
                exact ⟨by simpa using hopen.1, by simpa using hinner, by simpa using hcolon,
                  by simpa using hopen.2.2.2, by simpa using hafter.2⟩
          · split at h
            · cases h
            · cases h
    · split at h
      · cases h
      · split at h
        · cases h
        · rename_i hopen
          split at h
          · cases h
          · rename_i hclose
            obtain ⟨rfl, rfl⟩ := Prod.mk.inj (Except.ok.inj h)
            refine ⟨?_, hostRev.reverse, by simpa using hcs⟩
            simp only [List.contains_eq_mem, decide_eq_true_eq] at hopen hclose
            rw [hcs] at hopen hclose
            simp only [List.mem_append, List.mem_cons, not_or] at hopen hclose
            exact ⟨by simpa using hopen.1, by simpa using hclose.1, by simpa using hcolon,
              by simpa using hopen.2.2, by simpa using hclose.2.2⟩

/-- **What was joined is taken apart again.** -/
theorem splitHostPort_join {host port : String} (h : Joinable host port) :
    splitHostPort (joinHostPort host port) = .ok (host, port) := by
  have hport : ':' ∉ port.toList.reverse := by simpa using h.portColon
  unfold joinHostPort
  by_cases hcolon : host.toList.contains ':' = true
  · rw [if_pos hcolon]
    have hcs : ("[" ++ host ++ "]:" ++ port).toList
        = '[' :: (host.toList ++ ']' :: ':' :: port.toList) := by simp
    have hcut : cutList [':'] ("[" ++ host ++ "]:" ++ port).toList.reverse
        = some (port.toList.reverse, ('[' :: host.toList ++ [']']).reverse) := by
      rw [hcs, cutList_singleton_iff]
      exact ⟨by simp, hport⟩
    have hclose : cutList [']'] (host.toList ++ ']' :: ':' :: port.toList)
        = some (host.toList, ':' :: port.toList) := cutList_singleton_iff.2 ⟨rfl, h.hostClose⟩
    unfold splitHostPort
    simp only [hcut]
    rw [hcs]
    simp only [hclose]
    rw [if_neg (by simp), if_pos (by simp), if_neg, if_neg]
    · simp
    · simp [h.portClose]
    · simp [h.hostOpen, h.portOpen]
  · rw [if_neg hcolon]
    have hcs : (host ++ ":" ++ port).toList = host.toList ++ ':' :: port.toList := by simp
    have hcut : cutList [':'] (host ++ ":" ++ port).toList.reverse
        = some (port.toList.reverse, host.toList.reverse) := by
      rw [hcs, cutList_singleton_iff]
      exact ⟨by simp, hport⟩
    unfold splitHostPort
    simp only [hcut]
    rw [hcs]
    split
    · rename_i rest hbracket
      -- no host starts with a bracket
      cases hh : host.toList with
      | nil =>
        rw [hh] at hbracket
        exact absurd (List.cons.inj hbracket).1 (by decide)
      | cons c cs =>
        rw [hh] at hbracket
        have hc : c = '[' := (List.cons.inj hbracket).1
        exact absurd (by rw [hh, hc]; exact List.mem_cons_self) h.hostOpen
    · rw [if_neg (by simpa using hcolon), if_neg (by simp [h.hostOpen, h.portOpen]),
        if_neg (by simp [h.hostClose, h.portClose])]
      simp

theorem toList_joinHostPort (host port : String) :
    ∃ before, (joinHostPort host port).toList = before ++ ':' :: port.toList := by
  unfold joinHostPort
  split
  · exact ⟨'[' :: host.toList ++ [']'], by simp⟩
  · exact ⟨host.toList, by simp⟩

/-- Whatever the host: a port without a colon is what comes back, if anything does. -/
theorem split_join_port {host port host' port' : String} (hport : ':' ∉ port.toList)
    (h : splitHostPort (joinHostPort host port) = .ok (host', port')) : port' = port := by
  obtain ⟨hjoin, before, hbefore⟩ := splitHostPort_ok h
  obtain ⟨front, hfront⟩ := toList_joinHostPort host port
  rw [hfront] at hbefore
  have hrev := congrArg List.reverse hbefore
  simp only [List.reverse_append, List.reverse_cons, List.append_assoc, List.singleton_append]
    at hrev
  have hcut := Naming.cut_inj (by simpa using hport) (by simpa using hjoin.portColon) hrev
  exact String.toList_injective (List.reverse_injective hcut.1).symm

theorem joinHostPort_port_inj {host port port' : String} :
    joinHostPort host port = joinHostPort host port' ↔ port = port' := by
  unfold joinHostPort
  split
  · exact ⟨fun h => by simpa [String.append_assoc] using h, fun h => by rw [h]⟩
  · exact ⟨fun h => by simpa [String.append_assoc] using h, fun h => by rw [h]⟩

end Text
