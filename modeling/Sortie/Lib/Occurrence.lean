import Mathlib.Data.List.Infix
import Sortie.Lib.Text

/-!
# Occurrences of a text in another

`cutList` cuts at the first occurrence, and `replaceList` replaces from the left what does not
overlap. A replacement that shares no character with what it replaces leaves nothing to replace.
-/

namespace Text

variable {old new cs : List Char}

/-! ## Where a text occurs -/

/-- A character that a text does not have cannot lie inside an occurrence of it. -/
theorem isInfix_of_notMem {c : Char} {before after : List Char} (hc : c ∉ old)
    (h : old <:+: before ++ c :: after) : old <:+: before ∨ old <:+: after := by
  obtain ⟨s, t, heq⟩ := h
  rcases List.append_eq_append_iff.mp heq with ⟨gap, rfl, -⟩ | ⟨past, hpast, hafter⟩
  · exact .inl ⟨s, gap, rfl⟩
  · cases past with
    | nil => exact .inl ⟨s, [], by rw [hpast]; simp⟩
    | cons d past =>
      obtain ⟨rfl, rfl⟩ := List.cons.inj hafter
      rcases List.append_eq_append_iff.mp hpast with ⟨gap, -, hold⟩ | ⟨front, rfl, hold⟩
      · exact absurd (hold ▸ List.mem_append_right _ List.mem_cons_self) hc
      · cases front with
        | nil =>
          rw [List.nil_append] at hold
          exact absurd (hold ▸ List.mem_cons_self) hc
        | cons e front =>
          obtain ⟨-, rfl⟩ := List.cons.inj hold
          exact .inr ⟨front, t, rfl⟩

theorem isInfix_of_disjoint {after : List Char} (hnew : ∀ c ∈ new, c ∉ old)
    (h : old <:+: new ++ after) (hold : old ≠ []) : old <:+: after := by
  induction new with
  | nil => exact h
  | cons c new ih =>
    have hrest := ih fun d hd => hnew d (List.mem_cons_of_mem _ hd)
    have hafter : old <:+: [] ++ c :: (new ++ after) := h
    rcases isInfix_of_notMem (hnew c List.mem_cons_self) hafter with hnil | h
    · exact absurd (List.infix_nil.mp hnil) hold
    · exact hrest h

/-! ## Cutting -/

theorem cutList_eq_none_iff (hold : old ≠ []) : cutList old cs = none ↔ ¬ old <:+: cs := by
  induction cs with
  | nil => simp [cutList, hold]
  | cons c cs ih =>
    rw [cutList, List.infix_cons_iff]
    split
    · rename_i hprefix
      simp [List.isPrefixOf_iff_prefix.mp hprefix]
    · rename_i hprefix
      rw [Option.map_eq_none_iff, ih]
      simp [List.isPrefixOf_iff_prefix.not.mp hprefix]

/-- What is cut off in front, and that no occurrence begins before it. -/
theorem cutList_eq_some {before after : List Char} (h : cutList old cs = some (before, after)) :
    cs = before ++ old ++ after
      ∧ ∀ before' after', cs = before' ++ old ++ after' → before.length ≤ before'.length := by
  induction cs generalizing before with
  | nil =>
    unfold cutList at h
    split at h
    · rename_i hold
      cases h
      exact ⟨by rw [List.isEmpty_iff.mp hold]; rfl, fun _ _ _ => Nat.zero_le _⟩
    · cases h
  | cons c cs ih =>
    unfold cutList at h
    split at h
    · rename_i hprefix
      cases h
      obtain ⟨rest, hrest⟩ := List.isPrefixOf_iff_prefix.mp hprefix
      refine ⟨?_, fun _ _ _ => Nat.zero_le _⟩
      rw [← hrest, List.drop_left, List.nil_append]
    · rename_i hprefix
      obtain ⟨⟨b, a⟩, hcut, hpair⟩ := Option.map_eq_some_iff.mp h
      obtain ⟨rfl, rfl⟩ := Prod.mk.inj hpair
      obtain ⟨rfl, hfirst⟩ := ih hcut
      refine ⟨rfl, fun before' after' heq => ?_⟩
      cases before' with
      | nil => exact absurd (List.isPrefixOf_iff_prefix.mpr ⟨after', heq.symm⟩) hprefix
      | cons d before' =>
        exact Nat.succ_le_succ (hfirst before' after' (List.cons.inj heq).2)

/-! ## Replacing -/

/-- `cs'` is `cs` with the occurrences of `old`, from the left and without overlaps, replaced. -/
inductive Replaced (old new : List Char) : List Char → List Char → Prop where
  | done {cs : List Char} : ¬ old <:+: cs → Replaced old new cs cs
  | next {before after after' : List Char} :
      (∀ b a, before ++ old ++ after = b ++ old ++ a → before.length ≤ b.length) →
      Replaced old new after after' →
      Replaced old new (before ++ old ++ after) (before ++ new ++ after')

theorem replaced_replaceList (hold : old ≠ []) {n : Nat} (hn : cs.length ≤ n) :
    Replaced old new cs (replaceList old new n cs) := by
  induction n generalizing cs with
  | zero =>
    obtain rfl := List.length_eq_zero_iff.mp (Nat.le_zero.mp hn)
    exact .done fun h => hold (List.infix_nil.mp h)
  | succ n ih =>
    unfold replaceList
    cases hcut : cutList old cs with
    | none => exact .done ((cutList_eq_none_iff hold).mp hcut)
    | some cutAt =>
      obtain ⟨rfl, hfirst⟩ := cutList_eq_some hcut
      have hpos := List.length_pos_iff.mpr hold
      refine .next hfirst (ih ?_)
      simp only [List.length_append] at hn
      omega

/-- **No occurrence forms again** across what was put in. -/
theorem Replaced.not_isInfix {cs' : List Char} (h : Replaced old new cs cs') (hold : old ≠ [])
    (hnew : old <:+: cs → new ≠ []) (hdisjoint : ∀ c ∈ new, c ∉ old) : ¬ old <:+: cs' := by
  induction h with
  | done h => exact h
  | @next before after after' hfirst _ ih =>
    intro hin
    have hne := hnew ⟨before, after, rfl⟩
    obtain ⟨c, new, rfl⟩ := List.exists_cons_of_ne_nil hne
    rw [List.append_assoc, List.cons_append] at hin
    rcases isInfix_of_notMem (hdisjoint c List.mem_cons_self) hin with ⟨s, t, rfl⟩ | hin
    · -- an occurrence inside what was cut off would have been found first
      have hle := hfirst s (t ++ old ++ after) (by simp)
      have hpos := List.length_pos_iff.mpr hold
      simp only [List.length_append] at hle
      omega
    · exact ih (fun _ => hne)
        (isInfix_of_disjoint (fun d hd => hdisjoint d (List.mem_cons_of_mem _ hd)) hin hold)

end Text
