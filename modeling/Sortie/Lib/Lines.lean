import Mathlib.Data.List.Basic

/-!
# Lines, complete and unfinished

A sequence is cut at every separator: what ends in one is a complete line, and what
follows the last one is unfinished. Appending never changes a line that is complete,
and it completes the unfinished one first.
-/

namespace Lines

variable {α : Type} [DecidableEq α]

/-- The complete lines, with the unfinished one in front of them already read. -/
def completeFrom (nl : α) (unfinished : List α) : List α → List (List α)
  | [] => []
  | a :: as =>
    if a = nl then unfinished :: completeFrom nl [] as
    else completeFrom nl (unfinished ++ [a]) as

/-- What is left without a separator. -/
def unfinishedFrom (nl : α) (unfinished : List α) : List α → List α
  | [] => unfinished
  | a :: as =>
    if a = nl then unfinishedFrom nl [] as else unfinishedFrom nl (unfinished ++ [a]) as

/-- The lines of a sequence that end in a separator, without it. -/
def complete (nl : α) (as : List α) : List (List α) := completeFrom nl [] as

/-- What follows the last separator. -/
def unfinished (nl : α) (as : List α) : List α := unfinishedFrom nl [] as

variable {nl : α}

theorem completeFrom_append (front as bs : List α) :
    completeFrom nl front (as ++ bs)
      = completeFrom nl front as ++ completeFrom nl (unfinishedFrom nl front as) bs := by
  induction as generalizing front with
  | nil => rfl
  | cons a as ih =>
    rw [List.cons_append, completeFrom, completeFrom, unfinishedFrom]
    split
    · rw [ih, List.cons_append]
    · rw [ih]

theorem unfinishedFrom_append (front as bs : List α) :
    unfinishedFrom nl front (as ++ bs) = unfinishedFrom nl (unfinishedFrom nl front as) bs := by
  induction as generalizing front with
  | nil => rfl
  | cons a as ih =>
    rw [List.cons_append, unfinishedFrom, unfinishedFrom]
    split
    · rw [ih]
    · rw [ih]

theorem completeFrom_line {line : List α} (h : nl ∉ line) (front : List α) :
    completeFrom nl front (line ++ [nl]) = [front ++ line] := by
  induction line generalizing front with
  | nil => simp [completeFrom]
  | cons a line ih =>
    have hne : a ≠ nl := fun heq => h (heq ▸ List.mem_cons_self)
    rw [List.cons_append, completeFrom, if_neg hne,
      ih (fun hmem => h (List.mem_cons_of_mem _ hmem)), List.append_assoc]
    rfl

/-- Whatever is appended, the lines that are complete stay where they are. -/
theorem complete_append (nl : α) (as bs : List α) :
    ∃ more, complete nl (as ++ bs) = complete nl as ++ more :=
  ⟨_, completeFrom_append [] as bs⟩

/-- A line that starts after a separator is complete with the next one. -/
theorem complete_append_line {as line : List α} (has : unfinished nl as = []) (h : nl ∉ line) :
    complete nl (as ++ (line ++ [nl])) = complete nl as ++ [line] := by
  rw [complete, completeFrom_append]
  rw [unfinished] at has
  rw [has, completeFrom_line h]
  rfl

/-- A separator at the end leaves nothing unfinished. -/
theorem unfinished_append_separator (as : List α) : unfinished nl (as ++ [nl]) = [] := by
  rw [unfinished, unfinishedFrom_append]
  simp [unfinishedFrom]

theorem unfinished_eq_nil_iff {as : List α} :
    unfinished nl as = [] ↔ as = [] ∨ as.getLast? = some nl := by
  rcases List.eq_nil_or_concat as with rfl | ⟨init, last, rfl⟩
  · simp [unfinished, unfinishedFrom]
  · rw [List.concat_eq_append, List.getLast?_concat]
    by_cases hl : last = nl
    · subst hl
      simp [unfinished_append_separator]
    · have hne : unfinished nl (init ++ [last]) ≠ [] := by
        rw [unfinished, unfinishedFrom_append]
        simp [unfinishedFrom, hl]
      simp [hne, hl]

end Lines
