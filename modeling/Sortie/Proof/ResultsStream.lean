import Sortie.Cli.ResultsStream
import Sortie.Lib.Lines

/-!
# The results stream survives failing writes

The flag `torn` only says that a line may have been left unfinished: it is also set
when the failed write got as far as a newline. What it promises is the other
direction. While it is clear, the file ends where a line does, and so the next record
starts a line of its own; while it is set, the next record brings a newline with it.
That invariant holds after every write, wherever it stopped.
-/

namespace Sortie.Cli

open Run

variable {F : Type}
variable {before records : List (List UInt8)} {json : List UInt8}
  {marshal : ExecutionReport F → Except String (List UInt8)} {s : Stream}

/-- `json.Marshal` writes no newline: it does not indent, and escapes control characters. -/
def OneLine (marshal : ExecutionReport F → Except String (List UInt8)) : Prop :=
  ∀ r json, marshal r = .ok json → newline ∉ json

/-- The JSON of the executions whose write succeeded, in order. -/
def recorded (marshal : ExecutionReport F → Except String (List UInt8))
    (finished : List (ExecutionReport F × Written)) : List (List UInt8) :=
  finished.filterMap fun (r, w) => if w = .all then (marshal r).toOption else none

/-- What the stream owes to the lines a file had, and to the records written since. -/
structure Keeps (before records : List (List UInt8)) (s : Stream) : Prop where
  /-- with the flag clear, the file ends where a line does -/
  whole : s.torn = false → Lines.unfinished newline s.file = []
  /-- the old lines, and among the new ones the records, in order -/
  lines : ∃ more, Lines.complete newline s.file = before ++ more ∧ records.Sublist more

section

variable {file : List UInt8}
  (h : ∃ more, Lines.complete newline file = before ++ more ∧ records.Sublist more)
include h

/-- Whatever is appended, the lines stay. -/
theorem lines_append (bytes : List UInt8) :
    ∃ more, Lines.complete newline (file ++ bytes) = before ++ more ∧ records.Sublist more := by
  obtain ⟨more, hmore, hsub⟩ := h
  obtain ⟨rest, hrest⟩ := Lines.complete_append newline file bytes
  refine ⟨more ++ rest, by rw [hrest, hmore, List.append_assoc], ?_⟩
  exact hsub.trans (List.sublist_append_left more rest)

/-- A record written where a line may start is one more line. -/
theorem lines_record (hwhole : Lines.unfinished newline file = []) (hjson : newline ∉ json) :
    ∃ more, Lines.complete newline (file ++ (json ++ [newline])) = before ++ more
      ∧ (records ++ [json]).Sublist more := by
  obtain ⟨more, hmore, hsub⟩ := h
  refine ⟨more ++ [json], ?_, hsub.append (List.Sublist.refl _)⟩
  rw [Lines.complete_append_line hwhole hjson, hmore, List.append_assoc]

end

section

variable {r : ExecutionReport F} (h : Keeps before records s) (hr : marshal r = .ok json)
include h hr

/-- A write that succeeds adds its record. -/
theorem keeps_all (hjson : newline ∉ json) :
    Keeps before (records ++ [json]) (s.executionFinished marshal r .all) := by
  unfold Stream.executionFinished
  simp only [hr, Written.taken]
  by_cases htorn : s.torn = true
  · -- the newline in front closes what was left
    rw [if_pos htorn]
    have hsplit : s.file ++ newline :: (json ++ [newline])
        = (s.file ++ [newline]) ++ (json ++ [newline]) := by simp
    refine ⟨fun _ => ?_, ?_⟩
    · rw [hsplit, ← List.append_assoc]
      exact Lines.unfinished_append_separator _
    · rw [hsplit]
      exact lines_record (lines_append h.lines [newline])
        (Lines.unfinished_append_separator s.file) hjson
  · rw [if_neg htorn]
    refine ⟨fun _ => ?_, ?_⟩
    · rw [← List.append_assoc]
      exact Lines.unfinished_append_separator _
    · exact lines_record h.lines (h.whole (Bool.eq_false_iff.mpr htorn)) hjson

/-- A write that fails adds nothing, wherever it stopped. -/
theorem keeps_failed (n : Nat) (e : String) :
    Keeps before records (s.executionFinished marshal r (.failed n e)) := by
  unfold Stream.executionFinished
  simp only [hr, Written.taken]
  refine ⟨fun hclear => ?_, lines_append h.lines _⟩
  -- the flag is clear only if the write took nothing and it was clear before
  simp only [Bool.or_eq_false_iff, decide_eq_false_iff_not, Nat.not_lt,
    Nat.le_zero, List.length_eq_zero_iff] at hclear
  rw [hclear.1, List.append_nil]
  exact h.whole hclear.2

end

theorem keeps_executionFinished (hmarshal : OneLine marshal) (h : Keeps before records s)
    (r : ExecutionReport F) (w : Written) :
    Keeps before (records ++ recorded marshal [(r, w)]) (s.executionFinished marshal r w) := by
  cases hr : marshal r with
  | error e =>
    have hnone : recorded marshal [(r, w)] = [] := by
      simp [recorded, hr, Except.toOption]
    rw [hnone, List.append_nil]
    unfold Stream.executionFinished
    simp only [hr]
    exact ⟨h.whole, h.lines⟩
  | ok json =>
    cases w with
    | all =>
      have hone : recorded marshal [(r, .all)] = [json] := by
        simp [recorded, hr, Except.toOption]
      rw [hone]
      exact keeps_all h hr (hmarshal r json hr)
    | failed n e =>
      have hnone : recorded marshal [(r, .failed n e)] = [] := by
        simp [recorded]
      rw [hnone, List.append_nil]
      exact keeps_failed h hr n e

theorem keeps_run (hmarshal : OneLine marshal) (h : Keeps before records s)
    (finished : List (ExecutionReport F × Written)) :
    Keeps before (records ++ recorded marshal finished) (s.run marshal finished) := by
  induction finished generalizing s records with
  | nil =>
    rw [recorded, List.filterMap_nil, List.append_nil]
    exact h
  | cons x finished ih =>
    obtain ⟨r, w⟩ := x
    have hrest := ih (keeps_executionFinished hmarshal h r w)
    have hsplit : recorded marshal ((r, w) :: finished)
        = recorded marshal [(r, w)] ++ recorded marshal finished := by
      rw [recorded, recorded, recorded, ← List.filterMap_append]
      rfl
    rw [hsplit, ← List.append_assoc]
    exact hrest

/-! ## From the opening on -/

/-- An unfinished line is seen where the file can be looked at, and nothing else is. -/
theorem endsMidLine_ok {o : Opening} {content : List UInt8} {mid : Bool}
    (hregular : o.regular = true)
    (h : endsMidLine o content = .ok mid) :
    mid = false ↔ Lines.unfinished newline content = [] := by
  unfold endsMidLine at h
  rw [hregular] at h
  rw [Lines.unfinished_eq_nil_iff]
  cases hlast : content.getLast? with
  | none =>
    rw [hlast] at h
    cases h
    simp [List.getLast?_eq_none_iff.mp hlast]
  | some last =>
    have hne : content ≠ [] := by
      rintro rfl
      cases hlast
    rw [hlast] at h
    dsimp only at h
    split at h
    · cases h
    · cases h
    · cases h
      simp [hne]

/-- `openStream` keeps every line, and hands on a file that ends where a line does. -/
theorem keeps_openStream {o : Opening} (hregular : o.regular = true) (content : List UInt8)
    (w : Written) :
    (∃ more, Lines.complete newline (openStream o content w).file
        = Lines.complete newline content ++ more)
      ∧ ∀ warned, (openStream o content w).result = .ok warned →
          Keeps (Lines.complete newline content) [] ⟨(openStream o content w).file, false, []⟩ := by
  have hsame : ∃ more, Lines.complete newline content
      = Lines.complete newline content ++ more := ⟨[], by rw [List.append_nil]⟩
  unfold openStream
  cases o.refused with
  | some e => exact ⟨hsame, fun _ h => absurd h nofun⟩
  | none =>
    cases hmid : endsMidLine o content with
    | error e => exact ⟨hsame, fun _ h => absurd h nofun⟩
    | ok mid =>
      cases mid with
      | false =>
        refine ⟨hsame, fun _ _ => ⟨fun _ => (endsMidLine_ok hregular hmid).mp rfl, ?_⟩⟩
        exact ⟨[], by rw [List.append_nil], List.nil_sublist _⟩
      | true =>
        cases w with
        | failed n e =>
          exact ⟨Lines.complete_append newline content _, fun _ h => absurd h nofun⟩
        | all =>
          obtain ⟨more, hmore⟩ := Lines.complete_append newline content [newline]
          exact ⟨⟨more, hmore⟩, fun _ _ => ⟨fun _ => Lines.unfinished_append_separator content,
            more, hmore, List.nil_sublist _⟩⟩

/-- The file at the end: as `openStream` left it, or with what the run wrote. -/
def streamed (marshal : ExecutionReport F → Except String (List UInt8)) (o : Opening)
    (content : List UInt8) (w : Written) (finished : List (ExecutionReport F × Written)) :
    List UInt8 :=
  let opened := openStream o content w
  match opened.result with
  | .error _ => opened.file
  | .ok _ => ((⟨opened.file, false, []⟩ : Stream).run marshal finished).file

/--
**The stream survives failing writes.** However each write ends, every line that was complete
before is still the same line at the same place, and once the stream was opened every record
whose write succeeded is a complete line of exactly its JSON, after them and in order.
-/
theorem streamed_lines {marshal : ExecutionReport F → Except String (List UInt8)}
    (hmarshal : OneLine marshal) {o : Opening} (hregular : o.regular = true)
    (content : List UInt8) (w : Written) (finished : List (ExecutionReport F × Written)) :
    ∃ more, Lines.complete newline (streamed marshal o content w finished)
        = Lines.complete newline content ++ more
      ∧ (∀ warned, (openStream o content w).result = .ok warned →
          (recorded marshal finished).Sublist more) := by
  obtain ⟨⟨kept, hkept⟩, hopened⟩ := keeps_openStream hregular content w
  unfold streamed
  dsimp only
  cases hresult : (openStream o content w).result with
  | error e => exact ⟨kept, hkept, fun _ h => absurd h nofun⟩
  | ok warned =>
    obtain ⟨more, hmore, hsub⟩ := (keeps_run hmarshal (hopened warned hresult) finished).lines
    exact ⟨more, hmore, fun _ _ => by simpa using hsub⟩

/-- The bytes of a text in ASCII. -/
def ascii (text : String) : List UInt8 := text.toList.map fun c => UInt8.ofNat c.toNat

/-- The report of an execution that did not pass, and the JSON it is written as. -/
def soakReport : ExecutionReport Unit where
  label := "soak"
  scenario := "soak"
  pool := "main"
  rate := 1
  perBackend := false
  duration := 0
  rampTime := 0
  backends := []
  dns := ""

def soakJson : List UInt8 :=
  ascii ("\x7b\"label\":\"soak\",\"scenario\":\"soak\",\"pool\":\"main\",\"rate\":1,"
    ++ "\"duration_ms\":0,\"elapsed_ms\":0,\"pass\":false\x7d")

/-- An unfinished line, a write that fails after five bytes, and one that succeeds. -/
theorem streamed_lines_soak :
    OneLine (fun _ : ExecutionReport Unit => .ok soakJson)
      ∧ (openStream { path := "run.jsonl" } (ascii "old\nhal") .all).result = .ok true
      ∧ ∃ more, Lines.complete newline (streamed (fun _ : ExecutionReport Unit => .ok soakJson)
            { path := "run.jsonl" } (ascii "old\nhal") .all
            [(soakReport, .failed 5 "no space left on device"), (soakReport, .all)])
          = [ascii "old"] ++ more
        ∧ [soakJson].Sublist more := by
  have hmarshal : OneLine (fun _ : ExecutionReport Unit => .ok soakJson) := by
    intro r json h
    cases h
    decide
  obtain ⟨more, hmore, hsub⟩ := streamed_lines hmarshal (o := { path := "run.jsonl" }) rfl
    (ascii "old\nhal") .all [(soakReport, .failed 5 "no space left on device"), (soakReport, .all)]
  exact ⟨hmarshal, rfl, more, hmore, hsub true rfl⟩

end Sortie.Cli
