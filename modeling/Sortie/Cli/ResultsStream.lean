import Sortie.Run.Report

/-!
# The results stream

`Stream` of internal/report/report.go and `openStream`, `endsMidLine` of
internal/cli/run.go: every execution is appended to a file as one line of JSON when it
finishes. The file is its bytes. A write either takes all it is given or fails after
some of them, and which of the two happens is given from outside, as is what the
system answers about the file.

`json.Marshal(newJSONExecution(r))` is a parameter.
-/

namespace Sortie.Cli

open Run

variable {F : Type}

/-- The byte that ends a line. -/
def newline : UInt8 := 10

/-- What comes of a `Write`. -/
inductive Written where
  | all
  /-- an error, after so many of the bytes -/
  | failed (n : Nat) (err : String)
  deriving DecidableEq, Repr

/-- The bytes of a write that reach the file. -/
def Written.taken (w : Written) (bytes : List UInt8) : List UInt8 :=
  match w with
  | .all => bytes
  | .failed n _ => bytes.take n

/-! ## Opening -/

/-- What the system answers about the file of a stream. -/
structure Opening where
  path : String
  out : String := ""
  /-- `filepath.Abs` -/
  abs : String → Option String := some
  /-- the error of `OpenFile` -/
  openError : Option String := none
  /-- `f.Stat()` succeeds, and the file is the report's, stdout or stderr -/
  stat : Bool := true
  isOut : Bool := false
  isStdout : Bool := false
  isStderr : Bool := false
  /-- `os.Stat(path)` succeeds and finds a regular file -/
  regular : Bool := true
  /-- the error of opening the file to read it back, and of reading its last byte -/
  readError : Option String := none
  lastError : Option String := none

/-- `endsMidLine`. -/
def endsMidLine (o : Opening) (content : List UInt8) : Except String Bool :=
  match o.regular, content.getLast? with
  | false, _ => .ok false
  | true, none => .ok false
  | true, some last =>
    match o.readError, o.lastError with
    | some e, _ => .error (o.path ++ " has content and cannot be read, so whether it ends in an "
        ++ "unfinished line cannot be checked: " ++ e)
    | none, some e => .error ("reading the end of " ++ o.path ++ ": " ++ e)
    | none, none => .ok (last != newline)

/-- The same file by its path. -/
def Opening.samePath (o : Opening) : Bool :=
  o.out != "" && (o.abs o.path).isSome && o.abs o.path == o.abs o.out

/-- What is refused before the end of the file is looked at. -/
def Opening.refused (o : Opening) : Option String :=
  if o.path = "-" then
    some "--results-stream needs a file: stdout carries the report, and the two cannot share it"
  else if o.samePath then
    some ("--results-stream and --output name the same file, " ++ o.path)
  else match o.openError with
    | some e => some ("--results-stream: " ++ e)
    | none =>
      if o.stat && o.out != "" && o.isOut then
        some ("--results-stream and --output name the same file, " ++ o.path)
      else if o.stat && o.isStdout then
        some ("--results-stream names what stdout is, " ++ o.path
          ++ ": stdout carries the report, and the two cannot share it")
      else if o.stat && o.isStderr then
        some ("--results-stream names what stderr is, " ++ o.path
          ++ ": stderr carries the run's narration, which would overwrite the records, "
          ++ "and the two cannot share it")
      else none

/-- What `openStream` leaves: the file, and the error or whether it warned. -/
structure Opened where
  file : List UInt8
  result : Except String Bool

/-- `openStream`, where `w` is what comes of the write that closes an unfinished line. -/
def openStream (o : Opening) (content : List UInt8) (w : Written) : Opened :=
  match o.refused with
  | some e => ⟨content, .error e⟩
  | none => match endsMidLine o content with
    | .error e => ⟨content, .error ("--results-stream: " ++ e)⟩
    | .ok false => ⟨content, .ok false⟩
    | .ok true => match w with
      | .all => ⟨content ++ [newline], .ok true⟩
      | .failed n e => ⟨content ++ [newline].take n, .error
          ("--results-stream: closing the unfinished last line of " ++ o.path ++ ": " ++ e)⟩

/-! ## Writing -/

/-- `Stream`, with the file it writes to and what `Failed` was told. -/
structure Stream where
  file : List UInt8
  /-- set by a write that failed and may have left part of a line behind -/
  torn : Bool := false
  failed : List (String × String) := []
  deriving DecidableEq, Repr

/-- `Stream.ExecutionFinished`. -/
def Stream.executionFinished (marshal : ExecutionReport F → Except String (List UInt8))
    (s : Stream) (r : ExecutionReport F) (w : Written) : Stream :=
  match marshal r with
  | .error e => { s with failed := s.failed ++ [(r.label, e)] }
  | .ok json =>
    let line := json ++ [newline]
    -- close whatever a failed write left
    let line := if s.torn then newline :: line else line
    let file := s.file ++ w.taken line
    match w with
    | .all => { s with file, torn := false }
    | .failed n e =>
      { file, torn := 0 < (line.take n).length || s.torn, failed := s.failed ++ [(r.label, e)] }

/-- The executions of a run, each with what comes of its write. -/
def Stream.run (marshal : ExecutionReport F → Except String (List UInt8)) (s : Stream)
    (finished : List (ExecutionReport F × Written)) : Stream :=
  finished.foldl (fun s (r, w) => s.executionFinished marshal r w) s

end Sortie.Cli
