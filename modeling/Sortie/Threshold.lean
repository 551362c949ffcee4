import Sortie.Metric

/-!
# Thresholds

The package internal/threshold: an assertion such as `latency_2xx.p95 < 500ms`, how
it is parsed and how it is judged on one result.
-/

namespace Sortie

open Proto Api Sortie.Metric

variable {F : Type}

/-- A comparison operator. -/
inductive Threshold.Op where
  | lt | le | gt | ge | eq | ne
  deriving DecidableEq, Repr

/-- One parsed assertion. `value` is nanoseconds when `isDuration` is set. -/
structure Threshold (F : Type) where
  raw : String
  selector : Selector F
  op : Threshold.Op
  value : F
  isDuration : Bool
  valueText : String
  deriving DecidableEq, Repr

namespace Threshold

def Op.text : Op → String
  | .lt => "<"
  | .le => "<="
  | .gt => ">"
  | .ge => ">="
  | .eq => "=="
  | .ne => "!="

/-- The operators, longest first so that `<=` is not mistaken for `<`. -/
def ops : List Op := [.le, .ge, .eq, .ne, .lt, .gt]

/-- The value of an assertion: a number, or else a duration. -/
def parseValue (go : Go F) (raw rhs : String) : Except String (F × Bool) :=
  match go.parseFloat rhs with
  | some n =>
    if go.isNaN n || go.isInf n then
      .error (Text.quote raw ++ ": " ++ rhs ++ " is not a usable threshold value")
    else .ok (n, false)
  | none => match go.parseDuration rhs with
    | none => .error (Text.quote raw ++ ": value " ++ Text.quote rhs
        ++ " is neither a number nor a duration (500ms)")
    | some d => .ok (go.ofInt d.ns, true)

/-- `Parse`. -/
def parse (go : Go F) (expr : String) : Except String (Threshold F) :=
  let raw := Text.trimSpace expr
  if raw = "" then .error "empty threshold"
  else match ops.findSome? fun op => (Text.cut raw op.text).map (op, ·) with
    | none => .error (Text.quote raw
        ++ ": no comparison operator found (want one of <, <=, >, >=, ==, !=)")
    | some (op, before, after) => do
      let lhs := Text.trimSpace before
      let rhs := Text.trimSpace after
      if lhs = "" ∨ rhs = "" then
        throw (Text.quote raw ++ ": expected <metric> " ++ op.text ++ " <value>")
      let selector ← parseSelector go lhs
      let (value, isDuration) ← parseValue go raw rhs
      return { raw, selector, op, value, isDuration, valueText := rhs }

/-- `ParseAll`: every failure is reported at once. -/
def parseAll (go : Go F) (exprs : List String) : Except String (List (Threshold F)) :=
  let parsed := exprs.map (parse go)
  let errs := parsed.filterMap fun
    | .error e => some e
    | .ok _ => none
  if errs.isEmpty then
    .ok (parsed.filterMap Except.toOption)
  else .error (Text.join "; " errs)

/-- The result of evaluating one threshold. -/
structure Outcome (F : Type) where
  threshold : Threshold F
  actual : Option (Value F) := none
  pass : Bool := false
  err : Option String := none
  deriving DecidableEq, Repr

/-- `compare`. -/
def compare (go : Go F) (actual : F) (op : Op) (want : F) : Bool :=
  match op with
  | .lt => go.lt actual want
  | .le => go.le actual want
  | .gt => go.lt want actual
  | .ge => go.le want actual
  | .eq => go.eq actual want
  | .ne => !go.eq actual want

/-- `Threshold.Evaluate`. -/
def evaluate (go : Go F) (t : Threshold F) (r : Result F) : Outcome F :=
  match resolve go r t.selector with
  | .error e => { threshold := t, err := some e }
  | .ok v =>
    if v.isDuration ≠ t.isDuration then
      let name := t.selector.raw
      let e :=
        if v.isDuration then name ++ " is a duration; write the threshold as a duration, e.g. "
          ++ name ++ " " ++ t.op.text ++ " 500ms"
        else name ++ " is not a duration; write the threshold as a plain number, e.g. "
          ++ name ++ " " ++ t.op.text ++ " 0"
      { threshold := t, actual := some v, err := some e }
    else { threshold := t, actual := some v, pass := compare go v.num t.op t.value }

/-- `EvaluateAll`. -/
def evaluateAll (go : Go F) (r : Result F) (ts : List (Threshold F)) : List (Outcome F) × Bool :=
  let outcomes := ts.map fun t => t.evaluate go r
  (outcomes, outcomes.all Outcome.pass)

end Threshold

end Sortie
