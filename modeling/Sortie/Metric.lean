import Mathlib.Data.List.Sort
import Sortie.Api.Output

/-!
# Metric selectors and what they resolve to

The package internal/metric: parsing `latency_2xx.p95`, `counter:...` and
`rate:...`, and looking the metric up in a result.
-/

namespace Sortie.Metric

open Proto Api

variable {F : Type}

/-- The scalar summaries a statistic exposes. -/
inductive Aggregate where
  | mean | min | max | pstdev | count
  deriving DecidableEq, Repr

def Aggregate.text : Aggregate → String
  | .mean => "mean"
  | .min => "min"
  | .max => "max"
  | .pstdev => "pstdev"
  | .count => "count"

/-- The aggregate a suffix names. -/
def Aggregate.ofText (s : String) : Option Aggregate :=
  [Aggregate.mean, .min, .max, .pstdev, .count].find? fun a => a.text == s

/-- What a selector names, with the fields its kind sets. -/
inductive Kind (F : Type) where
  | percentile (stat : String) (p : F)
  | aggregate (stat : String) (a : Aggregate)
  | counter (name : String)
  | rate (name : String)
  deriving DecidableEq, Repr

/-- A parsed metric reference. -/
structure Selector (F : Type) where
  raw : String
  kind : Kind F
  deriving DecidableEq, Repr

/-- A selector for a counter, by the prefix it was written with. -/
def namedCounter (raw name : String) (kind : String → Kind F) : Except String (Selector F) :=
  if name = "" then .error (Text.quote raw ++ ": counter name is empty")
  else .ok { raw, kind := kind name }

/-- A selector for a statistic: its percentile or one of its aggregates. -/
def ofStatistic (go : Go F) (raw stat suffix : String) : Except String (Selector F) :=
  if stat = "" then .error (Text.quote raw ++ ": statistic name is empty")
  else match Aggregate.ofText suffix with
    | some a => .ok { raw, kind := .aggregate stat a }
    | none => match Text.cutPrefix suffix "p" with
      | none => .error (Text.quote raw ++ ": unknown suffix " ++ Text.quote suffix
          ++ ", want p<N>, mean, min, max, pstdev or count")
      | some pct => match go.parseFloat pct with
        | none => .error (Text.quote raw ++ ": invalid percentile " ++ Text.quote suffix)
        | some v =>
          if go.le v (go.lit 0) || go.lt (go.lit 100) v then
            .error (Text.quote raw ++ ": percentile " ++ go.formatV v ++ " must be in (0,100]")
          else .ok { raw, kind := .percentile stat v }

/-- `ParseSelector`. -/
def parseSelector (go : Go F) (raw : String) : Except String (Selector F) :=
  let s := Text.trimSpace raw
  if s = "" then .error "empty metric selector"
  else match Text.cutPrefix s "counter:" with
    | some name => namedCounter raw name .counter
    | none => match Text.cutPrefix s "rate:" with
      | some name => namedCounter raw name .rate
      | none => match Text.cutLast s '.' with
        | none =>
          .error (Text.quote raw ++ ": expected <statistic>.<p95|mean|min|max|pstdev|count>,"
            ++ " counter:<name> or rate:<name>")
        | some (stat, suffix) =>
          -- `latency_2xx.p99.9` splits at the wrong dot: retry one dot earlier
          match (go.parseFloat suffix).bind fun _ => Text.cutLast stat '.' with
          | some (earlier, p) => ofStatistic go raw earlier (p ++ "." ++ suffix)
          | none => ofStatistic go raw stat suffix

/-- A resolved metric. -/
structure Value (F : Type) where
  num : F
  isDuration : Bool := false
  actualPercentile : Option F := none
  deriving DecidableEq, Repr

/-- The numbers a measured value resolves to. -/
def measured {R : Type} (go : Go F) (num : R → F) : Measured R → Value F
  | .duration d => { num := go.ofInt d.asDuration.ns, isDuration := true }
  | .raw r => { num := num r }

/-- `resolvePercentile`. -/
def resolvePercentile (go : Go F) (raw : String) (st : Statistic F) (p : F) :
    Except String (Value F) :=
  if st.percentiles.isEmpty then
    .error (raw ++ ": statistic " ++ Text.quote st.id ++ " carries no percentiles")
  else
    -- a stable sort by percentile
    let sorted := st.percentiles.insertionSort fun a b => go.lt b.percentile a.percentile = false
    let target := go.div p (go.lit 100)
    match sorted.find? fun q => go.le (go.sub target (go.lit (1 / 10 ^ 9))) q.percentile with
    | none =>
      let highest := (sorted.getLast?.map fun q => go.format4g q.percentile).getD ""
      .error (raw ++ ": statistic " ++ Text.quote st.id ++ " carries no percentile at or above "
        ++ go.format4g target ++ "; the highest is " ++ highest)
    | some chosen => match chosen.value with
      | none => .error (raw ++ ": statistic " ++ Text.quote st.id
          ++ " carries no value at percentile " ++ go.format4g chosen.percentile)
      | some v => .ok { measured go id v with actualPercentile := some chosen.percentile }

/-- `resolveAggregate`. -/
def resolveAggregate (go : Go F) (raw : String) (st : Statistic F) (a : Aggregate) :
    Except String (Value F) :=
  let orMissing {R : Type} (num : R → F) (v : Option (Measured R)) : Except String (Value F) :=
    match v with
    | none => .error (raw ++ ": statistic " ++ Text.quote st.id ++ " carries no " ++ a.text)
    | some v => .ok (measured go num v)
  match a with
  | .count => .ok { num := go.ofInt st.count.toNat }
  | .mean => orMissing id st.mean
  | .pstdev => orMissing id st.pstdev
  | .min => orMissing (fun n : UInt64 => go.ofInt n.toNat) st.min
  | .max => orMissing (fun n : UInt64 => go.ofInt n.toNat) st.max

/--
How `findStatistic` and `findCounter` look an entry up by name: an exact match wins,
and otherwise the entries whose name ends in the dotted name.
-/
def lookup {α : Type} (nameOf : α → String) (name : String) (xs : List α) : List α :=
  match xs.find? fun x => nameOf x == name with
  | some x => [x]
  | none => xs.filter fun x => Text.hasSuffix (nameOf x) ("." ++ name)

def ambiguous (name : String) (names : List String) : String :=
  Text.quote name ++ " is ambiguous, matches: " ++ Text.join ", " names

/-- `findStatistic`. -/
def findStatistic (r : Result F) (name : String) : Except String (Statistic F) :=
  match lookup Statistic.id name r.statistics with
  | [st] => .ok st
  | [] => .error ("no statistic matches " ++ Text.quote name ++ "; available: "
      ++ Text.join ", " ((r.statistics.map Statistic.id).insertionSort (· ≤ ·)))
  | many => .error (ambiguous name (many.map Statistic.id))

/-- `findCounter`: a counter that never incremented is absent, and counts as zero. -/
def findCounter (r : Result F) (name : String) : Except String Counter :=
  match lookup Counter.name name r.counters with
  | [c] => .ok c
  | [] => .ok { name, value := 0 }
  | many => .error (ambiguous name (many.map Counter.name))

/-- `Resolve`. -/
def resolve (go : Go F) (r : Result F) (sel : Selector F) : Except String (Value F) :=
  match sel.kind with
  | .percentile stat p => do resolvePercentile go sel.raw (← findStatistic r stat) p
  | .aggregate stat a => do resolveAggregate go sel.raw (← findStatistic r stat) a
  | .counter name => do return { num := go.ofInt (← findCounter r name).value.toNat }
  | .rate name => do
    let c ← findCounter r name
    let secs := go.seconds r.took
    if go.le secs (go.lit 0) then
      throw (sel.raw ++ ": execution duration is zero, cannot compute a rate")
    return { num := go.div (go.ofInt c.value.toNat) secs }

/-- `GlobalResult`: the result named `global`, or the only one there is. -/
def globalResult (out : Output F) : Except String (Result F) :=
  match out.results.find? fun r => r.name == "global" with
  | some r => .ok r
  | none => match out.results with
    | [r] => .ok r
    | rs => .error ("output carries no \"global\" result (" ++ toString rs.length ++ " results)")

end Sortie.Metric
