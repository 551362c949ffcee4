import Sortie.Proof.Distributor
import Sortie.Proof.Runner

/-!
# What a pass says

A report passes on one path through `runExecution` only: the dispatch returned, the
stage's context was alive when its results were taken up, no backend is named as
failed, and the thresholds hold on the set. `runExecution_pass` reads that path off
once, and the rest of the file says what it means for the backends: a dispatch that
names nobody has an output from every address it went to.
-/

namespace Sortie.Run

open Proto Api Nh Plan Checks

variable {F : Type}
variable {ths : List (Threshold F)} {d : Dispatched F} {er : ExecutionReport F} {r : Runner}
  {e : Execution} {pool : Pool} {o : Observed F} {budget : Span}

/-! ## The set of a report -/

/-- A set holds the answers it was made from, each with its global result. -/
theorem newSet_ok {got : List (String × Output F)} {set : ResultSet F}
    (h : ResultSet.newSet (got.map Prod.fst) (got.map Prod.snd) = .ok set) :
    List.Forall₂ (fun p b => b.addr = p.1 ∧ b.output = p.2
      ∧ Metric.globalResult b.output = .ok b.global) got set.backends := by
  unfold ResultSet.newSet at h
  rw [if_neg (by simp), ← List.zip_of_prod rfl rfl] at h
  obtain ⟨backends, hmap, rfl⟩ := map_ok_iff.mp h
  refine (mapM_ok hmap).imp fun p b hb => ?_
  unfold ResultSet.backendOf at hb
  cases hg : Metric.globalResult p.2 with
  | error e =>
    rw [hg] at hb
    cases hb
  | ok global =>
    rw [hg] at hb
    cases hb
    exact ⟨rfl, rfl, hg⟩

/-- Its answers, taken off the set again. -/
theorem backends_eq {got : List (String × Output F)} {backends : List (ResultSet.Backend F)}
    (h : List.Forall₂ (fun p b => b.addr = p.1 ∧ b.output = p.2
      ∧ Metric.globalResult b.output = .ok b.global) got backends) :
    got = backends.map fun b => (b.addr, b.output) := by
  induction h with
  | nil => rfl
  | cons hb _ ih => rw [List.map_cons, hb.1, hb.2.1, ← ih]

/-- What a threshold demands of a set: of the pool's totals, or of every backend. -/
def Holds (go : Go F) (set : ResultSet F) (t : Threshold F) : Prop :=
  match ResultSet.scopeOf t with
  | .pool => (t.evaluate go set.totals).pass = true
  | .perBackend => ∀ b ∈ set.backends, (t.evaluate go b.global).pass = true

variable {go : Go F}

theorem judge_pass_iff {set : ResultSet F} {t : Threshold F} :
    (set.judge go t).pass = true ↔ Holds go set t := by
  unfold ResultSet.judge Holds
  cases ResultSet.scopeOf t with
  | pool => exact Iff.rfl
  | perBackend => simp

/-! ## The path to a pass -/

/-- Judging makes a pass only of a set on which every threshold holds, and with nobody failed. -/
theorem judged_pass (her : er.pass = false) (h : (judged go ths d er).pass = true) :
    d.failed = [] ∧ ∃ set,
      ResultSet.newSet ((present d.answers).map Prod.fst) ((present d.answers).map Prod.snd)
          = .ok set
      ∧ (∀ t ∈ ths, Holds go set t)
      ∧ judged go ths d er
          = { er with set := some set, outcomes := ths.map (set.judge go), pass := true } := by
  unfold judged at h ⊢
  by_cases hgot : (present d.answers).isEmpty = true
  · rw [if_pos hgot] at h
    exact nomatch her.symm.trans h
  · rw [if_neg hgot] at h ⊢
    cases hset : ResultSet.newSet ((present d.answers).map Prod.fst)
        ((present d.answers).map Prod.snd) with
    | error text =>
      rw [hset] at h
      exact nomatch her.symm.trans h
    | ok set =>
      rw [hset] at h
      obtain ⟨hall, hfailed⟩ := Bool.and_eq_true_iff.mp h
      refine ⟨List.isEmpty_iff.mp hfailed, set, rfl, fun t ht => ?_, ?_⟩
      · rw [← judge_pass_iff]
        exact List.all_eq_true.mp hall _ (List.mem_map_of_mem ht)
      · show { er with
          set := some set, outcomes := ths.map (set.judge go)
          pass := (set.evaluate go ths).2 && d.failed.isEmpty } = _
        rw [hall, hfailed]
        rfl

/-- Results taken up from a stage that has ended are not judged. -/
theorem takeUp_pass {taken : Taken} (her : er.pass = false)
    (h : (takeUp go ths d taken er).pass = true) :
    taken = .alive
      ∧ takeUp go ths d taken er = judged go ths d { er with backendErrors := d.failed } := by
  cases taken with
  | alive => exact ⟨rfl, rfl⟩
  | endedBetween cause => exact nomatch her.symm.trans h
  | ended cause => cases cause <;> exact nomatch her.symm.trans h

/-- A report says that there was no dispatch, or is what was taken up of one. -/
theorem runExecution_some (h : runExecution r go e pool ths o = some er) :
    (∃ err, dispatch r go e pool o = .error (.error err)
        ∧ er = { planned e pool with err := some err })
      ∨ ∃ d, dispatch r go e pool o = .ok d ∧ er = takeUp go ths d o.taken (planned e pool) := by
  unfold runExecution at h
  split at h
  · cases h
  · rename_i err hd
    exact .inl ⟨err, hd, (Option.some.inj h).symm⟩
  · rename_i d hd
    exact .inr ⟨d, hd, (Option.some.inj h).symm⟩

/-- **The one way to pass.** -/
theorem runExecution_pass (h : runExecution r go e pool ths o = some er)
    (hpass : er.pass = true) :
    ∃ d set, dispatch r go e pool o = .ok d ∧ o.taken = .alive ∧ d.failed = []
      ∧ ResultSet.newSet ((present d.answers).map Prod.fst) ((present d.answers).map Prod.snd)
          = .ok set
      ∧ (∀ t ∈ ths, Holds go set t)
      ∧ er = { (planned e pool : ExecutionReport F) with
          set := some set, outcomes := ths.map (set.judge go), pass := true } := by
  rcases runExecution_some h with ⟨err, -, rfl⟩ | ⟨d, hd, rfl⟩
  · -- a dispatch that failed leaves the report as it was planned
    exact absurd hpass (by simp [planned])
  · obtain ⟨halive, heq⟩ := takeUp_pass rfl hpass
    rw [heq] at hpass ⊢
    obtain ⟨hfailed, set, hset, hholds, her⟩ := judged_pass rfl hpass
    refine ⟨d, set, hd, halive, hfailed, hset, hholds, ?_⟩
    rw [her, hfailed]
    rfl

/-! ## A dispatch that names nobody -/

/-- How a backend of the set is the one at an address: a distributor may spell it its own way. -/
def At (pool : Pool) (addr name : String) : Prop :=
  name = addr ∨ pool.distributor ≠ "" ∧ canonicalAddress name = canonicalAddress addr

/-- The exchange brought this output back, and no error with it. -/
def Exchange.Returned (x : Exchange F) (out : Output F) : Prop :=
  ∃ brought, x = .executed brought none ∧ withResults brought = some out

/-- A goroutine that left no error left an output. -/
theorem Slot.leaves_returned {s : Slot F} (h : (s.leaves go e budget).1 = none) :
    ∃ out, s.exchange.Returned out ∧ (s.leaves go e budget).2 = some out := by
  obtain ⟨x, seen⟩ := s
  cases x with
  | unreachable err => exact absurd h (by simp [Slot.leaves])
  | executed brought err =>
    simp only [Slot.leaves] at h ⊢
    cases hout : withResults brought with
    | none =>
      rw [hout] at h
      cases h
    | some out =>
      rw [hout] at h
      exact ⟨out, ⟨brought, by rw [Option.map_eq_none_iff.mp h], hout⟩, rfl⟩

/-- What the outputs of a report came from, each with its name: the exchanges with all services, or
the responses of a distributor. None of them is an error or has one with it. -/
def CameBack (e : Execution) (pool : Pool) (o : Observed F) (got : List (String × Output F)) :
    Prop :=
  if pool.distributor ≠ "" then
    o.dial = none ∧ o.conversation.Delivered
      ∧ List.Forall₂ ServiceResponse.Returned o.conversation.received got
  else ∃ addrs opts, Compile.forPool e pool = .ok (addrs, opts)
    ∧ List.Forall₂ (fun a p => p.1 = a.1 ∧ (o.slots a.2).exchange.Returned p.2) addrs.zipIdx got

/-- Goroutines that left no error left their outputs, one by one. -/
theorem forall₂_present {slots : Nat → Slot F} {l : List (String × Nat)}
    (h : ∀ a ∈ l, ((slots a.2).leaves go e budget).1 = none) :
    List.Forall₂ (fun a p => p.1 = a.1 ∧ (slots a.2).exchange.Returned p.2) l
      (present (l.map fun a => (a.1, ((slots a.2).leaves go e budget).2))) := by
  induction l with
  | nil => exact .nil
  | cons a l ih =>
    obtain ⟨out, hreturned, hout⟩ := Slot.leaves_returned (h a List.mem_cons_self)
    unfold present
    rw [List.map_cons, List.filterMap_cons_some (b := (a.1, out)) (by rw [hout]; rfl)]
    exact .cons ⟨rfl, hreturned⟩ (ih fun b hb => h b (List.mem_cons_of_mem _ hb))

/-- Nothing is overdue: no result named `global` reports too long a run. -/
theorem overdue_eq_nil {bound : Span} {outputs : List (String × Output F)}
    (h : overdue go e bound outputs [] = []) :
    ∀ p ∈ outputs, ∀ res ∈ p.2.results, res.name = "global" → res.took ≤ bound := by
  intro p hp res hres hname
  have hkept : p ∈ outputs.filter fun q => !([] : List BackendError).any fun f => f.addr == q.1 :=
    List.mem_filter.mpr ⟨hp, rfl⟩
  have hnone := List.map_eq_nil_iff.mp (List.flatMap_eq_nil_iff.mp h p hkept)
  have hnot := List.filter_eq_nil_iff.mp hnone res hres
  rw [Span.le_iff]
  by_contra hlt
  refine hnot ?_
  rw [hname, Bool.and_eq_true]
  exact ⟨rfl, decide_eq_true (Span.lt_iff.mpr (by omega))⟩

/-- A distributor's options are for its targets. -/
theorem forPool_targets (hpool : pool.distributor ≠ "") {addrs : List String}
    {opts : List CommandLineOptions} (h : Compile.forPool e pool = .ok (addrs, opts)) :
    addrs = pool.targets := by
  unfold Compile.forPool at h
  rw [if_pos hpool] at h
  obtain ⟨share, -, h⟩ := bind_ok_iff.mp h
  obtain ⟨all, -, h⟩ := bind_ok_iff.mp h
  exact (Prod.mk.inj (Except.ok.inj h)).1.symm

/-- A dispatch that succeeds went through a distributor, or to the services themselves. -/
theorem dispatch_ok (h : dispatch r go e pool o = .ok d) :
    ∃ addrs opts, Compile.forPool e pool = .ok (addrs, opts)
      ∧ ((pool.distributor ≠ "" ∧ o.dial = none
          ∧ ∃ ds, distributePartial pool.targets o.conversation = .ok ds
            ∧ d = dispatchTargets go e (r.backendDeadline e) (r.budget e o.now) ds o.seen)
        ∨ (¬ pool.distributor ≠ "" ∧ d = dispatchServices go e (r.backendDeadline e)
            (r.budget e o.now) addrs o.slots)) := by
  unfold dispatch at h
  split at h
  · cases h
  · cases h
  · rename_i addrs opts hpool
    refine ⟨addrs, opts, hpool, ?_⟩
    split at h
    · rename_i hdist
      split at h
      · cases h
      · rename_i hdial
        split at h
        · cases h
        · rename_i ds hds
          exact .inl ⟨hdist, hdial, ds, hds, (Except.ok.inj h).symm⟩
    · rename_i hdist
      exact .inr ⟨hdist, (Except.ok.inj h).symm⟩

/-- **A dispatch that names nobody** hands on what came back, from every address it went to and in
time. -/
theorem dispatch_clean (h : dispatch r go e pool o = .ok d) (hfailed : d.failed = []) :
    CameBack e pool o (present d.answers)
      ∧ (∀ p ∈ present d.answers, ∀ res ∈ p.2.results, res.name = "global" →
          res.took ≤ r.backendDeadline e)
      ∧ ∃ addrs opts, Compile.forPool e pool = .ok (addrs, opts)
        ∧ ∀ addr ∈ addrs, ∃ p ∈ present d.answers, At pool addr p.1 := by
  obtain ⟨addrs, opts, hpool, hways⟩ := dispatch_ok h
  unfold CameBack
  rcases hways with ⟨hdist, hdial, ds, hds, rfl⟩ | ⟨hdist, rfl⟩
  · obtain ⟨hbad, hdue⟩ := List.append_eq_nil_iff.mp hfailed
    have hnone : ds.failed = [] := by
      rw [List.map_eq_nil_iff] at hbad
      exact List.zipIdx_eq_nil_iff.mp hbad
    have hpresent : present (dispatchTargets go e (r.backendDeadline e) (r.budget e o.now) ds
        o.seen).answers = ds.outputs := by
      simp [present, dispatchTargets, List.filterMap_map]
    rw [hbad] at hdue
    rw [hpresent, if_pos hdist]
    refine ⟨⟨hdial, distributePartial_returned hds hnone⟩, overdue_eq_nil hdue, addrs, opts, hpool,
      fun addr haddr => ?_⟩
    rw [forPool_targets hdist hpool] at haddr
    obtain ⟨p, hp, hcanon⟩ := distributePartial_complete hds hnone addr haddr
    exact ⟨p, hp, .inr ⟨hdist, hcanon⟩⟩
  · obtain ⟨hleft, hdue⟩ := List.append_eq_nil_iff.mp hfailed
    have hanswers : (dispatchServices go e (r.backendDeadline e) (r.budget e o.now) addrs
        o.slots).answers = addrs.zipIdx.map fun a =>
          (a.1, ((o.slots a.2).leaves go e (r.budget e o.now)).2) := List.map_map
    have hall := forall₂_present (fun a ha => Option.map_eq_none_iff.mp
      (List.filterMap_eq_nil_iff.mp hleft (a.1, (o.slots a.2).leaves go e (r.budget e o.now))
        (List.mem_map.mpr ⟨a, ha, rfl⟩)))
    rw [hleft] at hdue
    rw [if_neg hdist]
    rw [← hanswers] at hall
    refine ⟨⟨addrs, opts, hpool, hall⟩, overdue_eq_nil hdue, addrs, opts, hpool,
      fun addr haddr => ?_⟩
    obtain ⟨i, hi⟩ := List.mem_iff_getElem?.mp haddr
    have hmem : (addr, i) ∈ addrs.zipIdx := List.mem_zipIdx_iff_getElem?.mpr hi
    obtain ⟨p, hp, hname, -⟩ := exists_right hall hmem
    exact ⟨p, hp, .inl hname⟩

/-! ## The verdict -/

/-- What a report that passes stands for. -/
structure SoundPass (r : Runner) (go : Go F) (e : Execution) (pool : Pool)
    (ths : List (Threshold F)) (o : Observed F) (er : ExecutionReport F) : Prop where
  noErr : er.err = none
  noBackendErrors : er.backendErrors = []
  /-- the stage's context had not ended when the results were taken up -/
  alive : o.taken = .alive
  judged : ∃ set, er.set = some set
    -- the set is made of all that came back, none of it with an error
    ∧ CameBack e pool o (set.backends.map fun b => (b.addr, b.output))
    -- nor overdue
    ∧ (∀ b ∈ set.backends, ∀ res ∈ b.output.results, res.name = "global" →
        res.took ≤ r.backendDeadline e)
    -- every address the execution was dispatched to has an output in the set
    ∧ (∃ addrs opts, Compile.forPool e pool = .ok (addrs, opts)
        ∧ ∀ addr ∈ addrs, ∃ b ∈ set.backends, At pool addr b.addr)
    ∧ er.outcomes = ths.map (set.judge go)
    ∧ (∀ outcome ∈ er.outcomes, outcome.pass = true) ∧ ∀ t ∈ ths, Holds go set t

/--
**A passing verdict is sound, and a plan passes exactly when all its executions do.**

The first part is for every execution, pool, list of thresholds and observation; the
second for every plan, every answer of the resolver and every course of the run.
-/
theorem verdict_sound (r : Runner) (go : Go F) :
    (∀ e pool ths (o : Observed F) er, runExecution r go e pool ths o = some er →
        er.pass = true → SoundPass r go e pool ths o er)
    ∧ ∀ lookup parent turns ret rep, r.run go lookup parent turns = some ret →
        ret.report = some rep → (rep.pass = true ↔ ∀ er ∈ rep.executions, er.pass = true) := by
  constructor
  · intro e pool ths o er h hpass
    obtain ⟨d, set, hd, halive, hfailed, hset, hholds, rfl⟩ := runExecution_pass h hpass
    obtain ⟨hback, hintime, addrs, opts, hpool, hcomplete⟩ := dispatch_clean hd hfailed
    have hgot := newSet_ok hset
    refine ⟨rfl, rfl, halive, set, rfl, backends_eq hgot ▸ hback, fun b hb => ?_,
      ⟨addrs, opts, hpool, fun addr haddr => ?_⟩, rfl, ?_, hholds⟩
    · obtain ⟨p, hp, -, hout, -⟩ := exists_left hgot hb
      exact hout ▸ hintime p hp
    · obtain ⟨p, hp, hat⟩ := hcomplete addr haddr
      obtain ⟨b, hb, hbaddr, -⟩ := exists_right hgot hp
      exact ⟨b, hb, hbaddr ▸ hat⟩
    · intro outcome houtcome
      obtain ⟨t, ht, rfl⟩ := List.mem_map.mp houtcome
      exact judge_pass_iff.mpr (hholds t ht)
  · intro lookup parent turns ret rep h hrep
    refine Runner.run_invariant
      (P := fun rep => rep.pass = true ↔ ∀ er ∈ rep.executions, er.pass = true)
      (fun q reports hq => ?_) (by simp) h hrep
    show (q.report.pass && reports.all ExecutionReport.pass) = true ↔ _
    rw [Bool.and_eq_true, hq, List.all_eq_true, ← List.forall_mem_append]
    rfl

/-- An execution of ten seconds, on its own. -/
def tenSeconds : Execution where
  scenario := { name := "steady" }
  label := "steady"
  rate := 1
  perBackend := false
  duration := Span.ofSeconds 10
  options := {}

def oneService : Pool := { name := "main", services := ["engine:8443"] }

/-- Every service answers with the same output. -/
def answering (out : Output Unit) : Observed Unit where
  slots := fun _ => { exchange := .executed (some out) none }

/-- One scenario of ten seconds on one service, and the course its only group takes. -/
def steadyPlan : Plan where
  pools := [oneService]
  scenarios := [{ name := "steady", pool := "main"
                  executor := some { type := constantRate, rate := 1 } }]

def steadyTurn (out : Output Unit) : Turn Unit where
  events := [.member 0 (.begin 0), .member 0 (.exchange 0 (.executed (some out) none) false),
    .member 0 .join, .member 0 .readCause, .member 0 .readErr]

/-- A library whose numbers are whole, and in which no text is one. -/
def counting : Go Int where
  parseFloat := fun _ => none
  isNaN := fun _ => false
  isInf := fun _ => false
  ofInt := id
  lit := fun q => q.floor
  lt := fun a b => decide (a < b)
  le := fun a b => decide (a ≤ b)
  eq := fun a b => decide (a = b)
  sub := fun a b => a - b
  div := fun a b => a / b
  seconds := fun s => s.ns / second
  formatV := toString
  format4g := toString
  formatSpan := Go.bare.formatSpan
  parseDuration := Go.bare.parseDuration
  parseIP := Go.bare.parseIP
  readFile := Go.bare.readFile

def twoPerSecond : Execution := { tenSeconds with rate := 2 }

def twoServices : Pool := { name := "main", services := ["engine:8443", "other:8443"] }

/-- Ten requests that were answered. -/
def tenAnswered : Result Int := { name := "global", counters := [⟨"benchmark.http_2xx", 10⟩] }

/-- So many from each service. -/
def tenEach : Observed Int where
  slots := fun _ => { exchange := .executed (some { results := [tenAnswered] }) none }

/-- They are to be twenty in all. -/
def twentyInAll : Threshold Int where
  raw := "counter.benchmark.http_2xx == 20"
  selector := { raw := "counter.benchmark.http_2xx", kind := .counter "benchmark.http_2xx" }
  op := .eq
  value := 20
  isDuration := false
  valueText := "20"

/-- Two services whose requests add up to what the threshold demands; and a plan for one. -/
theorem verdict_twoServices :
    (∃ er, runExecution { plan := {} } counting twoPerSecond twoServices [twentyInAll] tenEach
          = some er
        ∧ SoundPass { plan := {} } counting twoPerSecond twoServices [twentyInAll] tenEach er)
    ∧ ∃ ret rep, Runner.run { plan := steadyPlan } Go.bare (fun _ => .ok []) none
          [steadyTurn { results := [{ name := "global" }] }] = some ret
        ∧ ret.report = some rep ∧ rep.executions.length = 1
          ∧ ∀ er ∈ rep.executions, er.pass = true := by
  constructor
  · obtain ⟨er, her, hpass⟩ : ∃ er, runExecution { plan := {} } counting twoPerSecond twoServices
        [twentyInAll] tenEach = some er ∧ er.pass = true := ⟨_, rfl, by decide +kernel⟩
    exact ⟨er, her, (verdict_sound _ _).1 _ _ _ _ er her hpass⟩
  · obtain ⟨ret, rep, hret, hrep, hlen, hpass⟩ : ∃ ret rep,
        Runner.run { plan := steadyPlan } Go.bare (fun _ => .ok []) none
          [steadyTurn { results := [{ name := "global" }] }] = some ret
        ∧ ret.report = some rep ∧ rep.executions.length = 1 ∧ rep.pass = true :=
      ⟨_, _, rfl, rfl, rfl, rfl⟩
    exact ⟨ret, rep, hret, hrep, hlen, ((verdict_sound _ _).2 _ _ _ ret rep hret hrep).mp hpass⟩

end Sortie.Run
