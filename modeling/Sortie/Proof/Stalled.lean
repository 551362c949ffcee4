import Sortie.Proof.Verdict

/-!
# Stalled backends

`overdue` fails a backend whose result named `global` reports a run longer than the
deadline. The thresholds are judged on `GlobalResult`, which is the result named
`global` when there is one and otherwise the only result of the output, whatever its
name. An output with one result of another name is judged and never checked, and
that is the one way for a stalled backend to pass.
-/

namespace Sortie.Run

open Proto Api Nh Plan Checks

variable {F : Type}

/-- The output an exchange brought back, if there was something in it. -/
def Exchange.returned : Exchange F → Option (Output F)
  | .unreachable _ => none
  | .executed out _ => withResults out

/-- The outputs the backends of an execution returned, with something in them. -/
def returnedOutputs (e : Execution) (pool : Pool) (o : Observed F) : List (Output F) :=
  if pool.distributor ≠ "" then
    o.conversation.received.filterMap fun sr => withResults sr.executionResponse.output
  else match Compile.forPool e pool with
    | .ok (addrs, _) => (List.range addrs.length).filterMap fun i => (o.slots i).exchange.returned
    | .error _ => []

/-- The output is judged on a result of another name, which reports too long a run. -/
def UnnamedStall (bound : Span) (out : Output F) : Prop :=
  ∃ res, out.results = [res] ∧ res.name ≠ "global" ∧ bound < res.took

/-! ## What is checked and what is judged -/

/-- The judged result is one named `global`, or the only one there is. -/
theorem globalResult_cases {out : Output F} {g : Result F} (h : Metric.globalResult out = .ok g) :
    (g ∈ out.results ∧ g.name = "global") ∨ (out.results = [g] ∧ g.name ≠ "global") := by
  unfold Metric.globalResult at h
  split at h
  · rename_i res hfind
    cases h
    have hname := List.find?_some hfind
    exact Or.inl ⟨List.mem_of_find?_eq_some hfind, beq_iff_eq.mp hname⟩
  · rename_i hfind
    split at h
    · rename_i res hres
      obtain rfl := Except.ok.inj h
      have hne := List.find?_eq_none.mp hfind res (by rw [hres]; exact List.mem_singleton.mpr rfl)
      exact Or.inr ⟨hres, fun hname => hne (beq_iff_eq.mpr hname)⟩
    · cases h

/-- Judged in time, when every result named `global` is: unless a stall has another name. -/
theorem took_le_iff {bound : Span} {out : Output F} {g : Result F}
    (hglobal : Metric.globalResult out = .ok g)
    (hchecked : ∀ res ∈ out.results, res.name = "global" → res.took ≤ bound) :
    g.took ≤ bound ↔ ¬UnnamedStall bound out := by
  rcases globalResult_cases hglobal with ⟨hmem, hname⟩ | ⟨hsole, hname⟩
  · refine ⟨fun _ => ?_, fun _ => hchecked g hmem hname⟩
    rintro ⟨res, hres, hne, -⟩
    rw [hres] at hmem
    obtain rfl := List.mem_singleton.mp hmem
    exact hne hname
  · constructor
    · rintro hle ⟨res, hres, -, hlt⟩
      rw [hsole] at hres
      obtain rfl := (List.cons.inj hres).1
      rw [Span.le_iff] at hle
      rw [Span.lt_iff] at hlt
      omega
    · intro hnot
      rw [Span.le_iff]
      by_contra hlt
      exact hnot ⟨g, hsole, hname, Span.lt_iff.mpr (by omega)⟩

/-! ## What was returned and what is in the set -/

theorem filterMap_of_forall₂ {α β γ : Type} {f : α → Option γ} {g : β → γ} {l : List α}
    {l' : List β} (h : List.Forall₂ (fun a b => f a = some (g b)) l l') :
    l.filterMap f = l'.map g := by
  induction h with
  | nil => rfl
  | cons hab _ ih => rw [List.filterMap_cons_some hab, ih, List.map_cons]

/-- Where no error came back, the outputs that were returned are all there. -/
theorem returnedOutputs_eq {e : Execution} {pool : Pool} {o : Observed F}
    {got : List (String × Output F)} (h : CameBack e pool o got) :
    returnedOutputs e pool o = got.map Prod.snd := by
  unfold CameBack at h
  unfold returnedOutputs
  split
  · rename_i hdist
    rw [if_pos hdist] at h
    exact filterMap_of_forall₂ (h.2.2.imp fun _ _ hret => hret.2.2)
  · rename_i hdist
    rw [if_neg hdist] at h
    obtain ⟨addrs, opts, hpool, hall⟩ := h
    rw [hpool]
    -- the numbers of the services are those that go with their addresses
    have hrange : List.range addrs.length = addrs.zipIdx.map Prod.snd := by
      rw [List.zipIdx_map_snd, List.range_eq_range']
    dsimp only
    rw [hrange, List.filterMap_map]
    refine filterMap_of_forall₂ (hall.imp ?_)
    rintro ⟨addr, i⟩ p ⟨-, out, hexchange, hout⟩
    rw [Function.comp_apply, hexchange]
    exact hout

/-! ## The verdict -/

/--
**A passing report was judged in time, unless a stall has another name.**

For every run of an execution that passes: the results its thresholds were judged on
all report a duration within the deadline exactly when no backend returned an output
whose only result is not named `global` and reports a longer one.
-/
theorem judged_in_time_iff {r : Runner} {go : Go F} {e : Execution} {pool : Pool}
    {ths : List (Threshold F)} {o : Observed F} {er : ExecutionReport F} {set : ResultSet F}
    (h : runExecution r go e pool ths o = some er) (hpass : er.pass = true)
    (hset : er.set = some set) :
    (∀ b ∈ set.backends, ∀ g, Metric.globalResult b.output = .ok g →
        g.took ≤ r.backendDeadline e)
      ↔ ∀ out ∈ returnedOutputs e pool o, ¬UnnamedStall (r.backendDeadline e) out := by
  obtain ⟨d, set', hd, -, hfailed, hnew, -, rfl⟩ := runExecution_pass h hpass
  cases hset
  obtain ⟨hback, hchecked, -⟩ := dispatch_clean hd hfailed
  rw [returnedOutputs_eq hback]
  have hboth := newSet_ok hnew
  constructor
  · intro hall out hout
    obtain ⟨p, hp, rfl⟩ := List.mem_map.mp hout
    obtain ⟨b, hb, -, hbout, hglobal⟩ := exists_right hboth hp
    rw [← hbout]
    exact (took_le_iff hglobal (hbout ▸ hchecked p hp)).mp (hall b hb b.global hglobal)
  · intro hall b hb g hg
    obtain ⟨p, hp, -, hbout, -⟩ := exists_left hboth hb
    refine (took_le_iff hg (hbout ▸ hchecked p hp)).mpr (hall _ ?_)
    exact List.mem_map.mpr ⟨p, hp, hbout.symm⟩

/-- An output with one result, by its name and the seconds it reports. -/
def soleResult (name : String) (duration : Duration) : Output Unit where
  results := [{ name, executionDuration := some duration }]

/-- Ten seconds, as planned, under the name that is checked. -/
theorem judged_in_time_global : ∃ er set,
    runExecution { plan := {} } Go.bare tenSeconds oneService []
        (answering (soleResult "global" (.new (Span.ofSeconds 10)))) = some er
      ∧ er.set = some set ∧ ∀ b ∈ set.backends, ∀ g, Metric.globalResult b.output = .ok g →
        g.took ≤ Runner.backendDeadline { plan := {} } tenSeconds := by
  obtain ⟨er, set, her, hpass, hset⟩ : ∃ er set,
      runExecution { plan := {} } Go.bare tenSeconds oneService []
        (answering (soleResult "global" (.new (Span.ofSeconds 10)))) = some er
      ∧ er.pass = true ∧ er.set = some set := ⟨_, _, rfl, rfl, rfl⟩
  refine ⟨er, set, her, hset, (judged_in_time_iff her hpass hset).mpr ?_⟩
  rintro out hout ⟨res, hres, hne, -⟩
  obtain rfl : out = soleResult "global" (.new (Span.ofSeconds 10)) := List.mem_singleton.mp hout
  obtain rfl := (List.cons.inj hres).1
  exact hne rfl

/-- An hour, for ten seconds planned, under the name of a worker: it passes. -/
theorem not_judged_in_time_worker : ∃ er set b g,
    runExecution { plan := {} } Go.bare tenSeconds oneService []
        (answering (soleResult "worker_0" (.new (Span.ofSeconds 3600)))) = some er
      ∧ er.pass = true ∧ er.set = some set ∧ b ∈ set.backends
      ∧ Metric.globalResult b.output = .ok g
      ∧ ¬g.took ≤ Runner.backendDeadline { plan := {} } tenSeconds :=
  ⟨_, _, _, _, rfl, rfl, rfl, List.mem_singleton.mpr rfl, rfl, by decide⟩

end Sortie.Run
