import Sortie.Proof.BackendSegments

/-!
# Rebuilding the sinks of an execution

`restatAll` gives the sinks of an execution's stats block a prefix that names the
backend. Whether that works does not depend on the backend, and nothing but the prefixes
of these sinks changes.
-/

namespace Sortie.Proof

open Proto Api Plan Compile Checks

variable {st : Stats} {stats : Option Stats} {label : String} {o o' : CommandLineOptions}

/-- The sink, with another prefix if it has one. -/
def Reprefixed (sink sink' : StatsSink) : Prop :=
  sink' = sink ∨ ∃ p, sink' = withWrappedPrefix sink p

/-- The backend changes neither whether the sinks compile nor what they are but for a prefix. -/
theorem statsSinks_backend {b : String} {sinks : List StatsSink} (b' : String)
    (h : statsSinks st label b = .ok sinks) :
    ∃ sinks', statsSinks st label b' = .ok sinks' ∧ List.Forall₂ Reprefixed sinks sinks' := by
  unfold statsSinks at h ⊢
  obtain ⟨statsd, hstatsd, h⟩ := bind_ok_iff.mp h
  obtain ⟨through, hthrough, h⟩ := bind_ok_iff.mp h
  cases h
  have hsame : List.Forall₂ Reprefixed through through := List.forall₂_same.mpr fun _ _ => .inl rfl
  unfold statsdSinks at hstatsd ⊢
  cases hsd : st.statsd with
  | none =>
    rw [hsd] at hstatsd
    cases hstatsd
    exact ⟨through, by rw [hthrough]; rfl, hsame⟩
  | some sd =>
    rw [hsd] at hstatsd
    obtain ⟨address, haddress, h⟩ := bind_ok_iff.mp hstatsd
    cases h
    simp only [haddress, hthrough]
    exact ⟨_, rfl, .cons (.inr ⟨_, rfl⟩) hsame⟩

theorem restat_ok_iff (backend : String) :
    (∃ o', restat st label backend o = .ok o') ↔
      ∃ sinks, statsSinks st label "" = .ok sinks ∧ sinks.length ≤ o.statsSinks.length := by
  constructor
  · rintro ⟨o', h⟩
    obtain ⟨sinks, hsinks, h⟩ := bind_ok_iff.mp h
    obtain ⟨sinks', hsinks', hlen⟩ := statsSinks_backend "" (mapError_ok_iff.mp hsinks)
    refine ⟨sinks', hsinks', hlen.length_eq ▸ ?_⟩
    by_contra hlt
    rw [if_pos (by omega)] at h
    exact absurd h (by simp [throw, throwThe, MonadExceptOf.throw, bind, Except.bind])
  · rintro ⟨sinks, hsinks, hle⟩
    obtain ⟨sinks', hsinks', hlen⟩ := statsSinks_backend backend hsinks
    unfold restat
    rw [hsinks']
    simp only [Except.mapError, bind, Except.bind]
    rw [if_neg (by rw [← hlen.length_eq]; omega)]
    exact ⟨_, rfl⟩

/-- The options differ in their sinks at most. -/
def SameButSinks (o o' : CommandLineOptions) : Prop := o' = { o with statsSinks := o'.statsSinks }

/-- What rebuilding the sinks leaves: those before the block's own as they were. -/
theorem restat_ok {backend : String}
    (h : restat st label backend o = .ok o') : ∃ sinks, statsSinks st label backend = .ok sinks
      ∧ o' = { o with statsSinks :=
        o.statsSinks.take (o.statsSinks.length - sinks.length) ++ sinks } := by
  obtain ⟨sinks, hsinks, h⟩ := bind_ok_iff.mp h
  split at h
  · exact absurd h (by simp [throw, throwThe, MonadExceptOf.throw, bind, Except.bind])
  · exact ⟨sinks, mapError_ok_iff.mp hsinks, (Except.ok.inj h).symm⟩

/-- The options as they were, or with the sinks rebuilt. -/
def Restated (stats : Option Stats) (label : String) (o o' : CommandLineOptions) : Prop :=
  o' = o ∨ ∃ st backend, stats = some st ∧ restat st label backend o = .ok o'

theorem restatEach_ok : ∀ {components : List String}
    {opts opts' : List CommandLineOptions}, restatEach st label components opts = .ok opts' →
    List.Forall₂ (Restated (some st) label) opts opts' := by
  intro components
  induction components with
  | nil =>
    intro opts opts' h
    cases h
    exact List.forall₂_same.mpr fun _ _ => .inl rfl
  | cons c cs ih =>
    intro opts opts' h
    cases opts with
    | nil =>
      cases h
      exact List.Forall₂.nil
    | cons o opts =>
      obtain ⟨o', ho, h⟩ := bind_ok_iff.mp h
      obtain ⟨rest, hrest, h⟩ := bind_ok_iff.mp h
      cases h
      exact List.Forall₂.cons (.inr ⟨st, c, rfl, ho⟩) (ih hrest)

theorem restatAll_ok {addrs : List String}
    {opts opts' : List CommandLineOptions} (h : restatAll stats label addrs opts = .ok opts') :
    List.Forall₂ (Restated stats label) opts opts' := by
  unfold restatAll at h
  split at h
  · cases h
    exact List.forall₂_same.mpr fun _ _ => .inl rfl
  · exact restatEach_ok h

theorem Restated.sameButSinks (h : Restated stats label o o') : SameButSinks o o' := by
  obtain rfl | ⟨st, backend, -, ho⟩ := h
  · rfl
  · obtain ⟨sinks, -, rfl⟩ := restat_ok ho
    rfl

/-- **Rebuilding the sinks changes the sinks alone.** -/
theorem restatAll_sinks {addrs : List String}
    {opts opts' : List CommandLineOptions} (h : restatAll stats label addrs opts = .ok opts') :
    List.Forall₂ SameButSinks opts opts' := (restatAll_ok h).imp fun _ _ => Restated.sameButSinks

end Sortie.Proof
