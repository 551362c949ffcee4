import Sortie.Engine.BackendName
import Sortie.Lib.Occurrence
import Sortie.Plan.Validate

/-!
# The name of a backend

The engine sanitizes a name in one pass, and sortie segment by segment. Over ASCII text both come to
the same: a slash is one more character that is not kept, so a run of them and what is around them
becomes one underscore between two kept characters. None of these is in the placeholder that stands
for the name in a prefix, so expanding the placeholders leaves none behind.
-/

namespace Sortie.Proof

open Api Plan Engine

/-! ## The characters of a name -/

/-- Only lower-case letters, digits and underscores. -/
def Plain (s : String) : Prop :=
  ∀ c ∈ s.toList, ('a' ≤ c ∧ c ≤ 'z') ∨ ('0' ≤ c ∧ c ≤ '9') ∨ c = '_'

instance (s : String) : Decidable (Plain s) := List.decidableBAll _ _

variable {s name : String} {out cs : List Char}

theorem Plain.append {t : String} (hs : Plain s) (ht : Plain t) : Plain (s ++ t) := by
  intro c hc
  rw [String.toList_append, List.mem_append] at hc
  exact hc.elim (hs c) (ht c)

theorem plain_keepName {pending : Bool} (h : Plain (String.ofList out)) :
    Plain (String.ofList (keepName pending out cs)) := by
  induction cs generalizing pending out with
  | nil => exact h
  | cons c cs ih =>
    unfold keepName
    split
    · rename_i hc
      apply ih
      rw [String.ofList_append]
      refine Plain.append ?_ (by simpa [Plain] using hc)
      split
      · rw [String.ofList_append]
        exact h.append (by decide)
      · exact h
    · exact ih h

theorem plain_sanitizeBackendName (name : String) : Plain (sanitizeBackendName name) :=
  plain_keepName (by decide)

/-- The loop of `StatsLabel` is that of the engine, over other lower-case letters. -/
theorem sanitize_eq_keepName (pending : Bool) (acc cs : List Char) :
    Plan.sanitize pending acc cs = keepName pending acc (cs.map Text.toLowerRune) := by
  induction cs generalizing pending acc with
  | nil => rfl
  | cons c cs ih =>
    unfold Plan.sanitize
    rw [List.map_cons, keepName]
    simp only [ih]
    split
    · congr 1
      split
      · rw [List.append_assoc, List.singleton_append]
      · rfl
    · rfl

/-! ## One pass over all segments -/

/-- Two pieces of a name, with an underscore between them if both are there. -/
def glue (a b : List Char) : List Char :=
  if a = [] then b else if b = [] then a else a ++ '_' :: b

theorem keepName_ne_nil (h : out ≠ []) (pending : Bool) (cs : List Char) :
    keepName pending out cs ≠ [] := by
  induction cs generalizing pending out with
  | nil => exact h
  | cons c cs ih =>
    unfold keepName
    split
    · exact ih (List.append_ne_nil_of_right_ne_nil _ (List.cons_ne_nil _ _)) false
    · exact ih h true

theorem keepName_append {a b : List Char} (hb : b ≠ []) (pending : Bool) (cs : List Char) :
    keepName pending (a ++ b) cs = a ++ keepName pending b cs := by
  induction cs generalizing pending b with
  | nil => rfl
  | cons c cs ih =>
    have hempty : (a ++ b).isEmpty = b.isEmpty := by
      obtain ⟨d, b, rfl⟩ := List.exists_cons_of_ne_nil hb
      cases a <;> rfl
    unfold keepName
    rw [hempty]
    split
    · rw [← ih (List.append_ne_nil_of_right_ne_nil _ (List.cons_ne_nil _ _))]
      congr 1
      split <;> simp
    · exact ih hb true

/-- After a character that is not kept, the rest is a piece of its own. -/
theorem keepName_true (pending : Bool) (out cs : List Char) :
    keepName true out cs = glue out (keepName pending [] cs) := by
  induction cs generalizing pending with
  | nil =>
    unfold keepName glue
    split
    · assumption
    · rfl
  | cons c cs ih =>
    unfold keepName
    split
    · have hone : keepName false [c] cs ≠ [] := keepName_ne_nil (List.cons_ne_nil _ _) false cs
      cases out with
      | nil => simp [glue]
      | cons d out =>
        have happend := keepName_append (a := d :: out ++ ['_']) (List.cons_ne_nil c []) false cs
        simpa [glue, hone] using happend
    · exact ih true

/-- A slash ends a piece. -/
theorem sanitize_slash (pending : Bool) (acc xs ys : List Char) :
    Plan.sanitize pending acc (xs ++ '/' :: ys)
      = glue (Plan.sanitize pending acc xs) (Plan.sanitize false [] ys) := by
  induction xs generalizing pending acc with
  | nil =>
    rw [sanitize_eq_keepName, sanitize_eq_keepName, sanitize_eq_keepName, ← keepName_true]
    rfl
  | cons c xs ih =>
    rw [List.cons_append, Plan.sanitize, Plan.sanitize]
    split <;> exact ih ..

/-- The segments of a label, as `StatsLabel` reduces them. -/
def reduced (segments : List (List Char)) : List String :=
  segments.filterMap fun raw =>
    if (Plan.sanitize false [] raw).isEmpty then none
    else some (String.ofList (Plan.sanitize false [] raw))

theorem statsLabel_eq (label : String) : statsLabel label = reduced (label.toList.splitOn '/') := by
  unfold statsLabel reduced Text.split
  rw [List.filterMap_map]
  refine List.filterMap_congr fun raw _ => ?_
  simp only [Function.comp_apply, String.toList_ofList]

theorem join_ne_nil {rest : List String} (hs : s ≠ "") :
    (Text.join "_" (s :: rest)).toList ≠ [] := by
  cases rest with
  | nil => simpa [Text.join] using hs
  | cons t rest => simp [Text.join, hs]

/-- A segment that reduces to nothing is dropped, and the others are joined. -/
theorem join_reduced_cons (raw : List Char) (segments : List (List Char)) :
    (Text.join "_" (reduced (raw :: segments))).toList
      = glue (Plan.sanitize false [] raw) (Text.join "_" (reduced segments)).toList := by
  by_cases hraw : Plan.sanitize false [] raw = []
  · simp [reduced, glue, hraw]
  · have hcons : reduced (raw :: segments)
        = String.ofList (Plan.sanitize false [] raw) :: reduced segments := by
      simp [reduced, hraw]
    rw [hcons]
    cases hrest : reduced segments with
    | nil => simp [Text.join, glue, hraw]
    | cons t rest =>
      have hmem : t ∈ reduced segments := hrest ▸ List.mem_cons_self
      obtain ⟨raw', -, ht⟩ := List.mem_filterMap.mp hmem
      have hne : t ≠ "" := by
        split at ht
        · cases ht
        · rename_i hfull
          rw [← Option.some.inj ht]
          simpa using hfull
      simp [Text.join, glue, hraw, join_ne_nil hne]

/-- One pass over all segments comes to the reduced segments, joined. -/
theorem sanitize_intercalate (segments : List (List Char)) :
    Plan.sanitize false [] (['/'].intercalate segments)
      = (Text.join "_" (reduced segments)).toList := by
  induction segments with
  | nil => rfl
  | cons raw segments ih =>
    rw [join_reduced_cons, ← ih]
    cases segments with
    | nil => simp [List.intercalate, glue, Plan.sanitize]
    | cons next segments =>
      rw [← sanitize_slash]
      rfl

/-- Sortie's sanitizer is one pass too. -/
theorem join_statsLabel (s : String) :
    Text.join "_" (statsLabel s)
      = String.ofList (keepName false [] (s.toList.map Text.toLowerRune)) := by
  rw [statsLabel_eq, ← sanitize_eq_keepName, ← String.ofList_toList (s := Text.join _ _),
    ← sanitize_intercalate, List.intercalate_splitOn]

theorem plain_join_statsLabel (s : String) : Plain (Text.join "_" (statsLabel s)) := by
  rw [join_statsLabel]
  exact plain_keepName (by decide)

/-! ## The sanitizers agree -/

/-- A plain text is kept as it is. -/
theorem keepName_of_plain (h : Plain (String.ofList cs)) :
    keepName false out cs = out ++ cs := by
  induction cs generalizing out with
  | nil => rw [keepName, List.append_nil]
  | cons c cs ih =>
    rw [Plain, String.toList_ofList, List.forall_mem_cons] at h
    rw [keepName, if_pos h.1, ih (by rw [Plain, String.toList_ofList]; exact h.2)]
    simp

/-- Lower-case letters of ASCII are the same to both. -/
theorem asciiLower_eq (h : ∀ c ∈ s.toList, c.toNat < 128) :
    (Text.asciiLower s).toList = s.toList.map Text.toLowerRune := by
  unfold Text.asciiLower
  rw [String.toList_ofList]
  refine List.map_congr_left fun c hc => ?_
  have hlt := h c hc
  unfold Text.toLowerRune
  rw [if_neg (show ¬ c.toNat = 0x130 by omega), if_neg (show ¬ c.toNat = 0x212A by omega)]

theorem Plain.toNat (h : Plain s) : ∀ c ∈ s.toList,
    (97 ≤ c.toNat ∧ c.toNat ≤ 122) ∨ (48 ≤ c.toNat ∧ c.toNat ≤ 57) ∨ c.toNat = 95 := by
  intro c hc
  have hle : ∀ {a b : Char}, a ≤ b → a.toNat ≤ b.toNat := fun hab => UInt32.le_iff_toNat_le.mp hab
  rcases h c hc with ⟨ha, hz⟩ | ⟨h0, h9⟩ | rfl
  · exact .inl ⟨hle ha, hle hz⟩
  · exact .inr (.inl ⟨hle h0, hle h9⟩)
  · exact .inr (.inr rfl)

theorem sanitizeBackendName_of_plain (h : Plain s) : sanitizeBackendName s = s := by
  have hlower : Text.asciiLower s = s := by
    unfold Text.asciiLower
    conv_rhs => rw [← String.ofList_toList (s := s), ← List.map_id s.toList]
    refine congrArg String.ofList (List.map_congr_left fun c hc => if_neg ?_)
    rintro ⟨hA, hZ⟩
    have hA : 65 ≤ c.toNat := UInt32.le_iff_toNat_le.mp hA
    have hZ : c.toNat ≤ 90 := UInt32.le_iff_toNat_le.mp hZ
    have := h.toNat c hc
    omega
  unfold sanitizeBackendName
  rw [hlower, keepName_of_plain (by rw [String.ofList_toList]; exact h), List.nil_append,
    String.ofList_toList]

theorem sanitizeBackendName_eq (h : ∀ c ∈ s.toList, c.toNat < 128) :
    sanitizeBackendName s = Text.join "_" (statsLabel s) := by
  rw [join_statsLabel, ← asciiLower_eq h]
  rfl

/-- **The two sanitizers agree on ASCII**, and a name that went through one of them stays. -/
theorem sanitizers_agree (s : String) :
    ((∀ c ∈ s.toList, c.toNat < 128) → sanitizeBackendName s = Text.join "_" (statsLabel s))
      ∧ sanitizeBackendName (sanitizeBackendName s) = sanitizeBackendName s
      ∧ Text.join "_" (statsLabel (Text.join "_" (statsLabel s)))
        = Text.join "_" (statsLabel s) := by
  refine ⟨sanitizeBackendName_eq, sanitizeBackendName_of_plain (plain_sanitizeBackendName s), ?_⟩
  have hplain := plain_join_statsLabel s
  have hascii : ∀ c ∈ (Text.join "_" (statsLabel s)).toList, c.toNat < 128 := by
    intro c hc
    have := hplain.toNat c hc
    omega
  rw [← sanitizeBackendName_eq hascii, sanitizeBackendName_of_plain hplain]

/-- Slashes, runs of separators and an underscore of its own. -/
theorem sanitizers_agree_slashes :
    sanitizeBackendName "/Pool__A//-b_/" = "pool__a_b_"
      ∧ Text.join "_" (statsLabel "/Pool__A//-b_/") = "pool__a_b_" := by
  have h := (sanitizers_agree "/Pool__A//-b_/").1 (by simp)
  exact ⟨rfl, h.symm.trans rfl⟩

/-! ## The placeholder in a prefix -/

/-- The prefix of the sink that an adapter wraps, where it wraps one that has a prefix. -/
def wrappedPrefix (sink : StatsSink) : Option String :=
  match sink.typedConfig with
  | some (.envoyStatsSinkAdapter _ (some (.statsd inner))) => some inner.metricPrefix
  | some (.envoyStatsSinkAdapter _ (some (.dogStatsd _ metricPrefix))) => some metricPrefix
  | _ => none

/-- The sink with another prefix, and otherwise as it was. -/
def withWrappedPrefix (sink : StatsSink) (metricPrefix : String) : StatsSink :=
  let wrap name inner :=
    { sink with typedConfig := some (.envoyStatsSinkAdapter name (some inner)) }
  match sink.typedConfig with
  | some (.envoyStatsSinkAdapter name (some (.statsd inner))) =>
    wrap name (.statsd { inner with metricPrefix })
  | some (.envoyStatsSinkAdapter name (some (.dogStatsd address _))) =>
    wrap name (.dogStatsd address metricPrefix)
  | _ => sink

/-- The wrapped sink's prefix holds the placeholder. -/
def HoldsToken (sink : StatsSink) : Prop :=
  ∃ p, wrappedPrefix sink = some p ∧ backendNameToken.toList <:+: p.toList

/-- The sink with the placeholders of its prefix replaced by the name. -/
def Filled (name : String) (sink sink' : StatsSink) : Prop :=
  (wrappedPrefix sink = none ∧ sink' = sink)
    ∨ ∃ p p', wrappedPrefix sink = some p ∧ sink' = withWrappedPrefix sink p'
      ∧ Text.Replaced backendNameToken.toList name.toList p.toList p'.toList

theorem wrappedPrefix_eq_some {sink : StatsSink} {p : String} (h : wrappedPrefix sink = some p) :
    withWrappedPrefix sink p = sink
      ∧ (∀ p', wrappedPrefix (withWrappedPrefix sink p') = some p')
      ∧ ∀ name, expandSink name sink = (expandPrefix name p).map fun expanded =>
        withWrappedPrefix sink (expanded.getD p) := by
  obtain ⟨label, config⟩ := sink
  unfold wrappedPrefix at h
  split at h
  case h_3 => cases h
  all_goals
    cases h
    cases ‹config = _›
    refine ⟨rfl, fun _ => rfl, fun name => ?_⟩
    simp only [expandSink, expandIn]
    cases expandPrefix name _ <;> rfl

theorem expandSink_of_none {sink : StatsSink} (h : wrappedPrefix sink = none) :
    expandSink name sink = .ok sink := by
  obtain ⟨label, config⟩ := sink
  unfold expandSink
  split
  · rename_i kind inner hconfig
    cases hconfig
    cases inner with
    | statsd | dogStatsd => cases h
    | _ => rfl
  · rfl

theorem backendNameToken_ne_nil : backendNameToken.toList ≠ [] := by decide

/-- What becomes of one sink: an error without a name, or the sink with its prefix expanded. -/
theorem expandSink_cases (name : String) (sink : StatsSink) :
    (name = "" ∧ HoldsToken sink ∧ ∃ status, expandSink name sink = .error status)
      ∨ (¬ HoldsToken sink ∧ expandSink name sink = .ok sink ∧ Filled name sink sink)
      ∨ name ≠ "" ∧ ∃ sink', expandSink name sink = .ok sink' ∧ Filled name sink sink' := by
  cases hp : wrappedPrefix sink with
  | none =>
    exact .inr (.inl ⟨by simp [HoldsToken, hp], expandSink_of_none hp, .inl ⟨hp, rfl⟩⟩)
  | some p =>
    obtain ⟨hsame, -, hexpand⟩ := wrappedPrefix_eq_some hp
    have hholds : HoldsToken sink ↔ backendNameToken.toList <:+: p.toList := by
      simp [HoldsToken, hp]
    rw [hexpand, expandPrefix]
    split
    · rename_i hcut
      have hnot : ¬ backendNameToken.toList <:+: p.toList := by
        rw [← Text.cutList_eq_none_iff backendNameToken_ne_nil]
        simpa [Text.cut] using hcut
      exact .inr (.inl ⟨hholds.not.mpr hnot, congrArg _ hsame,
        .inr ⟨p, p, hp, hsame.symm, .done hnot⟩⟩)
    · rename_i hcut
      have hin : backendNameToken.toList <:+: p.toList := by
        by_contra hnot
        rw [← Text.cutList_eq_none_iff backendNameToken_ne_nil] at hnot
        exact hcut (by simp [Text.cut, hnot])
      split
      · exact .inl ⟨‹_›, hholds.mpr hin, _, rfl⟩
      · refine .inr (.inr ⟨‹_›, _, rfl, .inr ⟨p, _, hp, rfl, ?_⟩⟩)
        rw [Option.getD_some, Text.replaceAll, String.toList_ofList]
        exact Text.replaced_replaceList backendNameToken_ne_nil (Nat.le_refl _)

/-- The loop: it stops at the first placeholder when there is no name, with nothing changed. -/
theorem expandSinks_cases (name : String) (sinks : List StatsSink) :
    (name = "" ∧ (∃ sink ∈ sinks, HoldsToken sink)
        ∧ ∃ status, expandSinks name sinks = (sinks, .error status))
      ∨ (name = "" → ∀ sink ∈ sinks, ¬ HoldsToken sink)
        ∧ ∃ sinks', expandSinks name sinks = (sinks', .ok ())
          ∧ List.Forall₂ (Filled name) sinks sinks' := by
  induction sinks with
  | nil => exact .inr ⟨nofun, [], rfl, .nil⟩
  | cons sink sinks ih =>
    unfold expandSinks
    obtain ⟨rfl, hholds, status, h⟩ | ⟨hnot, h, hsink⟩ | ⟨hname, sink', h, hsink⟩ :=
      expandSink_cases name sink
    · exact .inl ⟨rfl, ⟨sink, List.mem_cons_self, hholds⟩, status, by rw [h]⟩
    · obtain ⟨rfl, ⟨held, hmem, hholds⟩, status, hrest⟩ | ⟨hnone, sinks', hrest, hall⟩ := ih
      · exact .inl ⟨rfl, ⟨held, List.mem_cons_of_mem _ hmem, hholds⟩, status, by rw [h, hrest]⟩
      · exact .inr ⟨fun hname => List.forall_mem_cons.mpr ⟨hnot, hnone hname⟩, sink :: sinks',
          by rw [h, hrest], .cons hsink hall⟩
    · obtain ⟨hempty, -⟩ | ⟨-, sinks', hrest, hall⟩ := ih
      · exact absurd hempty hname
      · exact .inr ⟨fun hempty => absurd hempty hname, sink' :: sinks', by rw [h, hrest],
          .cons hsink hall⟩

/-- A plain name shares no character with the placeholder, so none is left and none forms. -/
theorem Filled.not_holdsToken {sink sink' : StatsSink} (hplain : Plain name)
    (h : Filled name sink sink') (hname : HoldsToken sink → name ≠ "") : ¬ HoldsToken sink' := by
  rintro ⟨q, hq, hin⟩
  obtain ⟨hp, rfl⟩ | ⟨p, p', hp, rfl, hreplaced⟩ := h
  · rw [hp] at hq
    cases hq
  · rw [(wrappedPrefix_eq_some hp).2.1 p'] at hq
    cases hq
    refine hreplaced.not_isInfix backendNameToken_ne_nil (fun hold => ?_)
      (fun c hc htoken => ?_) hin
    · rw [Ne, String.toList_eq_nil_iff]
      exact hname ⟨p, hp, hold⟩
    · have hother : ∀ c ∈ backendNameToken.toList, ¬ Plain (String.ofList [c]) := by
        simp [backendNameToken, Plain]
      exact hother c htoken (by simpa [Plain] using hplain c hc)

/-! ## All or nothing -/

/-- What is returned is what is left in place. -/
theorem expandBackendName_eq (name : String) (options : CommandLineOptions) :
    expandBackendName name options
      = (expandInPlace name options).2.map fun _ => (expandInPlace name options).1 := by
  have hsinks : ∀ sinks, sinks.mapM (expandSink name)
      = (expandSinks name sinks).2.map fun _ => (expandSinks name sinks).1 := by
    intro sinks
    induction sinks with
    | nil => rfl
    | cons sink sinks ih =>
      rw [List.mapM_cons, ih, expandSinks]
      cases expandSink name sink with
      | error status => rfl
      | ok sink' => cases h : (expandSinks name sinks).2 <;> rfl
  rw [expandBackendName, hsinks]
  cases h : (expandSinks name options.statsSinks).2 <;> simp [h, expandInPlace] <;> rfl

/-- **Every placeholder is expanded, or nothing is changed.** -/
theorem expandInPlace_all (backend : String) (options : CommandLineOptions) :
    let name := sanitizeBackendName backend
    let (after, status) := expandInPlace name options
    expandBackendName name options = status.map (fun _ => after)
      ∧ (status ≠ .ok () ↔ name = "" ∧ ∃ sink ∈ options.statsSinks, HoldsToken sink)
      ∧ (status ≠ .ok () → after = options)
      ∧ (status = .ok () →
          (∀ sink ∈ after.statsSinks, ¬ HoldsToken sink)
            ∧ after = { options with statsSinks := after.statsSinks }
            ∧ List.Forall₂ (Filled name) options.statsSinks after.statsSinks) := by
  intro name
  refine ⟨expandBackendName_eq name options, ?_⟩
  have hplain : Plain name := plain_sanitizeBackendName backend
  obtain ⟨hname, hholds, status, h⟩ | ⟨hnone, sinks, h, hall⟩ :=
    expandSinks_cases name options.statsSinks <;> rw [h]
  · exact ⟨⟨fun _ => ⟨hname, hholds⟩, fun _ => nofun⟩, fun _ => rfl, nofun⟩
  · refine ⟨⟨fun hne => absurd rfl hne, ?_⟩, fun hne => absurd rfl hne, fun _ => ⟨?_, rfl, hall⟩⟩
    · rintro ⟨hname, sink, hmem, hholds⟩
      exact absurd hholds (hnone hname sink hmem)
    · intro sink' hmem'
      obtain ⟨i, hi', rfl⟩ := List.getElem_of_mem hmem'
      have hi : i < options.statsSinks.length := hall.length_eq ▸ hi'
      exact (hall.get hi hi').not_holdsToken hplain fun hholds hname =>
        hnone hname _ (List.getElem_mem hi) hholds

end Sortie.Proof
