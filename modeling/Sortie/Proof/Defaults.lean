import Sortie.Proof.Accepted

/-!
# Checking before the defaults are folded in, and after

The mode checks run on the plan as written. Each of them looks a field up on the
scenario and then on the defaults, while `applyDefaults` copies the defaults into the
scenario; the two agree if every check sees the same values either way. `SameView`
lists the values the checks read, and a scenario seen through its defaults gives the
same list as the merged scenario seen through none.

There is one field for which that takes a condition. A weighted target's `url` is the
target of its variant, and the checks would read the default target in place of an
empty one, which `applyDefaults` does not copy there. The schema refuses an empty url.
-/

namespace Sortie.Proof

open Proto Api Plan Checks

/-- What the mode checks read of a scenario and the defaults behind it, twice the same. -/
structure SameView (d v d' v' : Scenario) : Prop where
  target : effective v.target d.target = effective v'.target d'.target
  method : effective v.method d.method = effective v'.method d'.method
  protocol : effective v.protocol d.protocol = effective v'.protocol d'.protocol
  concurrency : effective v.concurrency d.concurrency = effective v'.concurrency d'.concurrency
  grpc : v.grpc.or d.grpc = v'.grpc.or d'.grpc
  websocket : v.websocket.or d.websocket = v'.websocket.or d'.websocket
  tls : v.tls.or d.tls = v'.tls.or d'.tls
  tcp : v.tcp.or d.tcp = v'.tcp.or d'.tcp
  udp : v.udp.or d.udp = v'.udp.or d'.udp
  connections : v.connections.or d.connections = v'.connections.or d'.connections
  headers : (v.headers.isEmpty && d.headers.isEmpty) = (v'.headers.isEmpty && d'.headers.isEmpty)
  /-- whether there is a body -/
  body : hasBody d v = hasBody d' v'
  /-- whether the scenario itself gives both forms of one -/
  forms : (v.body == "" || v.bodyFile == "") = (v'.body == "" || v'.bodyFile == "")

/-- Neither of two has it exactly when the one that counts does not. -/
theorem isNone_and {α : Type} (a b : Option α) :
    (a.isNone && b.isNone) = (a.or b).isNone := by
  cases a <;> rfl

section Checks

variable {d v d' v' : Scenario} (h : SameView d v d' v')
include h

theorem validateGrpc_congr : validateGrpc d v = validateGrpc d' v' := by
  unfold validateGrpc
  rw [h.forms, h.grpc, h.protocol, h.method, h.concurrency]

theorem validateWebSocket_congr : validateWebSocket d v = validateWebSocket d' v' := by
  unfold validateWebSocket
  rw [isNone_and, isNone_and, h.websocket, h.grpc, h.protocol, h.method, h.concurrency]

theorem validateTls_congr : validateTls d v = validateTls d' v' := by
  unfold validateTls
  rw [h.tls, h.target]

theorem validateRaw_congr (what theBodyIs message : String) :
    validateRaw d v what theBodyIs message = validateRaw d' v' what theBodyIs message := by
  unfold validateRaw
  rw [isNone_and, isNone_and, h.target, h.method, h.headers, h.protocol, h.connections]

theorem validateTcp_congr : validateTcp d v = validateTcp d' v' := by
  have hstreams : (v.grpc.isNone && d.grpc.isNone && v.websocket.isNone && d.websocket.isNone)
      = (v'.grpc.isNone && d'.grpc.isNone && v'.websocket.isNone && d'.websocket.isNone) := by
    rw [Bool.and_assoc, isNone_and, isNone_and, h.grpc, h.websocket, ← isNone_and, ← isNone_and,
      ← Bool.and_assoc]
  unfold validateTcp
  rw [h.target, h.tcp, validateRaw_congr h, hstreams, h.body]

theorem validateUdp_congr : validateUdp d v = validateUdp d' v' := by
  have hothers : (v.grpc.isNone && d.grpc.isNone && v.websocket.isNone && d.websocket.isNone
        && v.tcp.isNone && d.tcp.isNone)
      = (v'.grpc.isNone && d'.grpc.isNone && v'.websocket.isNone && d'.websocket.isNone
        && v'.tcp.isNone && d'.tcp.isNone) := by
    rw [Bool.and_assoc, Bool.and_assoc (v.grpc.isNone && d.grpc.isNone), isNone_and, isNone_and,
      isNone_and, h.grpc, h.websocket, h.tcp, ← isNone_and, ← isNone_and, ← isNone_and,
      ← Bool.and_assoc, ← Bool.and_assoc]
  unfold validateUdp
  rw [h.target, h.udp, validateRaw_congr h, hothers, h.body]

/-- **The mode checks read the view and nothing else**, for their messages too. -/
theorem validateModes_congr : validateModes d v = validateModes d' v' := by
  unfold validateModes
  rw [validateGrpc_congr h, validateWebSocket_congr h, validateTls_congr h, validateTcp_congr h,
    validateUdp_congr h]

end Checks

/-! ## A scenario and what it is merged into -/

theorem effective_empty (a : String) : effective a "" = a := by
  unfold effective
  split
  · rename_i ha
    exact ha.symm
  · rfl

theorem effective_assoc (a b c : String) :
    effective (effective a b) c = effective a (effective b c) := by
  unfold effective
  by_cases ha : a = ""
  · rw [if_pos ha, if_pos ha]
  · rw [if_neg ha, if_neg ha, if_neg ha]

/-- The scenario names one form of a target at most. -/
def OneTargetForm (s : Scenario) : Prop := s.target = "" ∨ s.targets = []

/-- The scenario gives one form of a body at most. -/
def OneBodyForm (s : Scenario) : Prop := s.body = "" ∨ s.bodyFile = ""

/-- A body of its own, or else the defaults'. -/
theorem hasBody_merged (d s : Scenario) :
    hasBody {} (withDefaults d s) = hasBody d s := by
  unfold hasBody withDefaults
  simp only [effective_empty]
  unfold effective
  by_cases hb : s.body = "" <;> by_cases hf : s.bodyFile = "" <;> simp [hb, hf]

theorem forms_merged {d : Scenario} (hd : OneBodyForm d) (s : Scenario) :
    ((withDefaults d s).body == "" || (withDefaults d s).bodyFile == "")
      = (s.body == "" || s.bodyFile == "") := by
  unfold withDefaults
  by_cases hb : s.body = "" <;> by_cases hf : s.bodyFile = "" <;> simp [hb, hf]
  exact hd

theorem headers_merged (d s : Scenario) :
    ((withDefaults d s).headers.isEmpty && true) = (s.headers.isEmpty && d.headers.isEmpty) := by
  unfold withDefaults
  cases s.headers <;> simp

theorem target_merged {d s : Scenario} (h : s.targets = []) :
    (withDefaults d s).target = effective s.target d.target := by
  unfold withDefaults effective
  by_cases ht : s.target = "" <;> simp [ht, h]

/-- A scenario without targets looks the same through its defaults and merged. -/
theorem sameView_merged {d s : Scenario} (hd : OneBodyForm d) (hs : s.targets = []) :
    SameView d s {} (withDefaults d s) where
  target := by rw [target_merged hs, effective_empty]
  method := (effective_empty _).symm
  protocol := (effective_empty _).symm
  concurrency := (effective_empty _).symm
  grpc := (Option.or_none).symm
  websocket := (Option.or_none).symm
  tls := (Option.or_none).symm
  tcp := (Option.or_none).symm
  udp := (Option.or_none).symm
  connections := (Option.or_none).symm
  headers := (headers_merged d s).symm
  body := (hasBody_merged d s).symm
  forms := (forms_merged hd s).symm

/-- A target's variant looks the same through the defaults and merged, if its url counts. -/
theorem sameView_variant {d : Scenario} (hd : OneBodyForm d) (s : Scenario) {t : Target}
    (ht : effective t.url d.target = t.url) :
    SameView d (variant s t) {} (variant (withDefaults d s) t) where
  target := ht.trans (effective_empty _).symm
  method := (effective_assoc _ _ _).trans (effective_empty _).symm
  protocol := (effective_empty _).symm
  concurrency := (effective_empty _).symm
  grpc := (Option.or_none).symm
  websocket := (Option.or_none).symm
  tls := (Option.or_none).symm
  tcp := (Option.or_none).symm
  udp := (Option.or_none).symm
  connections := (Option.or_none).symm
  headers := by
    have hmerged := headers_merged d s
    unfold variant forTarget
    cases t.headers with
    | nil => exact hmerged.symm
    | cons x xs => rfl
  body := by
    have hmerged := hasBody_merged d s
    unfold variant forTarget
    unfold hasBody effective at *
    by_cases hown : t.body = "" ∧ t.bodyFile = ""
    · simp only [if_pos hown]
      exact hmerged.symm
    · -- a body of the target's own is there either way
      simp only [if_neg hown]
      by_cases hb : t.body = ""
      · have hf : t.bodyFile ≠ "" := fun hf => hown ⟨hb, hf⟩
        simp [hb, hf]
      · have hne : (t.body != "") = true := bne_iff_ne.mpr hb
        simp only [if_neg hb, hne, Bool.true_or]
  forms := by
    have hmerged := forms_merged hd s
    unfold variant forTarget
    by_cases hown : t.body = "" ∧ t.bodyFile = ""
    · simp only [if_pos hown]
      exact hmerged.symm
    · simp only [if_neg hown]

/-- The url of a target that is checked counts: no default target stands behind it. -/
theorem url_counts {d s : Scenario} (hd : OneTargetForm d) (hurl : ∀ t ∈ s.targets, t.url ≠ "")
    {t : Target} (ht : t ∈ (inheritTargets d s).targets) : effective t.url d.target = t.url := by
  rcases inheritTargets_cases d s with hs | hs
  · rw [hs] at ht
    exact if_neg (hurl t ht)
  · rw [hs] at ht
    rcases hd with hd | hd
    · rw [hd]
      exact effective_empty _
    · rw [hd] at ht
      exact absurd ht List.not_mem_nil

/--
**The checks before the defaults are folded in decide as they would afterwards**: a scenario's
variants pass the mode checks of the plan exactly when the variants of the scenario that
`applyDefaults` leaves pass them in a plan without defaults.
-/
theorem validateModes_defaults_iff {p : Plan} {d s s' : Scenario} {i : Nat}
    (hd : p.defaults = some d) (hs : p.scenarios[i]? = some s)
    (hs' : (applyDefaults p).scenarios[i]? = some s') (htarget : OneTargetForm d)
    (hbody : OneBodyForm d) (hurl : ∀ t ∈ s.targets, t.url ≠ "") :
    (∀ v ∈ variants (inheritTargets d s), validateModes d v = .ok ())
      ↔ ∀ v ∈ variants s', validateModes {} v = .ok () := by
  have hdefaults : defaultsOf p = d := by
    unfold defaultsOf
    rw [hd]
    rfl
  obtain rfl : merged p s = s' := by
    rw [scenarios_applyDefaults, List.getElem?_map, hs] at hs'
    exact Option.some.inj hs'
  have htargets := targets_merged p s
  rw [hdefaults] at htargets
  unfold variants
  rw [htargets]
  by_cases hempty : (inheritTargets d s).targets.isEmpty = true
  · -- no targets on either side: one scenario against one
    rw [if_pos hempty, if_pos hempty]
    have hnone := List.isEmpty_iff.mp hempty
    obtain ⟨hown, hself⟩ : s.targets = [] ∧ inheritTargets d s = s := by
      rcases inheritTargets_cases d s with h | h
      · exact ⟨h ▸ hnone, h⟩
      · unfold inheritTargets at hnone ⊢
        split at hnone
        · rename_i hcond
          rw [hnone] at hcond
          exact absurd hcond.2.2 (by decide)
        · rename_i hcond
          exact ⟨hnone, if_neg hcond⟩
    have hview : SameView d s {} (merged p s) := by
      have h := sameView_merged hbody hown
      unfold merged
      rw [hd]
      exact { h with }
    rw [hself, List.forall_mem_singleton, List.forall_mem_singleton, validateModes_congr hview]
  · rw [if_neg hempty, if_neg hempty, List.forall_mem_map, List.forall_mem_map]
    refine forall₂_congr fun t ht => ?_
    have hview : SameView d (variant (inheritTargets d s) t) {} (variant (merged p s) t) := by
      have h := sameView_variant hbody s (url_counts htarget hurl ht)
      unfold merged
      rw [hd]
      rcases inheritTargets_cases d s with heq | heq
      · rw [heq]
        exact { h with }
      · rw [heq]
        exact { h with }
    rw [validateModes_congr hview]

/-- A scenario with TLS settings and one weighted target. -/
def weightedTls (url : String) : Scenario where
  name := "load"
  tls := some {}
  targets := [{ name := "a", url }]

/-- Its plan, whose defaults name an https target. -/
def weightedTlsPlan (url : String) : Plan where
  defaults := some { target := "https://origin/" }
  scenarios := [weightedTls url]

theorem validateModes_weightedTls :
    (∀ v ∈ variants (inheritTargets { target := "https://origin/" } (weightedTls "https://a/")),
        validateModes { target := "https://origin/" } v = .ok ())
      ∧ ∀ v ∈ variants (merged (weightedTlsPlan "https://a/") (weightedTls "https://a/")),
          validateModes {} v = .ok () := by
  have hbefore : ∀ v ∈ variants (inheritTargets { target := "https://origin/" }
      (weightedTls "https://a/")), validateModes { target := "https://origin/" } v = .ok () := by
    intro v hv
    obtain rfl := List.mem_singleton.mp hv
    rfl
  exact ⟨hbefore, (validateModes_defaults_iff (p := weightedTlsPlan "https://a/") (i := 0) rfl rfl
    rfl (.inr rfl) (.inl rfl) (by simp [weightedTls])).mp hbefore⟩

/-- With an empty url the checks look at the default target, which the merged variant lacks. -/
theorem validateModes_empty_url : ∃ d s s',
    (weightedTlsPlan "").defaults = some d ∧ (weightedTlsPlan "").scenarios = [s]
      ∧ (applyDefaults (weightedTlsPlan "")).scenarios = [s']
      ∧ OneTargetForm s ∧ OneTargetForm d ∧ OneBodyForm d
      ∧ (variants (inheritTargets d s)).map (validateModes d) = [.ok ()]
      ∧ (variants s').map (validateModes {})
          = [.error "tls needs an https or tcps target (got \"\")"] :=
  ⟨_, _, _, rfl, rfl, rfl, .inl rfl, .inr rfl, .inl rfl, rfl, rfl⟩

end Sortie.Proof
