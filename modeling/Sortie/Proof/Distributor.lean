import Mathlib.Data.List.Count
import Mathlib.Data.List.Dedup
import Sortie.Lib.Checks
import Sortie.Lib.HostPort
import Sortie.Nh.Distributor
import Sortie.Plan.Schema

/-!
# The pool that ran is the pool that was asked for

`matchTargets` attributes the answers of a distributor by canonical address, and wants
each address that was asked for exactly once. That is a count per address, not per
entry of the list: an address that is listed twice is satisfied by one answer, and is
refused when it gets the two that were asked for.

The other way an honest answer goes astray is the port. It travels as a number, so
what comes back is written without zeros in front, and `canonicalAddress` leaves the
zeros of the plan's spelling where they are. `roundTrip_iff` says that this is the
only spelling that does not survive.
-/

namespace Sortie.Nh

open Api Checks Plan

variable {F : Type}
variable {targets : List String} {c : Conversation F} {d : Distributed F}
  {host port target : String} {a : SocketAddress}

/-! ## What a conversation hands on -/

variable {received : List (ServiceResponse F)} {sr : ServiceResponse F}

/-- The name an answer is attributed by. -/
def ServiceResponse.name (sr : ServiceResponse F) : String := formatAddress sr.service

/-- What a response has to judge. -/
def ServiceResponse.outputs (sr : ServiceResponse F) : List (String × Output F) :=
  (withResults sr.executionResponse.output).toList.map fun out => (sr.name, out)

/-- What a response is named as failed for. -/
def ServiceResponse.failed (sr : ServiceResponse F) : List TargetError :=
  match failure sr.error with
  | some s => [⟨sr.name, s.toError⟩]
  | none => match failure sr.executionResponse.errorDetail with
    | some s => [⟨sr.name, .message s.message⟩]
    | none => if sr.outputs.isEmpty then [⟨sr.name, .message "returned no results"⟩] else []

theorem Received.add_eq (r : Received F) (sr : ServiceResponse F) :
    r.add sr = { answered := r.answered ++ [sr.name], outputs := r.outputs ++ sr.outputs
                 failed := r.failed ++ sr.failed } := by
  unfold Received.add ServiceResponse.failed ServiceResponse.outputs
  cases hf : failure sr.error with
  | some s =>
    -- an answer that is an error is no execution response
    have hnone : sr.executionResponse.output = none := by
      unfold ServiceResponse.error at hf
      unfold ServiceResponse.executionResponse
      split at hf
      · rename_i hanswer
        rw [hanswer]
      · exact absurd hf (by simp [failure])
    rw [hnone]
    exact congrArg (Received.mk _ · _) (List.append_nil _).symm
  | none =>
    dsimp only
    cases withResults sr.executionResponse.output <;>
      cases failure sr.executionResponse.errorDetail <;> simp [ServiceResponse.name]

/-- What was gathered by the end of the stream. -/
def Conversation.gathered (c : Conversation F) : Received F := c.received.foldl Received.add {}

theorem Received.foldl_add (received : List (ServiceResponse F)) (got : Received F) :
    received.foldl Received.add got
      = { answered := got.answered ++ received.map ServiceResponse.name
          outputs := got.outputs ++ received.flatMap ServiceResponse.outputs
          failed := got.failed ++ received.flatMap ServiceResponse.failed } := by
  induction received generalizing got with
  | nil => simp
  | cons sr received ih =>
    rw [List.foldl_cons, ih, Received.add_eq]
    simp

theorem Conversation.gathered_eq (c : Conversation F) :
    c.gathered = { answered := c.received.map ServiceResponse.name
                   outputs := c.received.flatMap ServiceResponse.outputs
                   failed := c.received.flatMap ServiceResponse.failed } :=
  Received.foldl_add c.received {}

theorem Conversation.answered (c : Conversation F) :
    c.gathered.answered = c.received.map ServiceResponse.name := by
  rw [c.gathered_eq]

/-- Whoever was heard from is there with an output, or named as failed. -/
theorem ServiceResponse.accounted (sr : ServiceResponse F) :
    (∃ p ∈ sr.outputs, p.1 = sr.name) ∨ ∃ f ∈ sr.failed, f.target = sr.name := by
  unfold ServiceResponse.failed
  split
  · exact .inr ⟨_, List.mem_singleton.mpr rfl, rfl⟩
  · split
    · exact .inr ⟨_, List.mem_singleton.mpr rfl, rfl⟩
    · unfold ServiceResponse.outputs
      cases withResults sr.executionResponse.output with
      | some out => exact .inl ⟨_, List.mem_singleton.mpr rfl, rfl⟩
      | none => exact .inr ⟨_, List.mem_singleton.mpr rfl, rfl⟩

/-- A response with an output and no error. -/
structure ServiceResponse.Clean (sr : ServiceResponse F) : Prop where
  error : failure sr.error = none
  detail : failure sr.executionResponse.errorDetail = none
  output : ∃ out, withResults sr.executionResponse.output = some out

theorem ServiceResponse.clean_iff : sr.Clean ↔ sr.failed = [] := by
  unfold ServiceResponse.failed
  constructor
  · rintro ⟨herror, hdetail, out, hout⟩
    simp [herror, hdetail, ServiceResponse.outputs, hout]
  · intro h
    split at h
    · cases h
    · rename_i herror
      split at h
      · cases h
      · rename_i hdetail
        refine ⟨herror, hdetail, Option.isSome_iff_exists.mp ?_⟩
        unfold ServiceResponse.outputs at h
        cases hout : withResults sr.executionResponse.output with
        | some out => rfl
        | none => simp [hout] at h

/-- The response handed this output on, and no error with it. -/
def ServiceResponse.Returned (sr : ServiceResponse F) (p : String × Output F) : Prop :=
  sr.Clean ∧ p.1 = sr.name ∧ withResults sr.executionResponse.output = some p.2

/-- Nobody failed exactly when every response was clean. -/
theorem Conversation.failed_iff (c : Conversation F) :
    c.gathered.failed = [] ↔ ∀ sr ∈ c.received, sr.Clean := by
  rw [c.gathered_eq, List.flatMap_eq_nil_iff]
  exact forall₂_congr fun _ _ => ServiceResponse.clean_iff.symm

theorem forall₂_outputs (h : ∀ sr ∈ received, sr.Clean) :
    List.Forall₂ ServiceResponse.Returned received
      (received.flatMap ServiceResponse.outputs) := by
  induction received with
  | nil => exact .nil
  | cons sr received ih =>
    have hclean := h sr List.mem_cons_self
    obtain ⟨out, hout⟩ := hclean.output
    have houtputs : sr.outputs = [(sr.name, out)] := by
      unfold ServiceResponse.outputs
      rw [hout]
      rfl
    rw [List.flatMap_cons, houtputs]
    exact .cons ⟨hclean, rfl, hout⟩ (ih fun x hx => h x (List.mem_cons_of_mem _ hx))

theorem Conversation.clean (h : ∀ sr ∈ c.received, sr.Clean) :
    c.gathered.failed = [] ∧ c.gathered.outputs.map Prod.fst
      = c.received.map ServiceResponse.name := by
  refine ⟨c.failed_iff.mpr h, ?_⟩
  have hnames : List.Forall₂ (· = ·) (c.received.map ServiceResponse.name)
      ((c.received.flatMap ServiceResponse.outputs).map Prod.fst) :=
    List.forall₂_map_left_iff.mpr (List.forall₂_map_right_iff.mpr
      ((forall₂_outputs h).imp fun _ _ hp => hp.2.1.symm))
  rw [List.forall₂_eq_eq_eq] at hnames
  rw [c.gathered_eq, hnames]

theorem stepFailed_ok_iff {what : String} {x : Option GoError} {u : Unit} :
    stepFailed what x = .ok u ↔ x = none := by
  cases x <;> simp [stepFailed]

/-- The request went out: the context stood, and the stream was opened, written and closed. -/
structure Conversation.Delivered (c : Conversation F) : Prop where
  ended : c.ended = none
  opened : c.opened = none
  sent : c.sent = none
  closed : c.closed = none

/-- Why a target that was not heard from failed. -/
def Conversation.reason (c : Conversation F) : GoError :=
  match c.broken with
  | some e => .wrap "awaiting distributed response: " e ""
  | none => .message "no result"

/-- **When a conversation is no error, and what it hands on.** -/
theorem distributePartial_ok_iff :
    distributePartial targets c = .ok d ↔
      (∃ addrs, targets.mapM socketAddress = .ok addrs) ∧ c.Delivered
        ∧ (matchTargets targets c.gathered.answered).2 = []
        ∧ d = { outputs := c.gathered.outputs
                failed := c.gathered.failed
                  ++ (missing targets c.gathered.answered).map fun t => ⟨t, c.reason⟩ } := by
  unfold distributePartial
  simp only [bind_ok_iff, stepFailed_ok_iff]
  constructor
  · rintro ⟨addrs, haddrs, -, hended, -, hopened, -, hsent, -, hclosed, h⟩
    refine ⟨⟨addrs, haddrs⟩, ⟨Option.map_eq_none_iff.mp hended, hopened, hsent, hclosed⟩, ?_⟩
    split at h
    · -- the answers could not be attributed
      obtain ⟨_, hthrow, _⟩ := bind_ok_iff.mp h
      cases hthrow
    · rename_i hproblems
      exact ⟨not_not.mp hproblems, (Except.ok.inj h).symm⟩
  · rintro ⟨⟨addrs, haddrs⟩, hd, hproblems, rfl⟩
    refine ⟨addrs, haddrs, (), by rw [hd.ended]; rfl, (), hd.opened, (), hd.sent, (), hd.closed, ?_⟩
    rw [if_neg]
    · rfl
    · exact not_not.mpr hproblems

/-- A conversation in which nobody failed hands on the outputs of its responses, one by one. -/
theorem distributePartial_returned (h : distributePartial targets c = .ok d)
    (hfailed : d.failed = []) :
    c.Delivered ∧ List.Forall₂ ServiceResponse.Returned c.received d.outputs := by
  obtain ⟨-, hdelivered, -, rfl⟩ := distributePartial_ok_iff.mp h
  refine ⟨hdelivered, ?_⟩
  rw [c.gathered_eq]
  exact forall₂_outputs (c.failed_iff.mp (List.append_eq_nil_iff.mp hfailed).1)

/-! ## Spellings of an address -/

/-- The address can be sent. -/
def Converts (target : String) : Prop := ∃ a, socketAddress target = .ok a

/-- The port is written without zeros in front. -/
def PlainPort (target : String) : Prop :=
  ∀ host port, Text.splitHostPort target = .ok (host, port) → Text.Unpadded port

/-- An address that was sent, and as `formatAddress` writes it when it comes back. -/
theorem socketAddress_ok (h : socketAddress target = .ok a) :
    ∃ host port n, Text.splitHostPort target = .ok (host, port) ∧ Text.parseUint port 16 = some n
      ∧ a = { address := host, portValue := UInt32.ofNat n }
      ∧ formatAddress (some a) = Text.joinHostPort host (toString n) := by
  unfold socketAddress at h
  split at h
  · cases h
  · rename_i host port hsplit
    split at h
    · cases h
    · rename_i n hport
      cases h
      have hlt := Text.parseUint_lt hport
      have hn : (UInt32.ofNat n).toNat = n := by
        rw [UInt32.toNat_ofNat']
        omega
      exact ⟨host, port, n, hsplit, hport, rfl, by rw [formatAddress, hn]⟩

theorem joinable_number (h : Text.Joinable host port) (n : Nat) :
    Text.Joinable host (toString n) := by
  have hdigit : ∀ c, c.isDigit = false → c ∉ (toString n).toList := by
    intro c hc hmem
    rw [Text.isDigit_of_mem_toString hmem] at hc
    cases hc
  exact ⟨h.hostOpen, h.hostClose, hdigit _ (by decide), hdigit _ (by decide), hdigit _ (by decide)⟩

theorem canonicalAddress_join (h : Text.Joinable host port) :
    canonicalAddress (Text.joinHostPort host port) = Text.joinHostPort host port := by
  rw [canonicalAddress, Text.splitHostPort_join h]

theorem canonicalAddress_split (h : Text.splitHostPort target = .ok (host, port)) :
    canonicalAddress target = Text.joinHostPort host port := by
  rw [canonicalAddress, h]

/-- **An address that was sent comes back as itself exactly when its port is written plainly.** -/
theorem roundTrip_iff (h : socketAddress target = .ok a) :
    canonicalAddress (formatAddress (some a)) = canonicalAddress target ↔ PlainPort target := by
  obtain ⟨host, port, n, hsplit, hport, -, hformat⟩ := socketAddress_ok h
  have hjoin := (Text.splitHostPort_ok hsplit).1
  rw [hformat, canonicalAddress_join (joinable_number hjoin n), canonicalAddress_split hsplit,
    Text.joinHostPort_port_inj, Text.toString_parseUint hport]
  constructor
  · intro hplain host' port' hsplit'
    obtain ⟨rfl, rfl⟩ := Prod.mk.inj (Except.ok.inj (hsplit.symm.trans hsplit'))
    exact hplain
  · exact fun hplain => hplain host port hsplit

/-- Whatever comes back can only stand for an address with a plain port. -/
theorem plainPort_of_answer {a : Option SocketAddress}
    (h : canonicalAddress (formatAddress a) = canonicalAddress target) : PlainPort target := by
  intro host port hsplit
  have hjoin := (Text.splitHostPort_ok hsplit).1
  rw [canonicalAddress_split hsplit] at h
  -- the answer's name can be taken apart, since the target's can
  have hback := Text.splitHostPort_join hjoin
  rw [← h] at hback
  cases a with
  | none =>
    obtain ⟨e, he⟩ : ∃ e, Text.splitHostPort (canonicalAddress (formatAddress none)) = .error e :=
      ⟨_, rfl⟩
    exact absurd (he.symm.trans hback) nofun
  | some a =>
    have hcolon : ':' ∉ (toString a.portValue.toNat).toList := by
      intro hmem
      exact absurd (Text.isDigit_of_mem_toString hmem) (by decide)
    rw [formatAddress] at hback
    rw [canonicalAddress] at hback
    cases hname : Text.splitHostPort (Text.joinHostPort a.address (toString a.portValue.toNat)) with
    | error e =>
      simp only [hname] at hback
      cases hback
    | ok parts =>
      obtain ⟨host', port'⟩ := parts
      simp only [hname] at hback
      have hport' := Text.split_join_port hcolon hname
      subst hport'
      have hj' := (Text.splitHostPort_ok hname).1
      rw [Text.splitHostPort_join hj'] at hback
      obtain ⟨-, rfl⟩ := Prod.mk.inj (Except.ok.inj hback)
      exact Text.unpadded_toString _

/-- The canonical spelling is sent as the address itself. -/
theorem socketAddress_canonical (h : socketAddress target = .ok a) :
    socketAddress (canonicalAddress target) = .ok a
      ∧ canonicalAddress (canonicalAddress target) = canonicalAddress target := by
  obtain ⟨host, port, n, hsplit, hport, rfl, -⟩ := socketAddress_ok h
  have hjoin := (Text.splitHostPort_ok hsplit).1
  rw [canonicalAddress_split hsplit, canonicalAddress_join hjoin, socketAddress,
    Text.splitHostPort_join hjoin]
  refine ⟨?_, rfl⟩
  simp only [hport]

/-! ## Counting the answers -/

theorem timesAnswered_eq (answered : List String) (target : String) :
    timesAnswered answered target
      = (answered.map canonicalAddress).count (canonicalAddress target) := by
  rw [timesAnswered, List.count, List.countP_map]
  rfl

theorem problems_eq_nil_iff {answered : List String} :
    (matchTargets targets answered).2 = [] ↔
      (∀ t ∈ targets, timesAnswered answered t ≤ 1)
        ∧ ∀ name ∈ answered, canonicalAddress name ∈ targets.map canonicalAddress := by
  have hdup : duplicated targets answered = [] ↔ ∀ t ∈ targets, timesAnswered answered t ≤ 1 := by
    rw [duplicated, List.map_eq_nil_iff, List.filter_eq_nil_iff]
    refine forall₂_congr fun t _ => ?_
    rw [decide_eq_true_iff]
    omega
  have hunx : unexpected targets answered = []
      ↔ ∀ name ∈ answered, canonicalAddress name ∈ targets.map canonicalAddress := by
    rw [unexpected, List.filter_eq_nil_iff]
    simp
  rw [← hdup, ← hunx, matchTargets]
  simp only [List.append_eq_nil_iff]
  refine and_congr ?_ ?_
  · cases duplicated targets answered <;> simp
  · cases unexpected targets answered <;> simp

theorem missing_eq_nil_iff {answered : List String} :
    missing targets answered = [] ↔ ∀ t ∈ targets, 1 ≤ timesAnswered answered t := by
  rw [missing, List.filter_eq_nil_iff]
  refine forall₂_congr fun t _ => ?_
  rw [beq_iff_eq]
  omega

/-- As many answers as entries, and for each address as many as it is listed. -/
def Matched (targets names : List String) : Prop :=
  (names.map canonicalAddress).Perm (targets.map canonicalAddress)

/-- Addresses that are all different, each asked for and answered once, are matched. -/
theorem matched_of_once {answered : List String}
    (hnodup : (targets.map canonicalAddress).Nodup)
    (hproblems : (matchTargets targets answered).2 = [])
    (hmissing : missing targets answered = []) :
    Matched targets answered := by
  obtain ⟨hle, hasked⟩ := problems_eq_nil_iff.mp hproblems
  rw [missing_eq_nil_iff] at hmissing
  refine List.perm_iff_count.mpr fun a => ?_
  by_cases ha : a ∈ targets.map canonicalAddress
  · rw [List.count_eq_one_of_mem hnodup ha]
    obtain ⟨t, ht, rfl⟩ := List.mem_map.mp ha
    have hone := Nat.le_antisymm (hle t ht) (hmissing t ht)
    rwa [timesAnswered_eq] at hone
  · have hnot : a ∉ answered.map canonicalAddress := by
      intro hmem
      obtain ⟨name, hname, rfl⟩ := List.mem_map.mp hmem
      exact ha (hasked name hname)
    rw [List.count_eq_zero_of_not_mem ha, List.count_eq_zero_of_not_mem hnot]

/-! ## A run is reported complete -/

/-- What a conversation that is no error owes to every entry of the target list. -/
structure RunsWhole (targets : List String) (c : Conversation F) : Prop where
  /-- if nobody failed, the outputs are one to one with the entries -/
  complete : ∀ d, distributePartial targets c = .ok d → d.failed = [] →
    Matched targets (d.outputs.map Prod.fst)
  /-- every entry has an output, a failure or both -/
  accounted : ∀ d, distributePartial targets c = .ok d → ∀ t ∈ targets,
    (∃ p ∈ d.outputs, canonicalAddress p.1 = canonicalAddress t)
      ∨ ∃ f ∈ d.failed, canonicalAddress f.target = canonicalAddress t

theorem distributePartial_accounted (h : distributePartial targets c = .ok d) {t : String}
    (ht : t ∈ targets) :
    (∃ p ∈ d.outputs, canonicalAddress p.1 = canonicalAddress t)
      ∨ ∃ f ∈ d.failed, canonicalAddress f.target = canonicalAddress t := by
  obtain ⟨-, -, -, rfl⟩ := distributePartial_ok_iff.mp h
  by_cases hzero : timesAnswered c.gathered.answered t = 0
  · -- a silent target is named
    have hmem : t ∈ missing targets c.gathered.answered :=
      List.mem_filter.mpr ⟨ht, beq_iff_eq.mpr hzero⟩
    exact .inr ⟨⟨t, c.reason⟩, List.mem_append_right _ (List.mem_map.mpr ⟨t, hmem, rfl⟩), rfl⟩
  · obtain ⟨name, hname, heq⟩ := List.countP_pos_iff.mp (Nat.pos_of_ne_zero hzero)
    rw [beq_iff_eq] at heq
    rw [c.gathered_eq] at hname ⊢
    obtain ⟨sr, hsr, rfl⟩ := List.mem_map.mp hname
    rcases sr.accounted with ⟨p, hp, hname⟩ | ⟨f, hf, hname⟩
    · exact .inl ⟨p, List.mem_flatMap.mpr ⟨sr, hsr, hp⟩, hname ▸ heq⟩
    · exact .inr ⟨f, List.mem_append_left _ (List.mem_flatMap.mpr ⟨sr, hsr, hf⟩), hname ▸ heq⟩

/-- A clean return had an answer for every target, and these are its outputs. -/
theorem distributePartial_clean
    (h : distributePartial targets c = .ok d) (hfailed : d.failed = []) :
    d.outputs.map Prod.fst = c.received.map ServiceResponse.name
      ∧ (matchTargets targets (d.outputs.map Prod.fst)).2 = []
      ∧ missing targets (d.outputs.map Prod.fst) = [] := by
  obtain ⟨-, -, hproblems, rfl⟩ := distributePartial_ok_iff.mp h
  obtain ⟨hclean, hmissing⟩ := List.append_eq_nil_iff.mp hfailed
  have hnames := (Conversation.clean (c.failed_iff.mp hclean)).2
  rw [← c.answered] at hnames
  refine ⟨hnames.trans c.answered, ?_, ?_⟩
  · rw [hnames]
    exact hproblems
  · rw [hnames]
    exact List.map_eq_nil_iff.mp hmissing

/-- A distributor that names nobody handed back an output for every target. -/
theorem distributePartial_complete (h : distributePartial targets c = .ok d)
    (hfailed : d.failed = []) :
    ∀ t ∈ targets, ∃ p ∈ d.outputs, canonicalAddress p.1 = canonicalAddress t := by
  intro t ht
  obtain ⟨-, -, hmissing⟩ := distributePartial_clean h hfailed
  obtain ⟨name, hname, heq⟩ := List.countP_pos_iff.mp (missing_eq_nil_iff.mp hmissing t ht)
  obtain ⟨p, hp, rfl⟩ := List.mem_map.mp hname
  exact ⟨p, hp, beq_iff_eq.mp heq⟩

/-- An answer for the address, with an output and no error. -/
def answerFor (target : String) : ServiceResponse F where
  service := (socketAddress target).toOption
  answer := some (.executionResponse { output := some { results := [{}] } })

theorem answerFor_clean (target : String) : (answerFor target : ServiceResponse F).Clean :=
  ⟨rfl, rfl, _, rfl⟩

/-- A distributor that answers for these addresses, in this order. -/
def answering (targets : List String) : Conversation F where
  received := targets.map answerFor

theorem answering_delivered (targets : List String) :
    (answering targets : Conversation F).Delivered := ⟨rfl, rfl, rfl, rfl⟩

theorem answering_clean (targets : List String) :
    ∀ sr ∈ (answering targets : Conversation F).received, sr.Clean := by
  intro sr hsr
  obtain ⟨t, -, rfl⟩ := List.mem_map.mp hsr
  exact answerFor_clean t

theorem canonical_answerFor (h : Converts target) (hplain : PlainPort target) :
    canonicalAddress (answerFor target : ServiceResponse F).name = canonicalAddress target := by
  obtain ⟨a, ha⟩ := h
  rw [ServiceResponse.name, answerFor, ha]
  exact (roundTrip_iff ha).mpr hplain

theorem mapM_socketAddress (h : ∀ t ∈ targets, Converts t) :
    ∃ addrs, targets.mapM socketAddress = .ok addrs := by
  induction targets with
  | nil => exact ⟨[], rfl⟩
  | cons t targets ih =>
    obtain ⟨a, ha⟩ := h t List.mem_cons_self
    obtain ⟨addrs, haddrs⟩ := ih fun x hx => h x (List.mem_cons_of_mem _ hx)
    refine ⟨a :: addrs, ?_⟩
    rw [List.mapM_cons, ha, haddrs]
    rfl

theorem plainPort_canonical (h : Converts target) (hplain : PlainPort target) :
    Converts (canonicalAddress target) ∧ PlainPort (canonicalAddress target)
      ∧ canonicalAddress (canonicalAddress target) = canonicalAddress target := by
  obtain ⟨a, ha⟩ := h
  obtain ⟨hconv, hidem⟩ := socketAddress_canonical ha
  refine ⟨⟨a, hconv⟩, (roundTrip_iff hconv).mp ?_, hidem⟩
  rw [hidem]
  exact (roundTrip_iff ha).mpr hplain

/-- One answer for each address is enough, however often the addresses are listed. -/
theorem answering_once (h : ∀ t ∈ targets, Converts t) (hplain : ∀ t ∈ targets, PlainPort t) :
    ∃ d : Distributed F,
      distributePartial targets (answering (targets.map canonicalAddress).dedup) = .ok d
        ∧ d.failed = [] ∧ (d.outputs.map Prod.fst).length
            = (targets.map canonicalAddress).dedup.length := by
  have hnames : ((answering (targets.map canonicalAddress).dedup : Conversation F).received.map
      ServiceResponse.name).map canonicalAddress = (targets.map canonicalAddress).dedup := by
    rw [answering, List.map_map, List.map_map]
    refine (List.map_congr_left fun k hk => ?_).trans (List.map_id _)
    obtain ⟨t, ht, rfl⟩ := List.mem_map.mp (List.mem_dedup.mp hk)
    obtain ⟨hconv, hport, hidem⟩ := plainPort_canonical (h t ht) (hplain t ht)
    simp only [Function.comp_apply, id]
    rw [canonical_answerFor hconv hport, hidem]
  have htimes : ∀ t ∈ targets, timesAnswered
      (answering (targets.map canonicalAddress).dedup : Conversation F).gathered.answered t
        = 1 := by
    intro t ht
    rw [timesAnswered_eq, Conversation.answered, hnames]
    exact List.count_eq_one_of_mem (List.nodup_dedup _)
      (List.mem_dedup.mpr (List.mem_map_of_mem ht))
  have hasked : ∀ name ∈
      (answering (targets.map canonicalAddress).dedup : Conversation F).gathered.answered,
      canonicalAddress name ∈ targets.map canonicalAddress := by
    intro name hname
    rw [Conversation.answered] at hname
    have hmem := List.mem_map_of_mem (f := canonicalAddress) hname
    rw [hnames] at hmem
    exact List.mem_dedup.mp hmem
  obtain ⟨hfailed, houtputs⟩ :=
    Conversation.clean (answering_clean (F := F) (targets.map canonicalAddress).dedup)
  refine ⟨_, distributePartial_ok_iff.mpr ⟨mapM_socketAddress h, answering_delivered _,
    problems_eq_nil_iff.mpr ⟨fun t ht => (htimes t ht).le, hasked⟩, rfl⟩, ?_, ?_⟩
  · rw [hfailed, missing_eq_nil_iff.mpr fun t ht => (htimes t ht).ge]
    rfl
  · rw [houtputs, answering, List.map_map, List.length_map]

/--
**When a distributed run is never reported complete without every entry**: exactly when no
address is listed twice, or one of the targets has a port no answer can come back with.
-/
theorem runsWhole_iff {targets : List String} (h : ∀ t ∈ targets, Converts t) :
    (∀ c : Conversation F, RunsWhole targets c) ↔
      (targets.map canonicalAddress).Nodup ∨ ∃ t ∈ targets, ¬ PlainPort t := by
  constructor
  · intro hall
    by_contra hcond
    rw [not_or] at hcond
    have hplain : ∀ t ∈ targets, PlainPort t := by
      intro t ht
      by_contra hp
      exact hcond.2 ⟨t, ht, hp⟩
    -- one answer for each address, which is fewer than there are entries
    obtain ⟨d, hd, hfailed, hlen⟩ := answering_once (F := F) h hplain
    have hmatched := ((hall _).complete d hd hfailed).length_eq
    rw [List.length_map, hlen] at hmatched
    exact hcond.1 (List.dedup_eq_self.mp ((List.dedup_sublist _).eq_of_length hmatched))
  · intro hcond c
    refine ⟨fun d hd hfailed => ?_, fun d hd t ht => distributePartial_accounted hd ht⟩
    obtain ⟨hnames, hproblems, hmissing⟩ := distributePartial_clean hd hfailed
    rcases hcond with hnodup | ⟨t, ht, hport⟩
    · exact matched_of_once hnodup hproblems hmissing
    · -- nothing that comes back can stand for this target
      exfalso
      have hone := missing_eq_nil_iff.mp hmissing t ht
      obtain ⟨name, hname, heq⟩ := List.countP_pos_iff.mp hone
      rw [hnames] at hname
      obtain ⟨sr, -, rfl⟩ := List.mem_map.mp hname
      exact hport (plainPort_of_answer (beq_iff_eq.mp heq))

/-- One service behind two entries of a target list. -/
def listedTwice : List String := ["engine:8443", "engine:8443"]

/-- Two services, one by name and one by address. -/
def twoEngines : List String := ["engine:8443", "[::1]:8443"]

theorem twoEngines_convert : ∀ t ∈ twoEngines, Converts t := by
  intro t ht
  rcases List.mem_cons.mp ht with rfl | ht
  · exact ⟨_, rfl⟩
  · obtain rfl := List.mem_singleton.mp ht
    exact ⟨_, rfl⟩

theorem runsWhole_twoEngines :
    (∀ t ∈ twoEngines, Converts t) ∧ (twoEngines.map canonicalAddress).Nodup
      ∧ ∀ c : Conversation Unit, RunsWhole twoEngines c :=
  ⟨twoEngines_convert, by decide, (runsWhole_iff twoEngines_convert).mpr (.inl (by decide))⟩

/-- One answer for both entries: the run is reported complete. -/
theorem listedTwice_answered_once : ∃ d : Distributed Unit,
    (∀ t ∈ listedTwice, isHostPort t = true)
      ∧ distributePartial listedTwice (answering ["engine:8443"]) = .ok d
      ∧ d.failed = [] ∧ d.outputs.length = 1
      ∧ ¬ RunsWhole listedTwice (answering ["engine:8443"] : Conversation Unit) := by
  refine ⟨_, by decide, rfl, rfl, rfl, fun h => ?_⟩
  exact absurd (h.complete _ rfl rfl).length_eq (by decide)

/-! ## A faithful distributor -/

/-- Every address that was sent is answered once per entry, unchanged, in any order. -/
structure Faithful (targets : List String) (c : Conversation F) : Prop where
  delivered : c.Delivered
  echoes : ∃ addrs, targets.mapM socketAddress = .ok addrs
    ∧ (c.received.map ServiceResponse.service).Perm (addrs.map some)
  clean : ∀ sr ∈ c.received, sr.Clean

/-- No error, nobody named as failed, and a name for each entry. -/
def Believed (targets : List String) (c : Conversation F) : Prop :=
  ∃ d, distributePartial targets c = .ok d ∧ d.failed = [] ∧ d.outputs.length = targets.length
    ∧ Matched targets (d.outputs.map Prod.fst)

/-- Every target is written back in a spelling that stands for itself. -/
def RoundTrips (targets : List String) : Prop :=
  ∀ t ∈ targets, ∀ a, socketAddress t = .ok a →
    canonicalAddress (formatAddress (some a)) = canonicalAddress t

/-- What can be said of each address that is sent can be said of all of them. -/
theorem map_sent {α : Type} {f : String → α} {g : SocketAddress → α} {addrs : List SocketAddress}
    (h : targets.mapM socketAddress = .ok addrs)
    (hfg : ∀ t ∈ targets, ∀ a, socketAddress t = .ok a → f t = g a) :
    targets.map f = addrs.map g := by
  have hsent := mapM_ok h
  clear h
  induction hsent with
  | nil => rfl
  | @cons t a targets addrs ha _ ih =>
    rw [List.map_cons, List.map_cons, hfg t List.mem_cons_self a ha,
      ih fun x hx => hfg x (List.mem_cons_of_mem _ hx)]

/-- The names of a faithful distributor's answers are the targets, up to spelling. -/
theorem Faithful.matched (h : Faithful targets c) (htrips : RoundTrips targets) :
    Matched targets (c.received.map ServiceResponse.name) := by
  obtain ⟨addrs, haddrs, hperm⟩ := h.echoes
  have hmap := hperm.map fun a => canonicalAddress (formatAddress a)
  rw [Matched, List.map_map, map_sent haddrs fun t ht a ha => (htrips t ht a ha).symm]
  rwa [List.map_map, List.map_map] at hmap

/-- Answers that match are attributed, if no address is listed twice. -/
theorem attributed_of_matched {answered : List String}
    (hnodup : (targets.map canonicalAddress).Nodup) (h : Matched targets answered) :
    (matchTargets targets answered).2 = [] ∧ missing targets answered = [] := by
  have htimes : ∀ t ∈ targets, timesAnswered answered t = 1 := by
    intro t ht
    rw [timesAnswered_eq, h.count_eq]
    exact List.count_eq_one_of_mem hnodup (List.mem_map_of_mem ht)
  refine ⟨problems_eq_nil_iff.mpr ⟨fun t ht => (htimes t ht).le, fun name hname => ?_⟩,
    missing_eq_nil_iff.mpr fun t ht => (htimes t ht).ge⟩
  exact h.mem_iff.mp (List.mem_map_of_mem hname)

/-- A distributor that answers in the order it was asked is faithful. -/
theorem answering_faithful (h : ∀ t ∈ targets, Converts t) :
    Faithful targets (answering targets : Conversation F) := by
  obtain ⟨addrs, haddrs⟩ := mapM_socketAddress h
  refine ⟨answering_delivered _, ⟨addrs, haddrs, ?_⟩, answering_clean _⟩
  rw [answering, List.map_map, map_sent haddrs fun t _ a ha => ?_]
  show (socketAddress t).toOption = some a
  rw [ha]
  rfl

/--
**When a faithful distributor is always believed**: exactly when no address is listed twice
and every port is written without zeros in front.
-/
theorem believed_iff {targets : List String} (h : ∀ t ∈ targets, Converts t) :
    ((∀ c : Conversation F, Faithful targets c → Believed targets c) ∧ RoundTrips targets) ↔
      (targets.map canonicalAddress).Nodup ∧ ∀ t ∈ targets, PlainPort t := by
  have hports : RoundTrips targets ↔ ∀ t ∈ targets, PlainPort t := by
    constructor
    · intro htrips t ht
      obtain ⟨a, ha⟩ := h t ht
      exact (roundTrip_iff ha).mp (htrips t ht a ha)
    · exact fun hplain t ht a ha => (roundTrip_iff ha).mpr (hplain t ht)
  rw [hports]
  refine and_congr_left fun hplain => ⟨fun hall => ?_, fun hnodup c hc => ?_⟩
  · -- as many answers as entries, and the addresses have to be told apart
    have hfaithful := answering_faithful (F := F) h
    obtain ⟨d, hd, -, -, -⟩ := hall _ hfaithful
    obtain ⟨-, -, hproblems, -⟩ := distributePartial_ok_iff.mp hd
    rw [Conversation.answered] at hproblems
    have hmatched := hfaithful.matched (hports.mpr hplain)
    rw [List.nodup_iff_count_le_one]
    intro k
    by_cases hk : k ∈ targets.map canonicalAddress
    · obtain ⟨t, ht, rfl⟩ := List.mem_map.mp hk
      have hle := (problems_eq_nil_iff.mp hproblems).1 t ht
      rwa [timesAnswered_eq, hmatched.count_eq] at hle
    · rw [List.count_eq_zero_of_not_mem hk]
      exact Nat.zero_le 1
  · have hmatched := hc.matched (hports.mpr hplain)
    obtain ⟨hproblems, hmissing⟩ := attributed_of_matched hnodup hmatched
    obtain ⟨hfailed, houtputs⟩ := Conversation.clean hc.clean
    obtain ⟨addrs, haddrs, -⟩ := hc.echoes
    rw [← Conversation.answered] at hproblems hmissing
    refine ⟨_, distributePartial_ok_iff.mpr ⟨⟨addrs, haddrs⟩, hc.delivered, hproblems, rfl⟩,
      ?_, ?_, ?_⟩
    · rw [hfailed, hmissing]
      rfl
    · have hlen := hmatched.length_eq
      rw [← houtputs] at hlen
      simpa using hlen
    · rw [houtputs]
      exact hmatched

theorem believed_twoEngines :
    Faithful twoEngines (answering twoEngines.reverse : Conversation Unit)
      ∧ Believed twoEngines (answering twoEngines.reverse : Conversation Unit) := by
  have hplain : ∀ t ∈ twoEngines, PlainPort t := by
    intro t ht
    obtain ⟨a, ha⟩ := twoEngines_convert t ht
    refine (roundTrip_iff ha).mp ?_
    rcases List.mem_cons.mp ht with rfl | ht
    · cases ha
      decide
    · obtain rfl := List.mem_singleton.mp ht
      cases ha
      decide
  have hfaithful : Faithful twoEngines (answering twoEngines.reverse : Conversation Unit) :=
    ⟨answering_delivered _, ⟨_, rfl, by decide⟩, answering_clean _⟩
  exact ⟨hfaithful,
    ((believed_iff twoEngines_convert).mpr ⟨by decide, hplain⟩).1 _ hfaithful⟩

/-- An address listed twice and answered twice, and a port with a zero in front: neither is
believed. -/
theorem faithful_not_believed :
    (∀ t ∈ listedTwice, isHostPort t = true) ∧ isHostPort "engine:08443" = true
      ∧ Faithful listedTwice (answering listedTwice : Conversation Unit)
      ∧ (distributePartial listedTwice (answering listedTwice : Conversation Unit)).toOption.isNone
      ∧ Faithful ["engine:08443"] (answering ["engine:08443"] : Conversation Unit)
      ∧ (distributePartial ["engine:08443"]
          (answering ["engine:08443"] : Conversation Unit)).toOption.isNone := by
  refine ⟨by decide, by decide, answering_faithful fun t ht => ?_, rfl,
    answering_faithful fun t ht => ?_, rfl⟩
  · obtain rfl : t = "engine:8443" := by simpa [listedTwice] using ht
    exact ⟨_, rfl⟩
  · obtain rfl := List.mem_singleton.mp ht
    exact ⟨_, rfl⟩

end Sortie.Nh
