import Sortie.Engine.TestServerFilter
import Sortie.Lib.Checks

/-!
# What the test server answers

A request is to be answered once: with an error when its options cannot be used, and
with the configured response otherwise. `serve_answers_iff` says for which requests the
filter does so. Three kinds of requests are left out. One that ends with trailers is not
answered, since only headers and data that end the stream send a reply. One whose options
bring the header list that the base does not use, or both lists, ends the process: the
merged options pass `MessageUtil::validate`, which knows the rules of single fields only.
One that has a body is never echoed, since the dump is taken where the headers end it.
-/

namespace Sortie.Engine.TestServer

open Proto Checks

/-! ## What a request asks for -/

/-- The order of `google.protobuf.Duration`: by seconds, then by nanoseconds. -/
def NonNegative (d : Duration) : Prop := 0 < d.seconds ∨ d.seconds = 0 ∧ 0 ≤ d.nanos

instance (d : Duration) : Decidable (NonNegative d) :=
  inferInstanceAs (Decidable (_ ∨ _))

/-- The durations that the rules of the message look at. -/
def DelayOptions.durations : DelayOptions → List Duration
  | .staticDelay d => [d]
  | .concurrencyBasedLinearDelay c => c.minimalDelay.toList ++ c.concurrencyDelayFactor.toList

/-- The rules of the fields of response_options.proto. -/
structure FieldRules (o : ResponseOptions) : Prop where
  size : o.responseBodySize ≤ 4194304
  delays : ∀ d ∈ o.delayOptions.toList.flatMap DelayOptions.durations, NonNegative d

theorem fieldRules_iff {o : ResponseOptions} :
    FieldRules o ↔ o.responseBodySize ≤ 4194304
      ∧ ∀ d ∈ o.delayOptions.toList.flatMap DelayOptions.durations, NonNegative d :=
  ⟨fun h => ⟨h.size, h.delays⟩, fun h => ⟨h.1, h.2⟩⟩

instance (o : ResponseOptions) : Decidable (FieldRules o) :=
  decidable_of_iff _ fieldRules_iff.symm

/-- These are the options of a request with these headers. -/
inductive Applies (env : Envoy) (base : ResponseOptions) (headers : List (String × String)) :
    ResponseOptions → Prop where
  /-- It has none of its own. -/
  | base (h : configValues headers = []) : Applies env base headers base
  /-- It has one header with options that go with those of the server. -/
  | merged {json : String} {c : ResponseOptions} (h : configValues headers = [json])
      (hload : env.loadFromJson json = .ok c) (hrules : FieldRules (base.mergeFrom c)) :
      Applies env base headers (base.mergeFrom c)

/-- The options of the request are repeated, malformed or invalid. -/
def Refused (env : Envoy) (base : ResponseOptions) (headers : List (String × String)) : Prop :=
  1 < (configValues headers).length ∨
    ∃ json, configValues headers = [json] ∧
      ∀ c, env.loadFromJson json = .ok c → ¬ FieldRules (base.mergeFrom c)

/-- The response that options stand for. -/
def configuredReply (env : Envoy) (o : ResponseOptions) (headers : List (String × String)) :
    Reply where
  code := 200
  body := String.ofList (List.replicate o.responseBodySize.toNat 'a')
    ++ if o.echoRequestHeaders then "\nRequest Headers:\n" ++ env.dump headers else ""
  edits := (o.v3ResponseHeaders
    ++ o.responseHeaders.map upgradeDeprecatedEnvoyV2HeaderValueOptionToV3).flatMap headerEdits

/-- This is the right reply to a request with these headers. -/
structure Answers (env : Envoy) (base : ResponseOptions) (headers : List (String × String))
    (reply : Reply) : Prop where
  refused : Refused env base headers → reply.code = 500
  configured : ∀ o, Applies env base headers o → reply = configuredReply env o headers

/-- What a request has to be like to get it. -/
structure Answerable (env : Envoy) (base : ResponseOptions) (r : Request) : Prop where
  ended : ∀ chunks, r.ending ≠ .byTrailers chunks
  oneList : ∀ json c, configValues r.headers = [json] → env.loadFromJson json = .ok c →
    FieldRules (base.mergeFrom c) →
      base.responseHeaders ++ c.responseHeaders = [] ∨
        base.v3ResponseHeaders ++ c.v3ResponseHeaders = []
  noEcho : ∀ o, Applies env base r.headers o → o.echoRequestHeaders = true → r.ending = .byHeaders

/-! ## The options in effect -/

section Options

variable {env : Envoy} {base o : ResponseOptions} {headers : List (String × String)}
  (hvalidate : ∀ o, env.validate o = .ok () ↔ FieldRules o)

include hvalidate

theorem mergeJsonConfig_ok_iff {json : String} :
    mergeJsonConfig env json base = .ok o ↔
      ∃ c, env.loadFromJson json = .ok c ∧ FieldRules (base.mergeFrom c)
        ∧ base.mergeFrom c = o := by
  simp only [mergeJsonConfig, mapError_ok_iff, bind_ok_iff, hvalidate, exists_const, pure,
    Except.pure, Except.ok.injEq]

theorem computeEffectiveConfiguration_ok_iff :
    computeEffectiveConfiguration env base headers = .ok o ↔ Applies env base headers o := by
  unfold computeEffectiveConfiguration
  constructor
  · intro h
    split at h
    next hv =>
      cases h
      exact .base hv
    next hv =>
      obtain ⟨c, hload, hrules, rfl⟩ := (mergeJsonConfig_ok_iff hvalidate).mp h
      exact .merged hv hload hrules
    next => cases h
  · rintro (hv | ⟨hv, hload, hrules⟩)
    · rw [hv]
    · rw [hv]
      exact (mergeJsonConfig_ok_iff hvalidate).mpr ⟨_, hload, hrules, rfl⟩

/-- What is not refused has options, and only one choice of them. -/
theorem refused_iff :
    Refused env base headers ↔ ∃ m, computeEffectiveConfiguration env base headers = .error m := by
  unfold Refused computeEffectiveConfiguration
  match hv : configValues headers with
  | [] => simp
  | [json] =>
    simp only [List.length_singleton, lt_self_iff_false, List.cons.injEq, and_true, false_or,
      exists_eq_left']
    constructor
    · intro hbad
      cases hm : mergeJsonConfig env json base with
      | error m => exact ⟨m, rfl⟩
      | ok o =>
        obtain ⟨c, hload, hrules, -⟩ := (mergeJsonConfig_ok_iff hvalidate).mp hm
        exact absurd hrules (hbad c hload)
    · rintro ⟨m, hm⟩ c hload hrules
      have hok := (mergeJsonConfig_ok_iff hvalidate).mpr ⟨c, hload, hrules, rfl⟩
      rw [hm] at hok
      cases hok
  | _ :: _ :: _ => simp

end Options

/-! ## A request, event by event -/

section Serve

variable {env : Envoy} {base o : ResponseOptions} {r : Request}

/-- Data that does not end the stream changes nothing. -/
theorem foldl_chunks (s : Filter) (chunks : List (List UInt8)) :
    (chunks.map (Event.data · false)).foldl (Filter.step env base) s = s := by
  induction chunks with
  | nil => rfl
  | cons c cs ih =>
    have hone : Filter.step env base s (.data c false) = s := by
      unfold Filter.step
      split <;> rfl
    rw [List.map_cons, List.foldl_cons, hone, ih]

/-- The filter while the body of a request comes in. -/
def opened (env : Envoy) (base : ResponseOptions) (headers : List (String × String)) : Filter :=
  { effectiveConfig := computeEffectiveConfiguration env base headers }

theorem serve_byHeaders (h : r.ending = .byHeaders) :
    serve env base r = ({} : Filter).decodeHeaders env base r.headers true := by
  unfold serve Request.events
  rw [h]
  rfl

theorem serve_byData {chunks : List (List UInt8)} {last : List UInt8}
    (h : r.ending = .byData chunks last) :
    serve env base r = (opened env base r.headers).decodeData true := by
  unfold serve Request.events
  rw [h]
  simp only [List.cons_append, List.foldl_cons, List.foldl_append, foldl_chunks, List.foldl_nil]
  rfl

theorem serve_byTrailers {chunks : List (List UInt8)} (h : r.ending = .byTrailers chunks) :
    serve env base r = opened env base r.headers := by
  unfold serve Request.events
  rw [h]
  simp only [List.cons_append, List.foldl_cons, List.foldl_append, foldl_chunks, List.foldl_nil]
  rfl

/-- The reply to options that cannot be used. -/
def errorReply (message : String) : Reply where
  code := 500
  body := "test-server didn't understand the request: " ++ message

/-- However the request ends, other than by trailers, options that cannot be used are
answered with the error. -/
theorem serve_of_error {m : String} (hended : ∀ chunks, r.ending ≠ .byTrailers chunks)
    (he : computeEffectiveConfiguration env base r.headers = .error m) :
    (serve env base r).aborted = false ∧ (serve env base r).replies = [errorReply m] := by
  cases hr : r.ending with
  | byHeaders =>
    rw [serve_byHeaders hr]
    simp only [Filter.decodeHeaders, Filter.validateOrSendError, he]
    exact ⟨rfl, rfl⟩
  | byData chunks last =>
    rw [serve_byData hr]
    simp only [opened, Filter.decodeData, Filter.validateOrSendError, he]
    exact ⟨rfl, rfl⟩
  | byTrailers chunks => exact absurd hr (hended chunks)

/-- The filter right before it sends the reply to options it can use. -/
def prepared (env : Envoy) (r : Request) (o : ResponseOptions) : Filter where
  effectiveConfig := .ok o
  requestHeadersDump :=
    if o.echoRequestHeaders = true ∧ r.ending = .byHeaders then
      some ("\nRequest Headers:\n" ++ env.dump r.headers)
    else none

theorem serve_of_ok (hended : ∀ chunks, r.ending ≠ .byTrailers chunks)
    (ho : computeEffectiveConfiguration env base r.headers = .ok o) :
    serve env base r = (prepared env r o).sendReply o := by
  cases hr : r.ending with
  | byHeaders =>
    rw [serve_byHeaders hr]
    simp only [Filter.decodeHeaders, Filter.validateOrSendError, ho, prepared, hr, and_true,
      Bool.not_true, Bool.false_eq_true, if_false]
    split <;> rfl
  | byData chunks last =>
    rw [serve_byData hr]
    simp only [opened, Filter.decodeData, Filter.validateOrSendError, ho, prepared, hr,
      reduceCtorEq, and_false, Bool.not_true, Bool.false_eq_true, if_false]
  | byTrailers chunks => exact absurd hr (hended chunks)

theorem validateResponseOptions_iff :
    validateResponseOptions o = true ↔ o.responseHeaders = [] ∨ o.v3ResponseHeaders = [] := by
  unfold validateResponseOptions
  cases o.responseHeaders <;> cases o.v3ResponseHeaders <;> simp

/-- Usable options get their response exactly when they name one list of headers and ask
for no echo of a request with a body. -/
theorem sendReply_prepared_iff :
    ((prepared env r o).sendReply o).aborted = false
        ∧ ((prepared env r o).sendReply o).replies = [configuredReply env o r.headers] ↔
      (o.responseHeaders = [] ∨ o.v3ResponseHeaders = [])
        ∧ (o.echoRequestHeaders = true → r.ending = .byHeaders) := by
  rw [← validateResponseOptions_iff]
  unfold Filter.sendReply applyConfigToResponseHeaders
  by_cases hv : validateResponseOptions o = true
  case neg => simp [hv]
  simp only [hv, if_true, true_and]
  by_cases hecho : o.echoRequestHeaders = true
  case neg => simp [prepared, configuredReply, hecho]
  by_cases hending : r.ending = .byHeaders
  case pos => simp [prepared, configuredReply, hecho, hending]
  -- The bodies differ by the dump, which has at least its first line.
  simp only [prepared, configuredReply, hecho, hending, and_false, if_true, if_false,
    true_implies, iff_false, List.nil_append, List.cons.injEq, Reply.mk.injEq, true_and, and_true,
    Option.getD_none]
  intro hbody
  have hlen := congrArg String.length hbody
  simp only [String.length_append] at hlen
  have hline : 0 < "\nRequest Headers:\n".length := by decide
  have hempty : "".length = 0 := rfl
  omega

end Serve

/-! ## Which requests are answered -/

/-- The filter is there after the request has ended, and has sent one reply, the right one. -/
def AnsweredOnce (env : Envoy) (base : ResponseOptions) (r : Request) : Prop :=
  (serve env base r).aborted = false
    ∧ ∃ reply, (serve env base r).replies = [reply] ∧ Answers env base r.headers reply

section Answered

variable {env : Envoy} {options base o : ResponseOptions} {r : Request}
  (hvalidate : ∀ o, env.validate o = .ok () ↔ FieldRules o)

theorem not_answeredOnce_byTrailers {chunks : List (List UInt8)}
    (h : r.ending = .byTrailers chunks) : ¬ AnsweredOnce env base r := by
  rintro ⟨-, reply, hreply, -⟩
  rw [serve_byTrailers h] at hreply
  cases hreply

theorem oneList_of_accepted (hbase : createFilterFactoryFromProto env options = .ok base) :
    base.responseHeaders = [] ∨ base.v3ResponseHeaders = [] := by
  obtain ⟨-, -, hbase⟩ := bind_ok_iff.mp hbase
  split at hbase
  next hv =>
    cases hbase
    exact validateResponseOptions_iff.mp hv
  next => cases hbase

include hvalidate

/-- The right reply to options that can be used is their response and no other. -/
theorem answers_iff_of_applies {headers : List (String × String)} {reply : Reply}
    (ho : Applies env base headers o) :
    Answers env base headers reply ↔ reply = configuredReply env o headers := by
  have hok := (computeEffectiveConfiguration_ok_iff hvalidate).mpr ho
  constructor
  · intro h
    exact h.configured o ho
  · intro h
    refine ⟨?_, ?_⟩
    · intro hbad
      obtain ⟨m, hm⟩ := (refused_iff hvalidate).mp hbad
      rw [hok] at hm
      cases hm
    · intro o' ho'
      have hok' := (computeEffectiveConfiguration_ok_iff hvalidate).mpr ho'
      rw [hok] at hok'
      cases hok'
      exact h

theorem answeredOnce_of_applies (hended : ∀ chunks, r.ending ≠ .byTrailers chunks)
    (ho : Applies env base r.headers o) :
    AnsweredOnce env base r ↔
      (o.responseHeaders = [] ∨ o.v3ResponseHeaders = [])
        ∧ (o.echoRequestHeaders = true → r.ending = .byHeaders) := by
  unfold AnsweredOnce
  rw [serve_of_ok hended ((computeEffectiveConfiguration_ok_iff hvalidate).mpr ho)]
  simp only [answers_iff_of_applies hvalidate ho, exists_eq_right]
  exact sendReply_prepared_iff

theorem answeredOnce_of_refused (hended : ∀ chunks, r.ending ≠ .byTrailers chunks)
    (hbad : Refused env base r.headers) : AnsweredOnce env base r := by
  obtain ⟨m, hm⟩ := (refused_iff hvalidate).mp hbad
  obtain ⟨halive, hreply⟩ := serve_of_error hended hm
  refine ⟨halive, errorReply m, hreply, fun _ => rfl, ?_⟩
  intro o ho
  rw [(computeEffectiveConfiguration_ok_iff hvalidate).mpr ho] at hm
  cases hm

/-- **Which requests the test server answers**, for options its factory accepts. -/
theorem serve_answers_iff (hbase : createFilterFactoryFromProto env options = .ok base) :
    AnsweredOnce env base r ↔ Answerable env base r := by
  constructor
  · intro h
    have hended : ∀ chunks, r.ending ≠ .byTrailers chunks :=
      fun chunks hr => not_answeredOnce_byTrailers hr h
    refine ⟨hended, ?_, ?_⟩
    · intro json c hv hload hrules
      exact ((answeredOnce_of_applies hvalidate hended (.merged hv hload hrules)).mp h).1
    · intro o ho
      exact ((answeredOnce_of_applies hvalidate hended ho).mp h).2
  · intro h
    cases heff : computeEffectiveConfiguration env base r.headers with
    | error m =>
      have hbad := (refused_iff hvalidate).mpr ⟨m, heff⟩
      exact answeredOnce_of_refused hvalidate h.ended hbad
    | ok o =>
      have ho := (computeEffectiveConfiguration_ok_iff hvalidate).mp heff
      refine (answeredOnce_of_applies hvalidate h.ended ho).mpr ⟨?_, h.noEcho o ho⟩
      -- The factory has looked at the base alone, so what is merged into it is left.
      cases ho with
      | base => exact oneList_of_accepted hbase
      | merged hv hload hrules => exact h.oneList _ _ hv hload hrules

end Answered

/-! ## Requests that are answered, and requests that are not -/

/-- Envoy, as far as it reads these texts. -/
def Envoy.reading (known : List (String × ResponseOptions)) : Envoy where
  loadFromJson json := ((known.find? fun k => k.1 == json).map Prod.snd).elim
    (.error "Unable to parse JSON as proto") .ok
  validate o := if FieldRules o then .ok () else .error "Proto constraint validation failed"
  dump headers := String.join (headers.map fun h => "'" ++ h.1 ++ "', '" ++ h.2 ++ "'\n")

theorem Envoy.reading_validate (known : List (String × ResponseOptions)) (o : ResponseOptions) :
    (Envoy.reading known).validate o = .ok () ↔ FieldRules o := by
  unfold Envoy.reading
  dsimp only
  split <;> simp_all

/-- A size of three bytes, as JSON. -/
def threeBytes : String := "\x7b\"response_body_size\": 3\x7d"

/-- A request with a body that sets the size of the response. -/
def sizedRequest : Request where
  headers := [(":path", "/"), (configHeader, threeBytes)]
  ending := .byData [[1, 2]] []

/-- Envoy, on that text. -/
def readingSize : Envoy := .reading [(threeBytes, { responseBodySize := 3 })]

theorem serve_answers_sizedRequest :
    createFilterFactoryFromProto readingSize {} = .ok {}
      ∧ AnsweredOnce readingSize {} sizedRequest := by
  have hbase : createFilterFactoryFromProto readingSize {} = .ok {} := rfl
  have hvalues : configValues sizedRequest.headers = [threeBytes] := by decide
  have hload : ∀ c, readingSize.loadFromJson threeBytes = .ok c →
      c = { responseBodySize := 3 } := by
    intro c hc
    simpa [readingSize, Envoy.reading] using hc.symm
  refine ⟨hbase, (serve_answers_iff (Envoy.reading_validate _) hbase).mpr ⟨?_, ?_, ?_⟩⟩
  · intro chunks
    simp [sizedRequest]
  · intro json c hv hc _
    obtain rfl : threeBytes = json := by simpa [hvalues] using hv
    rw [hload c hc]
    exact .inl rfl
  · intro o ho hecho
    cases ho with
    | base h => simp at hecho
    | merged h hc _ =>
      obtain rfl := List.singleton_inj.mp (hvalues.symm.trans h)
      rw [hload _ hc] at hecho
      simp [ResponseOptions.mergeFrom] at hecho

/-- A header of the deprecated version, as JSON. -/
def oldHeader : String :=
  "\x7b\"response_headers\": [\x7b\"header\": \x7b\"key\": \"a\", \"value\": \"b\"\x7d\x7d]\x7d"

/-- Envoy, on that text. -/
def readingOld : Envoy :=
  .reading [(oldHeader, { responseHeaders := [{ header := some ⟨"a", "b"⟩ }] })]

/-- A server whose options name a header of version 3. -/
def newHeaderBase : ResponseOptions :=
  { v3ResponseHeaders := [{ header := some ⟨"c", "d"⟩ }] }

/-- The process ends at a header of the other version, nothing answers a request that ends
with trailers, and an echo is missing from the reply to a request with a body. -/
theorem serve_unanswered :
    createFilterFactoryFromProto readingOld newHeaderBase = .ok newHeaderBase
      ∧ (serve readingOld newHeaderBase
          { headers := [(configHeader, oldHeader)], ending := .byHeaders }).aborted = true
      ∧ createFilterFactoryFromProto readingOld { echoRequestHeaders := true }
          = .ok { echoRequestHeaders := true }
      ∧ (serve readingOld { echoRequestHeaders := true }
          { headers := [(":path", "/")], ending := .byTrailers [] }).replies = []
      ∧ (serve readingOld { echoRequestHeaders := true }
          { headers := [(":path", "/")], ending := .byData [] [] }).replies
          = [{ code := 200, body := "" }]
      ∧ configuredReply readingOld { echoRequestHeaders := true } [(":path", "/")]
          = { code := 200, body := "\nRequest Headers:\n':path', '/'\n" } := by
  refine ⟨rfl, ?_, rfl, rfl, ?_, ?_⟩
  · decide
  · decide
  · decide

end Sortie.Engine.TestServer
