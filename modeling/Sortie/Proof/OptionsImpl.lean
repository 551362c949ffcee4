import Sortie.Engine.OptionsImpl

/-!
# How the constructor of the options ends

Two things matter to the service that calls it: what the exceptions can be, since only
a `MalformedArgvException` is caught, and whether the empty `tunnel_tls_context_` is
reached. Everything after the tunnel fails in a way that `Ends` lists; the tunnel is
the only place where an empty optional is dereferenced.
-/

namespace Sortie.Engine.OptionsImpl

open Proto Api Checks

variable {env : Outside} {o : CommandLineOptions} {m : Members}

/-- A `MalformedArgvException`, or an exception that the validation of the message which the members
make lets through. -/
def Ends (env : Outside) (m : Members) (e : BuildError) : Prop :=
  (∃ text, e = .malformed text) ∨ ∃ text message, e = .threw text
    ∧ m.toCommandLineOptions = .ok message ∧ env.validate message = .error (.other text)

namespace Members

theorem check_ends {ok : Bool} {text : String} : FailsWith (Ends env m) (check ok text) :=
  FailsWith.require (Or.inl ⟨text, rfl⟩)

theorem validateGrpc_ends : FailsWith (Ends env m) m.validateGrpc :=
  check_ends.bind fun _ => check_ends.bind fun _ => check_ends

theorem validateWebsocket_ends : FailsWith (Ends env m) m.validateWebsocket :=
  check_ends.bind fun _ => check_ends.bind fun _ => check_ends

theorem validateStreams_ends : FailsWith (Ends env m) m.validateStreams :=
  check_ends.bind fun _ => check_ends.bind fun _ => check_ends.bind fun _ => check_ends.bind
    fun _ => check_ends.bind fun _ => check_ends.bind fun _ => check_ends.bind fun _ =>
      check_ends.bind fun _ => check_ends

theorem validateUdp_ends : FailsWith (Ends env m) m.validateUdp :=
  check_ends.bind fun _ => check_ends.bind fun _ => check_ends.bind fun _ => check_ends.bind
    fun _ => check_ends.bind fun _ => check_ends

theorem validateTcp_ends : FailsWith (Ends env m) m.validateTcp :=
  check_ends.bind fun _ => check_ends.bind fun _ => check_ends.bind fun _ => check_ends.bind
    fun _ => check_ends

theorem validateRequestSource_ends : FailsWith (Ends env m) (m.validateRequestSource env) :=
  check_ends.onlyIf

theorem validateTarget_ends : FailsWith (Ends env m) (m.validateTarget env) := by
  unfold validateTarget
  cases m.uri with
  | none => exact check_ends.bind fun _ => check_ends
  | some uri =>
    exact check_ends.bind fun _ => validateUdp_ends.onlyIf.bind fun _ =>
      validateTcp_ends.onlyIf.bind fun _ => check_ends

theorem splitHeader_ends (header : String) : FailsWith (Ends env m) (splitHeader header) := by
  unfold splitHeader
  split
  · exact FailsWith.error (Or.inl ⟨_, rfl⟩)
  · split
    · exact FailsWith.error (Or.inl ⟨_, rfl⟩)
    · exact FailsWith.ok _

theorem requestChoice_ends : FailsWith (Ends env m) m.requestChoice := by
  unfold requestChoice
  split
  · exact FailsWith.ok _
  · split
    · exact FailsWith.ok _
    · exact (FailsWith.mapM splitHeader_ends _).bind fun _ => FailsWith.ok _

theorem validateMessage_ends : FailsWith (Ends env m) (m.validateMessage env) := by
  have hwritten : FailsWith (Ends env m) m.toCommandLineOptions :=
    requestChoice_ends.bind fun _ => FailsWith.ok _
  unfold validateMessage
  cases hm : m.toCommandLineOptions with
  | error e => exact FailsWith.error (hwritten e hm)
  | ok message =>
    refine FailsWith.mapError fun e he => ?_
    cases e with
    | proto text => exact Or.inl ⟨text, rfl⟩
    | other text => exact Or.inr ⟨text, message, rfl, hm, he⟩

theorem validate_ends : FailsWith (Ends env m) (m.validate env) := by
  have hconcurrency : FailsWith (Ends env m) ((checkConcurrency m.shape).mapError .malformed) :=
    FailsWith.mapError fun text _ => Or.inl ⟨text, rfl⟩
  refine check_ends.bind fun _ => ?_
  refine validateGrpc_ends.onlyIf.bind fun _ => ?_
  refine validateWebsocket_ends.onlyIf.bind fun _ => ?_
  refine validateStreams_ends.onlyIf.bind fun _ => ?_
  refine check_ends.bind fun _ => ?_
  refine hconcurrency.bind fun _ => ?_
  exact validateRequestSource_ends.bind fun _ => validateTarget_ends.bind fun _ =>
    validateMessage_ends

theorem readLimiter_ends {m' : Members} : FailsWith (Ends env m') (m.readLimiter o) := by
  unfold readLimiter
  split
  · exact FailsWith.ok _
  · have hcheck : ∀ ok text, FailsWith (Ends env m') (require ok (BuildError.malformed text)) :=
      fun _ text => FailsWith.require (Or.inl ⟨text, rfl⟩)
    exact (hcheck _ _).bind fun _ => (hcheck _ _).bind fun _ => FailsWith.ok _

/-- Nothing before the tunnel fills its context. -/
theorem tunnelTlsContext_beforeTunnel (o : CommandLineOptions) :
    (beforeTunnel o).tunnelTlsContext = none := by
  have h1 : (({} : Members).readLoad o).tunnelTlsContext = none := rfl
  have h2 :
      ∀ m : Members, m.tunnelTlsContext = none → (m.readTarget o).tunnelTlsContext = none := by
    intro m hm
    unfold readTarget
    split <;> exact hm
  have h3 : ∀ m : Members, m.tunnelTlsContext = none →
      ((m.readGrpcStream o).readTcp o).tunnelTlsContext = none := by
    intro m hm
    unfold readGrpcStream readTcp
    split <;> split <;> exact hm
  have h4 : ∀ m : Members, m.tunnelTlsContext = none →
      ((m.readUdp o).readWebsocket o).tunnelTlsContext = none := by
    intro m hm
    unfold readUdp readWebsocket
    split <;> split <;> exact hm
  have h5 : ∀ m : Members, m.tunnelTlsContext = none →
      ((m.defaultProtocol o).readProcess o).tunnelTlsContext = none := by
    intro m hm
    unfold defaultProtocol
    split <;> exact hm
  exact h5 _ (h4 _ (h3 _ (h2 _ h1)))

end Members

/-- Options with a tunnel are never built. -/
theorem tunnelOptions_of_construct (h : construct env o = .ok m) : o.tunnelOptions = none := by
  cases ht : o.tunnelOptions with
  | none => rfl
  | some t =>
    obtain ⟨_, h, -⟩ := bind_ok_iff.mp h
    unfold Members.readTunnel at h
    rw [ht] at h
    obtain ⟨_, -, h⟩ := bind_ok_iff.mp h
    simp only [Members.tunnelTlsContext_beforeTunnel] at h
    cases h

end Sortie.Engine.OptionsImpl
