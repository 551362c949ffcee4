import Sortie.Engine.Redaction
import Sortie.Proof.StreamOptions

/-!
# What the log copies hide

Two messages that differ only in the bytes of their private keys should look the same
wherever they are printed. `Alike` relates such messages, position by position, and
`Hides` says of a function that it does not tell related values apart; it passes through
options and lists, so each redaction is taken apart in the way it walks its message.

The bootstrap is safe: whatever socket a cluster is given, its context is redacted. The
options themselves are not. `Redacted`, and the copies of requests and responses, look
into `tls_context` alone, so a key in the options' own transport socket or in those of a
tunnel is printed as it is.
-/

namespace Sortie.Proof

open Proto Api Engine OptionsImpl Checks

/-! ## Functions that do not tell related values apart -/

section Hides

variable {α β : Type}

/-- Related values have the same image. -/
def Hides (r : α → α → Prop) (f : α → β) : Prop := ∀ x y, r x y → f x = f y

variable {r : α → α → Prop}

theorem Hides.option {f : α → β} (h : Hides r f) :
    Hides (Option.Rel r) (Option.map f) := by
  intro x y hxy
  cases hxy with
  | some hr => exact congrArg some (h _ _ hr)
  | none => rfl

theorem Hides.list {f : α → β} (h : Hides r f) :
    Hides (List.Forall₂ r) (List.map f) := by
  intro xs ys hxy
  induction hxy with
  | nil => rfl
  | cons hr _ ih => rw [List.map_cons, List.map_cons, h _ _ hr, ih]

theorem rel_map {f : α → α} (h : ∀ x, r x (f x)) : ∀ x : Option α, Option.Rel r x (x.map f)
  | none => .none
  | some x => .some (h x)

theorem rel_self (h : ∀ x, r x x) (x : Option α) : Option.Rel r x x := by
  simpa using rel_map h x

/-- Where related values are equal, related options are. -/
theorem eq_of_rel {x y : Option α} (h : Option.Rel r x y)
    (heq : ∀ a, x = some a → ∀ b, r a b → a = b) : x = y := by
  cases h with
  | some hr => rw [heq _ rfl _ hr]
  | none => rfl

end Hides

/-! ## Messages that differ in their keys -/

/-- Two data sources with the same content, up to inline bytes of one length. -/
def SameKey : DataSource → DataSource → Prop
  | .inlineBytes b, .inlineBytes b' => b.length = b'.length
  | .inlineString s, .inlineString s' => s.utf8ByteSize = s'.utf8ByteSize
  | d, d' => d = d'

structure CertificateAlike (c c' : TlsCertificate) : Prop where
  chain : c.certificateChain = c'.certificateChain
  key : Option.Rel SameKey c.privateKey c'.privateKey
  rest : c.rest = c'.rest

structure ContextAlike (c c' : TlsContext) : Prop where
  trustedCa : c.trustedCa = c'.trustedCa
  certificates : List.Forall₂ CertificateAlike c.tlsCertificates c'.tlsCertificates
  alpn : c.alpnProtocols = c'.alpnProtocols
  sni : c.sni = c'.sni
  rest : c.rest = c'.rest

inductive ConfigAlike : SocketConfig → SocketConfig → Prop where
  | tls {c c'} (h : ContextAlike c c') : ConfigAlike (.tls c) (.tls c')
  | quic {c c' rest} (h : Option.Rel ContextAlike c c') : ConfigAlike (.quic c rest) (.quic c' rest)
  | other {typeUrl bytes} : ConfigAlike (.other typeUrl bytes) (.other typeUrl bytes)

structure SocketAlike (s s' : TransportSocket) : Prop where
  name : s.name = s'.name
  config : Option.Rel ConfigAlike s.typedConfig s'.typedConfig

structure TunnelAlike (t t' : TunnelOptions) : Prop where
  uri : t.tunnelUri = t'.tunnelUri
  protocol : t.tunnelProtocol = t'.tunnelProtocol
  context : Option.Rel ContextAlike t.tunnelTlsContext t'.tunnelTlsContext

/-- The options differ only in the bytes of inline private keys. -/
structure Alike (o o' : CommandLineOptions) : Prop where
  tls : Option.Rel ContextAlike o.tlsContext o'.tlsContext
  socket : Option.Rel SocketAlike o.transportSocket o'.transportSocket
  tunnel : Option.Rel TunnelAlike o.tunnelOptions o'.tunnelOptions
  others : o' =
    { o with
      tlsContext := o'.tlsContext
      transportSocket := o'.transportSocket
      tunnelOptions := o'.tunnelOptions }

theorem sameKey_self (d : DataSource) : SameKey d d := by cases d <;> rfl

theorem certificateAlike_self (c : TlsCertificate) : CertificateAlike c c :=
  ⟨rfl, rel_self sameKey_self _, rfl⟩

theorem contextAlike_self (c : TlsContext) : ContextAlike c c :=
  ⟨rfl, List.forall₂_same.mpr fun c _ => certificateAlike_self c, rfl, rfl, rfl⟩

theorem tunnelAlike_self (t : TunnelOptions) : TunnelAlike t t :=
  ⟨rfl, rfl, rel_self contextAlike_self _⟩

/-! ## What the redaction of a context hides -/

/-- The bytes a data source carries inline. -/
def inlineSize : DataSource → Nat
  | .inlineBytes b => b.length
  | .inlineString s => s.utf8ByteSize
  | _ => 0

theorem redactKey_eq (d : DataSource) :
    redactKey d = if 0 < inlineSize d then redactedNote (inlineSize d) else d := by
  cases d <;> rfl

variable {d d' : DataSource} {o o' : CommandLineOptions} {m m' : Members} {c c' : TlsContext}

theorem SameKey.size (h : SameKey d d') : inlineSize d = inlineSize d' := by
  cases d <;> cases d' <;> first | exact h | exact congrArg inlineSize h

/-- Without bytes there is nothing to differ in. -/
theorem SameKey.eq_of_empty (h : SameKey d d') (hd : inlineSize d = 0) :
    d = d' := by
  have hd' : inlineSize d' = 0 := h.size ▸ hd
  cases d with
  | inlineBytes b =>
    cases d' with
    | inlineBytes b' => rw [List.length_eq_zero_iff.mp hd, List.length_eq_zero_iff.mp hd']
    | _ => exact absurd h nofun
  | inlineString s =>
    cases d' with
    | inlineString s' =>
      rw [String.utf8ByteSize_eq_zero_iff.mp hd, String.utf8ByteSize_eq_zero_iff.mp hd']
    | _ => exact absurd h nofun
  | filename f => cases d' <;> exact h
  | environmentVariable v => cases d' <;> exact h
  | unset => cases d' <;> exact h

theorem hides_redactKey : Hides SameKey redactKey := by
  intro d d' h
  rw [redactKey_eq, redactKey_eq, ← h.size]
  split
  · rfl
  · exact h.eq_of_empty (by omega)

theorem hides_redactPrivateKeys : Hides ContextAlike redactPrivateKeys := by
  intro c c' h
  have hcertificates : Hides CertificateAlike fun certificate : TlsCertificate =>
      { certificate with privateKey := certificate.privateKey.map redactKey } := by
    intro x y hxy
    dsimp only
    rw [hides_redactKey.option _ _ hxy.key, hxy.chain, hxy.rest]
  unfold redactPrivateKeys
  rw [hcertificates.list _ _ h.certificates, h.trustedCa, h.alpn, h.sni, h.rest]

theorem hides_redactSocket : Hides SocketAlike redactSocket := by
  have hconfig : Hides ConfigAlike redactSocketConfig := by
    intro c c' h
    cases h with
    | tls h => exact congrArg SocketConfig.tls (hides_redactPrivateKeys _ _ h)
    | quic h =>
      cases h with
      | some h =>
        exact congrArg (SocketConfig.quic · _) (congrArg some (hides_redactPrivateKeys _ _ h))
      | none => rfl
    | other => rfl
  intro s s' h
  unfold redactSocket
  rw [hconfig.option _ _ h.config, h.name]

/-- Both languages show a key in the same way. -/
theorem redactedKey_eq (d : DataSource) : Compile.redactedKey d = redactKey d := by
  cases d <;> simp [Compile.redactedKey, redactKey, hasInlineBytes, Engine.inlineBytes,
    Engine.inlineString, redactedNote]

theorem redacted_eq (o : CommandLineOptions) : Compile.redacted o = redactTlsContext o := by
  have hkey : Compile.redactedKey = redactKey := funext redactedKey_eq
  unfold Compile.redacted redactTlsContext redactPrivateKeys
  rw [hkey]

/-! ## Bootstraps -/

/-- The members of two `OptionsImpl` that differ only in keys. -/
structure MembersAlike (m m' : Members) : Prop where
  tls : ContextAlike m.tlsContext m'.tlsContext
  socket : Option.Rel SocketAlike m.transportSocket m'.transportSocket
  others : m' = { m with tlsContext := m'.tlsContext, transportSocket := m'.transportSocket }

theorem membersAlike_of_construct {env : Outside}
    (h : Alike o o') (hm : construct env o = .ok m) (hm' : construct env o' = .ok m') :
    MembersAlike m m' := by
  obtain ⟨-, -, rfl, -⟩ := construct_ok_iff.mp hm
  obtain ⟨-, -, rfl, -⟩ := construct_ok_iff.mp hm'
  refine ⟨?_, h.socket, ?_⟩
  · change ContextAlike (o.tlsContext.getD {}) (o'.tlsContext.getD {})
    have htls := h.tls
    generalize o.tlsContext = c at htls
    generalize o'.tlsContext = c' at htls
    cases htls with
    | some hc => exact hc
    | none => exact contextAlike_self {}
  · rw [h.others]
    rfl

theorem ContextAlike.setSni (h : ContextAlike c c') (sni : String) :
    ContextAlike (if sni = "" then c else { c with sni })
      (if sni = "" then c' else { c' with sni }) := by
  split
  · exact h
  · exact ⟨h.trustedCa, h.certificates, h.alpn, rfl, h.rest⟩

theorem ContextAlike.addAlpn (h : ContextAlike c c') (protocol : String) :
    ContextAlike { c with alpnProtocols := c.alpnProtocols ++ [protocol] }
      { c' with alpnProtocols := c'.alpnProtocols ++ [protocol] } :=
  ⟨h.trustedCa, h.certificates, congrArg (· ++ [protocol]) h.alpn, h.sni, h.rest⟩

/-- A socket of the user's own is taken as it is, and one for the `tls_context` keeps its keys. -/
theorem createTransportSocket_alike (h : MembersAlike m m')
    (uris : List ResolvedUri) :
    SocketAlike (m.createTransportSocket uris) (m'.createTransportSocket uris) := by
  obtain ⟨htls, hsocket, hothers⟩ := h
  generalize m'.tlsContext = tls at *
  generalize m'.transportSocket = socket at *
  subst hothers
  unfold Members.createTransportSocket
  cases hm : m.transportSocket with
  | some s =>
    rw [hm] at hsocket
    cases hsocket with
    | some hs => exact hs
  | none =>
    rw [hm] at hsocket
    cases hsocket
    have hcontext := htls.setSni (m.computeSniHost uris)
    dsimp only
    split
    · exact ⟨rfl, .some (.tls hcontext)⟩
    · change SocketAlike (if m.httpProtocol = _ then _ else _) (if m.httpProtocol = _ then _ else _)
      split
      · exact ⟨rfl, .some (.tls (hcontext.addAlpn _))⟩
      · change SocketAlike (if m.httpProtocol = _ then _ else _)
          (if m.httpProtocol = _ then _ else _)
        split
        · exact ⟨rfl, .some (.quic (.some (hcontext.addAlpn _)))⟩
        · exact ⟨rfl, .some (.tls (hcontext.addAlpn _))⟩

/-- A cluster as `redactedBootstrap` leaves it. -/
def redactCluster (c : Cluster) : Cluster :=
  { c with transportSocket := c.transportSocket.map redactSocket }

theorem workerClusters_hidden (h : MembersAlike m m') (targets : Targets)
    (worker : Nat) :
    (m.workerClusters targets worker).map redactCluster
      = (m'.workerClusters targets worker).map redactCluster := by
  have hsocket := hides_redactSocket _ _ (createTransportSocket_alike h targets.uris)
  have hneed : m.needTransportSocket targets.uris = m'.needTransportSocket targets.uris := by
    have hsome : m.transportSocket.isSome = m'.transportSocket.isSome := by
      have hrel := h.socket
      generalize m.transportSocket = s at hrel
      generalize m'.transportSocket = s' at hrel
      cases hrel <;> rfl
    unfold Members.needTransportSocket
    rw [hsome]
  have hcluster : ∀ uris, m.createNighthawkClusterForWorker uris worker
      = m'.createNighthawkClusterForWorker uris worker := by
    intro uris
    rw [h.others]
    rfl
  have hsource : ∀ source, m.createRequestSourceClusterForWorker source worker
      = m'.createRequestSourceClusterForWorker source worker := by
    intro source
    rw [h.others]
    rfl
  have htunnel : m.tunnelUri = m'.tunnelUri := by rw [h.others]
  have hsourceAll : (fun source => m.createRequestSourceClusterForWorker source worker)
      = fun source => m'.createRequestSourceClusterForWorker source worker := funext hsource
  unfold Members.workerClusters
  simp only [List.map_cons, hcluster, hsourceAll, htunnel, hneed, redactCluster]
  cases m'.needTransportSocket targets.uris with
  | false => rfl
  | true => simp [hsocket]

/-- **Bootstraps hide the keys**, wherever the options carry them. -/
theorem createBootstrapConfiguration_hidden (h : MembersAlike m m')
    (env : Outside) (dns : Dns) (n : Nat) :
    (m.createBootstrapConfiguration env dns n).map redactedBootstrap
      = (m'.createBootstrapConfiguration env dns n).map redactedBootstrap := by
  have hclusters : ∀ targets, ((List.range n).flatMap (m.workerClusters targets)).map redactCluster
      = ((List.range n).flatMap (m'.workerClusters targets)).map redactCluster := by
    intro targets
    rw [List.map_flatMap, List.map_flatMap]
    exact List.flatMap_congr fun worker _ => workerClusters_hidden h targets worker
  have htargets : m.extractAndResolveUrisFromOptions env dns
      = m'.extractAndResolveUrisFromOptions env dns := by
    rw [h.others]
    rfl
  have hrest : (m.tunnelUri, m.statsSinks, m.statsFlushIntervalDuration, m.statsFlushInterval,
      m.upstreamBindConfig) = (m'.tunnelUri, m'.statsSinks, m'.statsFlushIntervalDuration,
        m'.statsFlushInterval, m'.upstreamBindConfig) := by
    rw [h.others]
  simp only [Prod.mk.injEq] at hrest
  obtain ⟨htunnel, hsinks, hduration, hinterval, hbind⟩ := hrest
  unfold Members.createBootstrapConfiguration
  rw [htargets, htunnel, hsinks, hduration, hinterval, hbind]
  cases dns.resolver with
  | error e => rfl
  | ok _ =>
    cases m'.extractAndResolveUrisFromOptions env dns with
    | error e => rfl
    | ok targets =>
      by_cases htunnelless : 0 < n ∧ m'.tunnelUri ≠ "" ∧ targets.encap.isNone = true
      · simp only [bind, Except.bind, if_pos htunnelless]
        rfl
      · simp only [bind, Except.bind, if_neg htunnelless]
        exact congrArg (fun clusters => Except.ok (Bootstrap.mk clusters _ _ _))
          (hclusters targets)

/-! ## Options -/

/-- The keys in a context. -/
def contextKeys (c : TlsContext) : List DataSource := c.tlsCertificates.filterMap (·.privateKey)

/-- The context in a transport socket. -/
def socketContext (s : TransportSocket) : Option TlsContext :=
  match s.typedConfig with
  | some (.tls c) => some c
  | some (.quic c _) => c
  | _ => none

/-- The keys outside of `tls_context`. -/
def otherKeys (o : CommandLineOptions) : List DataSource :=
  ((o.transportSocket.bind socketContext).toList
    ++ (o.tunnelOptions.bind TunnelOptions.tunnelTlsContext).toList).flatMap contextKeys

/-- What is printed of the options, or logged of the messages they are in. -/
structure PrintedAlike (o o' : CommandLineOptions) : Prop where
  printed : Compile.redacted o = Compile.redacted o'
  request : ∀ interval, redactedRequest (.start { options := o, progressInterval := interval })
    = redactedRequest (.start { options := o', progressInterval := interval })
  response : ∀ {env m m' w w'}, construct env o = .ok m → construct env o' = .ok m' →
    m.toCommandLineOptions = .ok w → m'.toCommandLineOptions = .ok w' → ∀ rest rest',
      redactedResponse { output := some { options := some w, rest }, rest := rest' }
        = redactedResponse { output := some { options := some w', rest }, rest := rest' }

theorem ContextAlike.eq_of_empty (h : ContextAlike c c')
    (hkeys : ∀ d ∈ contextKeys c, inlineSize d = 0) : c = c' := by
  have hcertificates : c.tlsCertificates = c'.tlsCertificates := by
    have hall := h.certificates
    unfold contextKeys at hkeys
    generalize c.tlsCertificates = xs at hall hkeys
    generalize c'.tlsCertificates = ys at hall
    induction hall with
    | nil => rfl
    | @cons x y xs ys hxy _ ih =>
      have hkey : x.privateKey = y.privateKey := eq_of_rel hxy.key fun d hd _ h =>
        h.eq_of_empty (hkeys d (List.mem_filterMap.mpr ⟨x, List.mem_cons_self, hd⟩))
      have hx : x = y := by
        cases x
        cases y
        obtain ⟨hchain, -, hrest⟩ := hxy
        simp_all
      rw [hx, ih fun d hd => hkeys d ?_]
      obtain ⟨z, hz, hzd⟩ := List.mem_filterMap.mp hd
      exact List.mem_filterMap.mpr ⟨z, List.mem_cons_of_mem _ hz, hzd⟩
  cases c
  cases c'
  obtain ⟨hca, -, halpn, hsni, hrest⟩ := h
  simp_all

theorem ContextAlike.empty_iff (h : ContextAlike c c') : c = {} ↔ c' = {} := by
  obtain ⟨hca, hcertificates, halpn, hsni, hrest⟩ := h
  cases c
  cases c'
  subst hca halpn hsni hrest
  simp only [TlsContext.mk.injEq]
  constructor
  · rintro ⟨hnone, rfl, hothers⟩
    exact ⟨hnone, List.forall₂_nil_left_iff.mp hcertificates, hothers⟩
  · rintro ⟨hnone, rfl, hothers⟩
    exact ⟨hnone, List.forall₂_nil_right_iff.mp hcertificates, hothers⟩

/-- Where the other keys are empty, only `tls_context` can differ. -/
theorem Alike.eq_of_empty (h : Alike o o')
    (hkeys : ∀ d ∈ otherKeys o, inlineSize d = 0) :
    o.transportSocket = o'.transportSocket ∧ o.tunnelOptions = o'.tunnelOptions := by
  have hcontext : ∀ c ∈ (o.transportSocket.bind socketContext).toList
      ++ (o.tunnelOptions.bind TunnelOptions.tunnelTlsContext).toList,
      ∀ c', ContextAlike c c' → c = c' := by
    intro c hc c' hcc'
    exact hcc'.eq_of_empty fun d hd => hkeys d (List.mem_flatMap.mpr ⟨c, hc, hd⟩)
  constructor
  · refine eq_of_rel h.socket fun s hs s' hss' => ?_
    have hin : ∀ c, socketContext s = some c → ∀ c', ContextAlike c c' → c = c' := by
      intro c hc
      refine hcontext c (List.mem_append_left _ (Option.mem_toList.mpr ?_))
      exact Option.bind_eq_some_iff.mpr ⟨s, hs, hc⟩
    have hconfig : s.typedConfig = s'.typedConfig := by
      refine eq_of_rel hss'.config fun config hc config' h => ?_
      cases h with
      | tls h => rw [hin _ (by simp only [socketContext, hc]) _ h]
      | quic h => rw [eq_of_rel h fun c hq => hin c (by simp only [socketContext, hc, hq])]
      | other => rfl
    have hname := hss'.name
    cases s
    cases s'
    simp_all
  · refine eq_of_rel h.tunnel fun t ht t' htt' => ?_
    have hin : t.tunnelTlsContext = t'.tunnelTlsContext := by
      refine eq_of_rel htt'.context fun c hc => hcontext c (List.mem_append_right _ ?_)
      exact Option.mem_toList.mpr (Option.bind_eq_some_iff.mpr ⟨t, ht, hc⟩)
    obtain ⟨huri, hprotocol, -⟩ := htt'
    cases t
    cases t'
    simp_all

/-- With the same sockets and tunnels, the redacted options are the same. -/
theorem redactTlsContext_eq (h : Alike o o')
    (hsocket : o.transportSocket = o'.transportSocket)
    (htunnel : o.tunnelOptions = o'.tunnelOptions) :
    redactTlsContext o = redactTlsContext o' := by
  have htls := hides_redactPrivateKeys.option _ _ h.tls
  have hothers := h.others
  rw [← hsocket, ← htunnel] at hothers
  unfold redactTlsContext
  rw [htls]
  rw [hothers]

/-- What the engine echoes of alike options is alike. -/
theorem toCommandLineOptions_alike (h : MembersAlike m m')
    {w w' : CommandLineOptions} (hw : m.toCommandLineOptions = .ok w)
    (hw' : m'.toCommandLineOptions = .ok w') :
    Alike w w' ∧ w.transportSocket = m.transportSocket ∧ w'.transportSocket = m'.transportSocket
      ∧ w.tunnelOptions = w'.tunnelOptions := by
  obtain ⟨htls, hsocket, hothers⟩ := h
  generalize m'.tlsContext = tls at *
  generalize m'.transportSocket = socket at *
  subst hothers
  obtain ⟨request, hrequest, hw⟩ := bind_ok_iff.mp hw
  obtain ⟨request', hrequest', hw'⟩ := bind_ok_iff.mp hw'
  obtain rfl : request = request' := Except.ok.inj (hrequest.symm.trans hrequest')
  cases hw
  cases hw'
  have hempty := htls.empty_iff
  refine ⟨⟨?_, hsocket, rel_self tunnelAlike_self _, rfl⟩, rfl, rfl, rfl⟩
  by_cases hm : m.tlsContext = {}
  · rw [if_pos hm, if_pos (hempty.mp hm)]
    exact .none
  · rw [if_neg hm, if_neg (mt hempty.mpr hm)]
    exact .some htls

/-! ## Keys that are printed -/

/-- A text of that many bytes that is not `s`. -/
def otherText (s : String) : String :=
  let letters := String.ofList (List.replicate s.utf8ByteSize 'a')
  if s = letters then String.ofList (List.replicate s.utf8ByteSize 'b') else letters

/-- A key of the same size that is another one, unless it is empty. -/
def otherKey : DataSource → DataSource
  | .inlineBytes b => .inlineBytes (b.map (· + 1))
  | .inlineString s => .inlineString (otherText s)
  | d => d

def otherContext (c : TlsContext) : TlsContext :=
  { c with
    tlsCertificates := c.tlsCertificates.map fun certificate =>
      { certificate with privateKey := certificate.privateKey.map otherKey } }

def otherConfig : SocketConfig → SocketConfig
  | .tls c => .tls (otherContext c)
  | .quic c rest => .quic (c.map otherContext) rest
  | .other typeUrl bytes => .other typeUrl bytes

/-- The same options with other keys outside of `tls_context`. -/
def otherOptions (o : CommandLineOptions) : CommandLineOptions :=
  { o with
    transportSocket := o.transportSocket.map fun s =>
      { s with typedConfig := s.typedConfig.map otherConfig }
    tunnelOptions := o.tunnelOptions.map fun t =>
      { t with tunnelTlsContext := t.tunnelTlsContext.map otherContext } }

theorem utf8ByteSize_replicate (n : Nat) {c : Char} (h : c.utf8Size = 1) :
    (String.ofList (List.replicate n c)).utf8ByteSize = n := by
  induction n with
  | zero => rfl
  | succ n ih =>
    rw [List.replicate_succ, String.ofList_cons, String.utf8ByteSize_append,
      String.utf8ByteSize_singleton, ih, h, Nat.add_comm]

theorem utf8ByteSize_otherText (s : String) : (otherText s).utf8ByteSize = s.utf8ByteSize := by
  unfold otherText
  dsimp only
  split
  · exact utf8ByteSize_replicate _ rfl
  · exact utf8ByteSize_replicate _ rfl

theorem sameKey_otherKey (d : DataSource) : SameKey d (otherKey d) := by
  cases d with
  | inlineBytes b => exact (List.length_map _).symm
  | inlineString s => exact (utf8ByteSize_otherText s).symm
  | _ => rfl

theorem size_of_otherKey_eq (h : otherKey d = d) : inlineSize d = 0 := by
  cases d with
  | inlineBytes b =>
    cases b with
    | nil => rfl
    | cons x b =>
      -- a byte is never the next one
      have hx : x + 1 = x := (List.cons.inj (DataSource.inlineBytes.inj h)).1
      simp at hx
  | inlineString s =>
    have hs : otherText s = s := DataSource.inlineString.inj h
    change s.utf8ByteSize = 0
    unfold otherText at hs
    dsimp only at hs
    generalize s.utf8ByteSize = n at hs
    cases n with
    | zero => rfl
    | succ n =>
      split at hs
      · rename_i ha
        have hab := String.ofList_injective (hs.trans ha)
        exact absurd (List.cons.inj hab).1 (by decide)
      · rename_i ha
        exact absurd hs.symm ha
  | _ => rfl

theorem otherContext_alike (c : TlsContext) : ContextAlike c (otherContext c) := by
  refine ⟨rfl, ?_, rfl, rfl, rfl⟩
  exact List.forall₂_map_right_iff.mpr
    (List.forall₂_same.mpr fun certificate _ => ⟨rfl, rel_map sameKey_otherKey _, rfl⟩)

theorem otherConfig_alike : ∀ c : SocketConfig, ConfigAlike c (otherConfig c)
  | .tls c => .tls (otherContext_alike c)
  | .quic c _ => .quic (rel_map otherContext_alike c)
  | .other _ _ => .other

theorem otherOptions_alike (o : CommandLineOptions) : Alike o (otherOptions o) where
  tls := rel_self contextAlike_self _
  socket := rel_map (fun _ => ⟨rfl, rel_map otherConfig_alike _⟩) _
  tunnel := rel_map (fun _ => ⟨rfl, rfl, rel_map otherContext_alike _⟩) _
  others := rfl

/-- A context that other keys do not change has empty ones. -/
theorem empty_of_otherContext_eq (h : otherContext c = c) :
    ∀ d ∈ contextKeys c, inlineSize d = 0 := by
  intro d hd
  obtain ⟨certificate, hmem, hkey⟩ := List.mem_filterMap.mp hd
  have hmap : c.tlsCertificates.map (fun certificate =>
      { certificate with privateKey := certificate.privateKey.map otherKey })
      = c.tlsCertificates.map id := by
    rw [List.map_id]
    exact congrArg TlsContext.tlsCertificates h
  have hone := congrArg TlsCertificate.privateKey (List.map_inj_left.mp hmap certificate hmem)
  rw [id, hkey] at hone
  exact size_of_otherKey_eq (Option.some.inj hone)

/-- Options that other keys do not change have none outside of `tls_context`. -/
theorem empty_of_otherOptions_eq (hsocket : o.transportSocket = (otherOptions o).transportSocket)
    (htunnel : o.tunnelOptions = (otherOptions o).tunnelOptions) :
    ∀ d ∈ otherKeys o, inlineSize d = 0 := by
  intro d hd
  obtain ⟨c, hc, hd⟩ := List.mem_flatMap.mp hd
  refine empty_of_otherContext_eq ?_ d hd
  rcases List.mem_append.mp hc with hc | hc
  · obtain ⟨s, hs, hcontext⟩ := Option.bind_eq_some_iff.mp (Option.mem_toList.mp hc)
    have hconfig : s.typedConfig = s.typedConfig.map otherConfig := by
      have hsame : some s = some { s with typedConfig := s.typedConfig.map otherConfig } := by
        rw [← hs]
        exact hsocket.trans (by unfold otherOptions; rw [hs]; rfl)
      exact congrArg TransportSocket.typedConfig (Option.some.inj hsame)
    unfold socketContext at hcontext
    split at hcontext
    · rename_i own htyped
      rw [htyped] at hconfig
      cases hcontext
      exact (SocketConfig.tls.inj (Option.some.inj hconfig)).symm
    · rename_i own rest htyped
      rw [htyped, hcontext] at hconfig
      exact (Option.some.inj (SocketConfig.quic.inj (Option.some.inj hconfig)).1).symm
    · cases hcontext
  · obtain ⟨t, ht, hcontext⟩ := Option.bind_eq_some_iff.mp (Option.mem_toList.mp hc)
    have hsame :
        some t = some { t with tunnelTlsContext := t.tunnelTlsContext.map otherContext } := by
      rw [← ht]
      exact htunnel.trans (by unfold otherOptions; rw [ht]; rfl)
    have hown := congrArg TunnelOptions.tunnelTlsContext (Option.some.inj hsame)
    rw [hcontext] at hown
    exact (Option.some.inj hown).symm

/-- **What is printed tells nothing of the keys exactly when they are all in `tls_context`**, and
the logged bootstraps never tell anything. -/
theorem printedAlike_iff (o : CommandLineOptions) :
    (∀ o', Alike o o' → ∀ env m m', construct env o = .ok m → construct env o' = .ok m' →
        ∀ dns n, (m.createBootstrapConfiguration env dns n).map redactedBootstrap
          = (m'.createBootstrapConfiguration env dns n).map redactedBootstrap)
      ∧ ((∀ o', Alike o o' → PrintedAlike o o') ↔ ∀ d ∈ otherKeys o, inlineSize d = 0) := by
  refine ⟨fun o' h env m m' hm hm' dns n => createBootstrapConfiguration_hidden
    (membersAlike_of_construct h hm hm') env dns n, fun h => ?_, fun hkeys o' h => ?_⟩
  · have hprinted := (h _ (otherOptions_alike o)).printed
    rw [redacted_eq, redacted_eq] at hprinted
    have hsocket : (redactTlsContext o).transportSocket
        = (redactTlsContext (otherOptions o)).transportSocket := by rw [hprinted]
    have htunnel : (redactTlsContext o).tunnelOptions
        = (redactTlsContext (otherOptions o)).tunnelOptions := by rw [hprinted]
    exact empty_of_otherOptions_eq hsocket htunnel
  · obtain ⟨hsocket, htunnel⟩ := h.eq_of_empty hkeys
    have hsame := redactTlsContext_eq h hsocket htunnel
    refine ⟨by rw [redacted_eq, redacted_eq, hsame], fun interval => ?_, ?_⟩
    · simp only [redactedRequest, hsame]
    · intro env m m' w w' hm hm' hw hw' rest rest'
      obtain ⟨halike, hws, hws', hwt⟩ :=
        toCommandLineOptions_alike (membersAlike_of_construct h hm hm') hw hw'
      have hmsocket : m.transportSocket = m'.transportSocket := by
        obtain ⟨-, -, rfl, -⟩ := construct_ok_iff.mp hm
        obtain ⟨-, -, rfl, -⟩ := construct_ok_iff.mp hm'
        exact hsocket
      have hwsame := redactTlsContext_eq halike (hws.trans (hmsocket.trans hws'.symm)) hwt
      simp only [redactedResponse, Option.map_some, hwsame]

/-- A context with one client certificate and this key. -/
def keyContext (key : List UInt8) : TlsContext :=
  { tlsCertificates :=
      [{ certificateChain := some (.inlineBytes [1]), privateKey := some (.inlineBytes key) }] }

/-- A plan whose one scenario has this template. -/
def templatePlan (template : CommandLineOptions) : Plan where
  version := "v1"
  pools := [{ name := "p", services := ["one:8443"] }]
  scenarios :=
    [{ name := "load", pool := "p", target := "https://127.0.0.1:443/"
       executor := some
         { type := Plan.constantRate, rate := 10, duration := some (.ofMillis 10000) }
       nighthawkTemplate := some template }]

/-- The options that a plan with one scenario and one execution compiles to. -/
def compiledOptions (template : CommandLineOptions) : Option CommandLineOptions :=
  match Plan.parse Go.bare (templatePlan template) with
  | .error _ => none
  | .ok p => match p.scenarios with
    | [s] => match Compile.expand Go.bare s with
      | .ok [e] => some e.options
      | _ => none
    | _ => none

/-- Two keys in `tls_context` are printed alike. -/
theorem printedAlike_tlsContext : ∃ o o',
    compiledOptions { tlsContext := some (keyContext [1, 2]) } = some o
      ∧ compiledOptions { tlsContext := some (keyContext [3, 4]) } = some o'
      ∧ o.tlsContext ≠ o'.tlsContext ∧ PrintedAlike o o' := by
  refine ⟨_, _, rfl, rfl, by decide, (printedAlike_iff _).2.mpr ?_ _
    ⟨.some ⟨rfl, .cons ⟨rfl, .some rfl, rfl⟩ .nil, rfl, rfl, rfl⟩, .none, .none, rfl⟩⟩
  exact fun d hd => absurd hd List.not_mem_nil

/-- A template with a transport socket of its own. -/
def socketTemplate (key : List UInt8) : CommandLineOptions :=
  { transportSocket := some
      { name := "envoy.transport_sockets.tls", typedConfig := some (.tls (keyContext key)) } }

/-- Two keys in a transport socket are printed as they are, by sortie and by the engine. -/
theorem not_printedAlike_transportSocket : ∃ o o' m m' w w',
    compiledOptions (socketTemplate [1, 2]) = some o
      ∧ compiledOptions (socketTemplate [3, 4]) = some o' ∧ Alike o o'
      ∧ (Compile.redacted o).transportSocket = (socketTemplate [1, 2]).transportSocket
      ∧ (Compile.redacted o').transportSocket = (socketTemplate [3, 4]).transportSocket
      ∧ redactedRequest (.start { options := o }) ≠ redactedRequest (.start { options := o' })
      ∧ construct Outside.plain o = .ok m ∧ construct Outside.plain o' = .ok m'
      ∧ m.toCommandLineOptions = .ok w ∧ m'.toCommandLineOptions = .ok w'
      ∧ redactedResponse { output := some { options := some w } }
        ≠ redactedResponse { output := some { options := some w' } } := by
  have hdiffer : (socketTemplate [1, 2]).transportSocket
      ≠ (socketTemplate [3, 4]).transportSocket := by decide
  refine ⟨_, _, _, _, _, _, rfl, rfl,
    ⟨.none, .some ⟨rfl, .some (.tls ⟨rfl, .cons ⟨rfl, .some rfl, rfl⟩ .nil, rfl, rfl, rfl⟩)⟩,
      .none, rfl⟩, rfl, rfl, fun h => hdiffer ?_, rfl, rfl, rfl, rfl, fun h => hdiffer ?_⟩
  · exact congrArg (fun r => r.options.transportSocket) (ServiceImpl.Message.start.inj h)
  · exact congrArg (fun response : ExecutionResponse => response.output.bind fun output =>
      output.options.bind CommandLineOptions.transportSocket) h

end Sortie.Proof
