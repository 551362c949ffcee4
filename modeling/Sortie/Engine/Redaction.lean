import Sortie.Engine.Messages
import Sortie.Engine.ProcessBootstrap

/-!
# Copies fit for a log line

engine/source/client/redaction.cc: the copies of a request, of a response and of a
bootstrap that the engine logs. Each of the three looks for TLS contexts in its own
places, and `redactPrivateKeys` does the rest.
-/

namespace Sortie.Engine

open Proto Api

/-- `inline_bytes()`, which is empty unless it is set. -/
def inlineBytes : DataSource → List UInt8
  | .inlineBytes b => b
  | _ => []

/-- `inline_string()`, which is empty unless it is set. -/
def inlineString : DataSource → String
  | .inlineString s => s
  | _ => ""

/-- `specifier_case() == kInlineBytes`. -/
def hasInlineBytes : DataSource → Bool
  | .inlineBytes _ => true
  | _ => false

/-- What stands in for a key of that size. -/
def redactedNote (size : Nat) : DataSource :=
  .inlineString ("<redacted: " ++ toString size ++ " bytes>")

/-- Either inline form; a filename is not a secret. -/
def redactKey (key : DataSource) : DataSource :=
  let size := if hasInlineBytes key then (inlineBytes key).length
    else (inlineString key).utf8ByteSize
  if 0 < size then redactedNote size else key

/-- `redactPrivateKeys`. -/
def redactPrivateKeys (context : TlsContext) : TlsContext :=
  { context with
    tlsCertificates := context.tlsCertificates.map fun certificate =>
      { certificate with privateKey := certificate.privateKey.map redactKey } }

/-- The options of a message, with the keys of their `tls_context` redacted. -/
def redactTlsContext (o : CommandLineOptions) : CommandLineOptions :=
  { o with tlsContext := o.tlsContext.map redactPrivateKeys }

/-- `redactedForLog` of an `ExecutionRequest`. -/
def redactedRequest : ServiceImpl.Message → ServiceImpl.Message
  | .start r => .start { r with options := redactTlsContext r.options }
  | m => m

/-- `Output`, by the options it echoes. -/
structure EchoedOutput where
  options : Option CommandLineOptions
  /-- everything else in it -/
  rest : Opaque := []

/-- `ExecutionResponse`, by the output in it. -/
structure ExecutionResponse where
  output : Option EchoedOutput
  /-- everything else in it -/
  rest : Opaque := []

/-- `redactedForLog` of an `ExecutionResponse`. -/
def redactedResponse (r : ExecutionResponse) : ExecutionResponse :=
  { r with
    output := r.output.map fun output =>
      { output with options := output.options.map redactTlsContext } }

/-- The configuration of a transport socket: TLS, or QUIC wrapping TLS. A QUIC configuration is
given a context when it has none. -/
def redactSocketConfig : SocketConfig → SocketConfig
  | .tls context => .tls (redactPrivateKeys context)
  | .quic context rest => .quic (some (redactPrivateKeys (context.getD {}))) rest
  | .other typeUrl bytes => .other typeUrl bytes

/-- The transport socket of a cluster. -/
def redactSocket (socket : TransportSocket) : TransportSocket :=
  { socket with typedConfig := socket.typedConfig.map redactSocketConfig }

/-- `redactedForLog` of a `Bootstrap`. -/
def redactedBootstrap (b : Bootstrap) : Bootstrap :=
  { b with
    clusters := b.clusters.map fun cluster =>
      { cluster with transportSocket := cluster.transportSocket.map redactSocket } }

end Sortie.Engine
