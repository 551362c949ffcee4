import Sortie.Proof.ClosedLoop
import Sortie.Proof.Answered
import Sortie.Proof.Admission
import Sortie.Proof.TimeShape
import Sortie.Proof.Stalled
import Sortie.Proof.Complete
import Sortie.Proof.Remote
import Sortie.Proof.Sequencer
import Sortie.Proof.GrpcCalls
import Sortie.Proof.TcpClient
import Sortie.Proof.WebSocketEcho
import Sortie.Proof.StreamPlans
import Sortie.Proof.TestServer
import Sortie.Proof.UdpClient
import Sortie.Proof.RequestStream
import Sortie.Proof.WebSocketChunks
import Sortie.Proof.BackendOrder
import Sortie.Proof.WeightedStages
import Sortie.Proof.Defaults
import Sortie.Proof.Names
import Sortie.Proof.ResultsStream
import Sortie.Proof.Deadline
import Sortie.Proof.Redaction
import Sortie.Proof.Client
import Sortie.Proof.SequencerLimiter
