import Reb.Analysis.Base36Exact
import Reb.Analysis.ByteCodecs
import Reb.Analysis.JsonExact
import Reb.Analysis.JwtRoundTrip
import Reb.Analysis.SnapshotDegradation
import Reb.Capture.EventValidity
import Reb.Capture.JsRecords
import Reb.Capture.WasmAdmission
import Reb.Console.LiveTarget
import Reb.Console.OriginAgreement
import Reb.Debugger.Lifecycle
import Reb.Debugger.PublishedTrace
import Reb.Debugger.UnknownOutcome
import Reb.Evidence.ArtifactRoundTrip
import Reb.Evidence.BodyContains
import Reb.Evidence.EventBrokerBounds
import Reb.Evidence.InitiatorInterleaving
import Reb.Evidence.OriginTraceEdges
import Reb.Evidence.OriginTraceStorage
import Reb.Evidence.RecentExact
import Reb.Evidence.RequestSignalProfile
import Reb.Evidence.RequestSignalValidity
import Reb.Evidence.SequenceGaps
import Reb.Evidence.Sha256
import Reb.Helper.AcceptedReplies
import Reb.Probe.DropConservation
import Reb.Probe.VmDispatchBudget
import Reb.Probe.WakeUpToken
import Reb.Probe.WasmBudgetCap
import Reb.Probe.WasmBudgetInterleaving
import Reb.Theory.FifoMap
import Reb.Theory.Interleaving
import Reb.Theory.Intervals
import Reb.Theory.Word64
import Reb.Vm.LinkedPrefix
import Reb.Worker.AuthoritySound
import Reb.Worker.ObservationAccounting
import Reb.Worker.SanitizedUrl
import Reb.Worker.TransferPublishesOnce
import Reb.Theory.Ipv6
import Reb.Console.CanonicalLiteral
import Reb.Probe.WasmModuleAllowlist
import Reb.Capture.GuestSnapshotExact
import Reb.Console.DocumentStartArmed
import Reb.Analysis.GrpcWebExact
import Reb.Analysis.SnapshotFound
import Reb.Deobfuscator.RequestFraming
import Reb.Helper.RecorderAccounting
import Reb.Backend.VmByteCoverage
import Reb.Backend.VmReachabilitySound
import Reb.Vm.SemanticsPredictKept
import Reb.Vm.SemanticsEffectsExact
import Reb.Analysis.Sha2Standard
import Reb.Backend.VmPackMirror
import Reb.Analysis.Utf8Exact
import Reb.Evidence.EventBrokerRing
import Reb.Probe.WasmBudgetWire
import Reb.Evidence.SocketEventReader
import Reb.Deobfuscator.FolderReceipts
import Reb.Backend.EventQueryPaging
import Reb.Worker.TransferGate
