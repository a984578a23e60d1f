import Rda.Wire
import Rda.Control
import Rda.ControlCodec
import Rda.ControlFraming
import Rda.Machine
import Rda.Caps
import Rda.Primitives
import Rda.Identity
import Rda.Binding
import Rda.Pake
import Rda.Token
import Rda.Grant
import Rda.HostSession
import Rda.HostSessionInv
import Rda.HostSessionConsent
import Rda.HostSessionBook
import Rda.HostSessionPin
import Rda.HostSessionBinding
import Rda.TokenRoundTrip
import Rda.TokenHost
import Rda.Program
import Rda.Signaling
import Rda.Handshake
import Rda.HandshakeHost
import Rda.HandshakeController
import Rda.HandshakeAgreement
import Rda.Negotiate
import Rda.NegotiateReady
import Rda.NegotiateCandidates
import Rda.Serve
import Rda.ServeWait
import Rda.FixedWindow
import Rda.MalformedCounter
import Rda.InputGuard
import Rda.RateWindow
import Rda.Injector
import Rda.InjectorGuards
import Rda.InjectorHeld
import Rda.InjectorStrokes
import Rda.InjectorFailure
import Rda.KeyReconciliation
import Rda.Windows
import Rda.Video
import Rda.Reassembly
import Rda.ReassemblyTransport
import Rda.ReassemblyBounds
import Rda.JitterBuffer
import Rda.JitterPlayout
import Rda.JitterAccount
import Rda.JitterRepeats
import Rda.Stream
import Rda.StreamPointer
import Rda.SequenceTracker
import Rda.SequenceCount
import Rda.Serial
import Rda.LossAccount
import Rda.StreamLoss
import Rda.Capture
import Rda.Convert
import Rda.Encoder
import Rda.Rate
import Rda.Ladder
import Rda.LadderPressure
import Rda.Pipeline
import Rda.PipelineAgreement
import Rda.PipelineRecovery
import Rda.PipelineReferences
import Rda.PipelineSuppression
import Rda.LastPicture
import Rda.Viewer
import Rda.InputLink
import Rda.InputLinkModifiers
import Rda.Dial
import Rda.ServeRetry
import Rda.NegotiateIsolation
import Rda.SignalMessages
import Rda.SignalAuth
import Rda.SignalRegistry
import Rda.SignalServer
import Rda.SignalRouting
import Rda.SignalPresence
import Rda.SignalRefusal
import Rda.SignalSessions
import Rda.DomainSeparation
import Rda.ControlClip
import Rda.AnnexB
import Rda.AnnexBDetection
import Rda.ConvertIndexed
import Rda.ConvertSafety
import Rda.ConvertScale
import Rda.PointerMapping
import Rda.InputEncoder
import Rda.InputEncoderAccept
import Rda.InputEncoderFlush
import Rda.InputEncoderNumbers
import Rda.InputEncoderRate
import Rda.SortedBy
import Rda.Relay
import Rda.LinkSim
import Rda.LinkConservation
import Rda.Bottleneck
import Rda.LinkQueue
import Rda.EarlyFrames
import Rda.FingerprintText
import Rda.DeviceIdText
import Rda.QosReports
import Rda.Until
import Rda.StreamDrain
import Rda.MacosCapturer
import Rda.CaptureThread
import Rda.FloatingPoint
import Rda.SlidingWindow
import Rda.Telemetry
import Rda.BitrateEstimator
import Rda.LinkPolicy
import Rda.HostLink
import Rda.VideoIntegrity
import Rda.VideoPath
import Rda.VideoToolbox
import Rda.SignalClient
import Rda.Registration
