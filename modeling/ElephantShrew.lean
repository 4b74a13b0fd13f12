import ElephantShrew.Bpf.ParserAccepts
import ElephantShrew.Bpf.ParserSafety
import ElephantShrew.Bpf.ParserMoreBytes
import ElephantShrew.Bpf.ParserPadding
import ElephantShrew.Bpf.StrippedVlan
import ElephantShrew.Bpf.ObserverAccounting
import ElephantShrew.Bpf.EventSequence
import ElephantShrew.Bpf.InterleavedLaw
import ElephantShrew.Bpf.FlowKey
import ElephantShrew.Bpf.FlowAccounting
import ElephantShrew.Bpf.PolicyDrops
import ElephantShrew.Bpf.Generations
import ElephantShrew.Telemetry.EncoderAgrees
import ElephantShrew.Telemetry.DeliveryLaw
import ElephantShrew.Telemetry.DrainBalance
import ElephantShrew.Telemetry.LifecycleLaw
import ElephantShrew.Telemetry.SinkGaps
import ElephantShrew.Telemetry.SpscOrdersLaw
import ElephantShrew.Tc.Ownership
import ElephantShrew.Tc.SharedSlot
import ElephantShrew.Tc.Coexistence
import ElephantShrew.Store.SlotAccounting
import ElephantShrew.Store.Backlog
import ElephantShrew.Store.Shutdown
import ElephantShrew.Config.RoutingSwitch
import ElephantShrew.Config.ConfigValidity
import ElephantShrew.Config.NumericSettings
import ElephantShrew.Config.CommandLine
import ElephantShrew.Capture.CaptureLaw
import ElephantShrew.Capture.Startable
import ElephantShrew.Capture.Recording
import ElephantShrew.Capture.SupervisorLaw
import ElephantShrew.Capture.Bridge
import ElephantShrew.Capture.PersistenceLaw
import ElephantShrew.ThreadPool.Progress
import ElephantShrew.ThreadPool.Destruction
