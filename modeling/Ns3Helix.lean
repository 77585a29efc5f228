import Ns3Helix.TransitionSystem
import Ns3Helix.InteractionProgram
import Ns3Helix.CounterMap
import Ns3Helix.ObjectAggregation
import Ns3Helix.SocketInterface
import Ns3Helix.RustInterface
import Ns3Helix.SocketImpl
import Ns3Helix.SocketMachine
import Ns3Helix.SocketSteps
import Ns3Helix.SocketTransparency
import Ns3Helix.SocketHistory
import Ns3Helix.NullCallback
import Ns3Helix.InheritedState
import Ns3Helix.SocketSimulation
import Ns3Helix.SocketCalls
import Ns3Helix.FunctionStack
import Ns3Helix.RustOutput
import Ns3Helix.HelixStack
import Ns3Helix.StackMachine
import Ns3Helix.StackInvariant
import Ns3Helix.StackSteps
import Ns3Helix.StackWiring
import Ns3Helix.StackIsolation
import Ns3Helix.SetUpVerdict
import Ns3Helix.HelixSystem
import Ns3Helix.SystemSteps
import Ns3Helix.SocketRegistry
import Ns3Helix.Disposal
import Ns3Helix.SetUpSafety
import Ns3Helix.SocketPlacement
import Ns3Helix.SystemProjection
import Ns3Helix.SystemRealization
import Ns3Helix.SocketIntegrity
import Ns3Helix.LargeTransfer
import Ns3Helix.TransferRuns
import Ns3Helix.TransferCalls
import Ns3Helix.TransferProgress
import Ns3Helix.TransferStream
import Ns3Helix.TransferRecursion
import Ns3Helix.TransferClosing
import Ns3Helix.HelixExample
import Ns3Helix.ExampleThread
import Ns3Helix.ExampleSchedule
import Ns3Helix.ExampleSetUp
import Ns3Helix.ExampleCalls
import Ns3Helix.ExampleProgress
