import Gput.Library.Outcome
import Gput.Library.LittleEndian
import Gput.Library.OpenAddressing
import Gput.Library.ByteString
import Gput.Library.KeyedMachine
import Gput.Library.Tiling
import Gput.Library.GreedyRounds
import Gput.Packet.Wire
import Gput.Library.OnesComplement
import Gput.Packet.Checksum
import Gput.Packet.Engine
import Gput.Packet.FlowSet
import Gput.Packet.Flow
import Gput.Packet.Waves
import Gput.Packet.WaveOrder
import Gput.Packet.GpuBatch
import Gput.Packet.CpuEngine
import Gput.Packet.Handshake
import Gput.Packet.CpuRun
import Gput.Packet.Independence
import Gput.Packet.Accounting
import Gput.Packet.ShaderInput
import Gput.Packet.ShaderClassifier
import Gput.Packet.ShaderTable
import Gput.Packet.ShaderOutput
import Gput.Packet.Shader
import Gput.Packet.Dispatch
import Gput.Packet.EmittedPackets
import Gput.Packet.ShaderRun
import Gput.Packet.Parsing
import Gput.Packet.Emissions
import Gput.Packet.Agreement
import Gput.Packet.Simulation
import Gput.Packet.FlowRun
import Gput.Packet.SynAck
import Gput.Packet.Teardown
import Gput.Packet.Retransmission
import Gput.Packet.PacketEngine
import Gput.Packet.Bench
import Gput.Packet.Lockstep
import Gput.Packet.Daemon
import Gput.Packet.Packetd
import Gput.Packet.WeakClaim
import Gput.Packet.WaveLayout
import Gput.Packet.GpuEngine
import Gput.Packet.Linearized
import Gput.Packet.BatchAgreement
import Gput.Packet.BatchSafety
import Gput.Library.EventMachine
import Gput.Batcher.Machine
import Gput.Batcher.Delivery
import Gput.Library.AsciiText
import Gput.Library.Decimal
import Gput.Library.Delimited
import Gput.Library.WordMemory
import Gput.Library.CheckedLoads
import Gput.Library.SortedRange
import Gput.Http.Response
import Gput.Http.Network
import Gput.Http.Router
import Gput.Http.Request
import Gput.Http.RequestLine
import Gput.Http.Closing
import Gput.Http.Compiled
import Gput.Http.Declared
import Gput.Http.Framing
import Gput.Http.ShaderStrings
import Gput.Http.Shader
import Gput.Http.Processor
import Gput.Http.ShaderWriter
import Gput.Http.WriterRuns
import Gput.Http.Bytecode
import Gput.Http.ShaderTarget
import Gput.Http.ShaderRoutes
import Gput.Http.Invocation
import Gput.Http.Batch
import Gput.Http.CheckedShader
import Gput.Http.ShaderLoads
import Gput.Http.LoadsInRange
import Gput.Http.Lookup
import Gput.Http.Agreement
import Gput.Http.Device
import Gput.Batcher.Returns
import Gput.Batcher.Panic
import Gput.Server.Session
import Gput.Server.Machine
import Gput.Server.Serving
import Gput.Server.Progress
import Gput.Server.Panic
import Gput.Server.Backends
import Gput.Batcher.Overload
import Gput.Server.Capacity
