import JCore.Cache.Announced
import JCore.Cache.Arrivals
import JCore.Cache.Broadcast
import JCore.Cache.Ccl
import JCore.Cache.Commands
import JCore.Cache.Completion
import JCore.Cache.Dcache
import JCore.Cache.DcacheRam
import JCore.Cache.Fetch
import JCore.Cache.Fill
import JCore.Cache.Icache
import JCore.Cache.IcacheAdapter
import JCore.Cache.IcacheCcl
import JCore.Cache.IcacheMcl
import JCore.Cache.IcacheRam
import JCore.Cache.LineFill
import JCore.Cache.Lines
import JCore.Cache.Masks
import JCore.Cache.Mcl
import JCore.Cache.Modes
import JCore.Cache.Pack
import JCore.Cache.Performs
import JCore.Cache.Ram
import JCore.Cache.Ready
import JCore.Cache.Requests
import JCore.Cache.Service
import JCore.Cache.Snoop
import JCore.Cache.Stores
import JCore.Cache.Sync
import JCore.Cache.Traffic
import JCore.Cache.Transparent
import JCore.Cache.WriteMiss
import JCore.Core.Closed
import JCore.Core.ControlFlow
import JCore.Core.Cpu
import JCore.Core.DataMemory
import JCore.Core.Datapath
import JCore.Core.Debug
import JCore.Core.DebugHandshake
import JCore.Core.DebugSession
import JCore.Core.Division
import JCore.Core.Events
import JCore.Core.Execute
import JCore.Core.FromReset
import JCore.Core.Front
import JCore.Core.Implements
import JCore.Core.Latency
import JCore.Core.Locked
import JCore.Core.MacPath
import JCore.Core.Multiword
import JCore.Core.Process
import JCore.Core.Progress
import JCore.Core.Program
import JCore.Core.Reads
import JCore.Core.RegisterFile
import JCore.Core.RegisterFlops
import JCore.Core.RegisterPath
import JCore.Core.Sequential
import JCore.Core.Startup
import JCore.Core.Dispatched
import JCore.Core.StatusRegister
import JCore.Core.Transactions
import JCore.Decode.Branches
import JCore.Decode.Core
import JCore.Decode.Decoder
import JCore.Decode.DelaySlot
import JCore.Decode.Digits
import JCore.Decode.Entry
import JCore.Decode.Events
import JCore.Decode.Instructions
import JCore.Decode.Locked
import JCore.Decode.MacLines
import JCore.Decode.Pipeline
import JCore.Decode.Predecode
import JCore.Decode.Rom
import JCore.Decode.Sequencing
import JCore.Decode.Table
import JCore.Gen.Agreement
import JCore.Gen.Conditions
import JCore.Gen.IllegalSlot
import JCore.Gen.Interface
import JCore.Gen.Logic
import JCore.Gen.Overlap
import JCore.Gen.Placement
import JCore.Gen.Predecode
import JCore.Gen.Relaxation
import JCore.Gen.Rom
import JCore.Gen.RomLines
import JCore.Gen.Tables
import JCore.Isa.Instr
import JCore.Isa.Line
import JCore.Isa.Machine
import JCore.Isa.Memory
import JCore.Isa.Moves
import JCore.Isa.Registers
import JCore.Isa.Units
import JCore.Lib.Backlog
import JCore.Lib.BitString
import JCore.Lib.Bits
import JCore.Lib.Blocks
import JCore.Lib.Buffer
import JCore.Lib.ByteMemory
import JCore.Lib.Clamp
import JCore.Lib.Crossing
import JCore.Lib.Cubes
import JCore.Lib.Folds
import JCore.Lib.Handshake
import JCore.Lib.Limbs
import JCore.Lib.NonRestoring
import JCore.Lib.Notices
import JCore.Lib.Region
import JCore.Lib.Round
import JCore.Lib.Trace
import JCore.Lib.WriteLog
import JCore.Mult.Accumulate
import JCore.Mult.Arith
import JCore.Mult.MacL
import JCore.Mult.MacW
import JCore.Mult.Products
import JCore.Mult.Saturation
import JCore.Mult.Schedule
import JCore.Mult.Unit
import JCore.Pack.Adder
import JCore.Pack.Components
import JCore.Pack.Cpu
import JCore.Pack.Decode
import JCore.Pack.Shifter
import JCore.Sim.ByteLanes
import JCore.Sim.DebugConnections
import JCore.Sim.DebugPlan
import JCore.Sim.DebugSkt
import JCore.Sim.MemBus
import JCore.Testrom.Confined
import JCore.Testrom.Hex
import JCore.Testrom.Monitor
import JCore.Testrom.Packet
import JCore.Testrom.Requests
import JCore.Testrom.Session
import JCore.Testrom.Sh2
import JCore.Testrom.StepDest
import JCore.Testrom.Stepping
import JCore.Testrom.Storage
