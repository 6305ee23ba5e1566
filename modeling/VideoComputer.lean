import VideoComputer.Main
import VideoComputer.Memory.Ram
import VideoComputer.Memory.Traffic
import VideoComputer.Proofs.Console.Lockstep
import VideoComputer.Proofs.Console.Pacing
import VideoComputer.Proofs.Cpu.InterruptHistory
import VideoComputer.Proofs.Cpu.Lengths
import VideoComputer.Proofs.Cpu.Transparency
import VideoComputer.Proofs.Video.Racing
import VideoComputer.Proofs.Video.Meetings
import VideoComputer.Proofs.Video.Positions
import VideoComputer.Proofs.Video.LockedMissiles
import VideoComputer.Proofs.Video.LineEnds
import VideoComputer.Proofs.Console.Pictures
import VideoComputer.Proofs.Video.Outlines
import VideoComputer.Proofs.Video.Exchange
import VideoComputer.Proofs.Bus.Regions
import VideoComputer.Proofs.Console.Inputs
import VideoComputer.Proofs.Cpu.Calls
import VideoComputer.Proofs.Cpu.DecimalCircuit
import VideoComputer.Proofs.Cpu.DecimalNumbers
import VideoComputer.Proofs.Cpu.BinaryNumbers
import VideoComputer.Proofs.Riot.Countdown
import VideoComputer.Proofs.Console.Resets
import VideoComputer.Proofs.Video.Checked
import VideoComputer.Proofs.Video.NoFailure
import VideoComputer.Proofs.Cpu.EffectiveAddresses
import VideoComputer.Proofs.Cpu.CombinedOperations
import VideoComputer.Proofs.Cpu.Footprints
import VideoComputer.Proofs.Cpu.Stack
import VideoComputer.Proofs.Video.Playfields
import VideoComputer.Proofs.Video.Shapes
import VideoComputer.Proofs.Video.Motion
import VideoComputer.Proofs.Video.VerticalDelay
import VideoComputer.Proofs.Video.PastWrites
import VideoComputer.Proofs.Riot.Ports
import VideoComputer.Proofs.Cpu.MultiByteShifts
import VideoComputer.Proofs.Cpu.StatusRegister
import VideoComputer.Proofs.Console.FrameCount
