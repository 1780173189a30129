import ReadoutMaster.Lib.Radix
import ReadoutMaster.Lib.Packed
import ReadoutMaster.Lib.Machine
import ReadoutMaster.Lib.Relate
import ReadoutMaster.Lib.Rounding
import ReadoutMaster.Proof.Replay
import ReadoutMaster.Proof.Delivery
import ReadoutMaster.Proof.SeqNum
import ReadoutMaster.Proof.Merge
import ReadoutMaster.Proof.Record
import ReadoutMaster.Proof.Ticks
import ReadoutMaster.Proof.Weights
import ReadoutMaster.Proof.Batching
import ReadoutMaster.Proof.Pausing
import ReadoutMaster.Proof.Subset
import ReadoutMaster.Proof.Noise
import ReadoutMaster.Proof.Verbosity
import ReadoutMaster.Proof.Ranges
import ReadoutMaster.Proof.EventMode
import ReadoutMaster.Lib.Shared
import ReadoutMaster.Proof.Transmission
import ReadoutMaster.Proof.Archive
import ReadoutMaster.Proof.Simulation
import ReadoutMaster.Proof.ReplayProgram
import ReadoutMaster.Proof.Network
import ReadoutMaster.Proof.Double
import ReadoutMaster.Proof.Addressing
import ReadoutMaster.Proof.ReadoutConfig
