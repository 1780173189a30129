/-
  The methods of the class `Readout` that change an object (lib/ReadoutClass.h),
  as C++ code may call them.

  Unlike the C interface, where the type of the object decides, such code may
  call any of the four typed overloads of `addReadout`, with any time.
-/
import ReadoutMaster.Interface

namespace ReadoutMaster

open Readout

variable {R FS : Type}

/-- A call of a method. -/
inductive Method (R : Type) where
  | addReadoutCAEN (ring fen : UInt8) (t : EfuTime) (data : CAENReadout)
  | addReadoutTTLMonitor (ring fen : UInt8) (t : EfuTime) (data : TTLMonitorReadout)
  | addReadoutDREAM (ring fen : UInt8) (t : EfuTime) (data : DREAMReadout)
  | addReadoutVMM3 (ring fen : UInt8) (t : EfuTime) (data : VMM3Readout)
  | addReadoutAt (ring fen : UInt8) (t : EfuTime) (data : VoidPtr)
  | addReadout (ring fen : UInt8) (tof weight : R) (data : VoidPtr)
  | send
  | newPacket
  | setPulseTime (PHI PLO PPHI PPLO : UInt32)
  | updateTime (clock : UInt64)
  | verbose (v : Int)
  | dumpTo (filename datasetName : String)
  | enableNetwork
  | disableNetwork

namespace Method

/-- One of the overloads of `addReadout`. -/
def Adds : Method R → Prop
  | addReadoutCAEN .. | addReadoutTTLMonitor .. | addReadoutDREAM .. | addReadoutVMM3 ..
  | addReadoutAt .. | addReadout .. => True
  | _ => False

def invoke [HighFive R FS] [CDouble R] [Host] : Method R → Prog R FS Unit
  | addReadoutCAEN ring fen t data => Readout.addReadoutCAEN ring fen t data
  | addReadoutTTLMonitor ring fen t data => Readout.addReadoutTTLMonitor ring fen t data
  | addReadoutDREAM ring fen t data => Readout.addReadoutDREAM ring fen t data
  | addReadoutVMM3 ring fen t data => Readout.addReadoutVMM3 ring fen t data
  | addReadoutAt ring fen t data => Readout.addReadoutAt ring fen t data
  | addReadout ring fen tof weight data => Readout.addReadout ring fen tof weight data
  | send => do
    let _ ← Readout.send
  | newPacket => Readout.newPacket
  | setPulseTime PHI PLO PPHI PPLO => Readout.setPulseTime PHI PLO PPHI PPLO
  | updateTime clock => Readout.updateTime clock
  | verbose v => readoutVerbose v
  | dumpTo filename datasetName => Readout.dumpTo filename datasetName
  | enableNetwork => readoutEnableNetwork
  | disableNetwork => readoutDisableNetwork

end Method

end ReadoutMaster
