/-
  The C interface (lib/Readout.h, lib/Readout.cpp) and its runs.

  A `Call` is one call of the interface on a readout object, with what it reads
  from the system clock; `step` performs it, and `Machine.run step` performs
  the calls of a run one after another, going on from the state a throwing call
  leaves.  In a run of the interface `destroy` stands at most once, at the end.
-/
import ReadoutMaster.Readout

namespace ReadoutMaster

open Readout

variable {R FS : Type}

/-- `readout_create`, at the system time `clock`. -/
def readoutCreate [CDouble R] (clock : UInt64) (sourceFrequency : R) (type : Int) (fs : FS)
    (socket : ℕ → SendResult) (randomEngine : ℕ → Draw) : Except Exn (World R FS) :=
  Readout.make type (CDouble.toEfu (CDouble.recip sourceFrequency)) (EfuTime.now clock) fs socket
    randomEngine

def readoutSetPulseTime (clock : UInt64) : Prog R FS Unit := updateTime clock

def readoutAdd [HighFive R FS] [CDouble R] (clock : UInt64) (ring fen : UInt8)
    (timeOfFlight weight : R) (data : VoidPtr) : Prog R FS Unit := do
  readoutSetPulseTime clock
  addReadout ring fen timeOfFlight weight data

def readoutSend : Prog R FS Unit := do
  let _ ← send

def readoutNewPacket : Prog R FS Unit := newPacket

def readoutDestroy : Prog R FS Unit := destroy

def readoutEnableNetwork : Prog R FS Unit := update fun o => { o with network := true }

def readoutDisableNetwork : Prog R FS Unit := update fun o => { o with network := false }

def readoutVerbose (v : Int) : Prog R FS Unit := update fun o => { o with verbosity := v }

def readoutDumpTo [HighFive R FS] [Host] (filename : String) : Prog R FS Unit :=
  if filename = "" then pure () else dumpTo filename

/-- A call of the interface. -/
inductive Call (R : Type) where
  | add (clock : UInt64) (ring fen : UInt8) (tof weight : R) (data : VoidPtr)
  | setPulseTime (clock : UInt64)
  | send
  | newPacket
  | enableNetwork
  | disableNetwork
  | verbose (v : Int)
  | dumpTo (filename : String)
  | destroy

namespace Call

/-- The reading of the system clock a call makes, in `update_time`. -/
def clock : Call R → Option UInt64
  | add clock .. | setPulseTime clock => some clock
  | _ => none

end Call

section
variable [HighFive R FS] [CDouble R] [Host]

def step : Call R → Prog R FS Unit
  | .add clock ring fen tof weight data => readoutAdd clock ring fen tof weight data
  | .setPulseTime clock => readoutSetPulseTime clock
  | .send => readoutSend
  | .newPacket => readoutNewPacket
  | .enableNetwork => readoutEnableNetwork
  | .disableNetwork => readoutDisableNetwork
  | .verbose v => readoutVerbose v
  | .dumpTo filename => readoutDumpTo filename
  | .destroy => readoutDestroy

/-- The world after the calls of a run. -/
abbrev runCalls (w : World R FS) (calls : List (Call R)) : World R FS := Machine.run step w calls

end

end ReadoutMaster
