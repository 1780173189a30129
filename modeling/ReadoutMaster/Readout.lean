/-
  The class `Readout` (lib/ReadoutClass.h, lib/ReadoutClass.cpp).

  A method is a program on the `World`: the object itself, the file system,
  what the socket answers, and a `Trace`.  The trace is what an observer of
  the run sees, and no method reads it: the datagrams handed to `sender.send`,
  each with the entries written since its packet was begun, and the entries of
  the packet under construction.  An entry is a record written to the buffer,
  with the time of flight of the `addReadout` call it comes from.

  The members hold C++ words: `seqNum` is the `int` counter modulo 2^32, and
  `dataSize` an `int` that never leaves the buffer.  The random engine is the
  stream of the values that `random_poisson` will return.
-/
import ReadoutMaster.Writer
import ReadoutMaster.Lib.Machine

namespace ReadoutMaster

open Packed Machine

/-- What the code does with `double`: test it, take `1/x`, and convert it to
    an `efu_time`, whose ticks stay below a second. -/
class CDouble (R : Type) where
  truthy : R → Bool
  recip : R → R
  toEfu : R → EfuTime
  canonical_toEfu : ∀ x, (toEfu x).Canonical

/-- A value of `std::poisson_distribution<int>`. -/
abbrev Draw := Fin 2147483648

structure Readout where
  phi : UInt32 := 0
  plo : UInt32 := 0
  pphi : UInt32 := 0
  pplo : UInt32 := 0
  lasthi : UInt32 := 0
  lastlo : UInt32 := 0
  seqNum : UInt32 := 0
  outputQueue : UInt8 := 0
  type : DetectorType
  buffer : Memory := fun _ => 0
  dataSize : ℕ := 0
  verbosity : Int := 0
  writer : Option Writer := none
  network : Bool := true
  period : EfuTime
  time : EfuTime
  randomEngine : ℕ → Draw

/-- A record written to the buffer, and the time of flight it was added
    with. -/
structure Entry (R : Type) where
  tof : Option R
  record : Record

/-- A datagram and the entries of its packet. -/
structure Sent (R : Type) where
  bytes : List UInt8
  entries : List (Entry R)

structure Trace (R : Type) where
  sent : List (Sent R) := []
  pending : List (Entry R) := []
  /-- the time of flight of the `addReadout` call under way -/
  tof : Option R := none

/-- What `sender.send` returns: the bytes sent and the error code. -/
structure SendResult where
  bytes : Int
  errorCode : Int
  deriving DecidableEq, Repr

structure World (R FS : Type) where
  obj : Readout
  fs : FS
  /-- what the next calls of `sender.send` return -/
  socket : ℕ → SendResult
  trace : Trace R := {}

/-- The datagrams handed to `sender.send`, in order. -/
def World.datagrams {R FS : Type} (w : World R FS) : List (List UInt8) :=
  w.trace.sent.map Sent.bytes

/-- Programs on the world that may throw. -/
abbrev Prog (R FS : Type) := EStateM Exn (World R FS)

namespace Readout

variable {R FS : Type}

/-! ## Access -/

/-- `*this` -/
def self : Prog R FS Readout := fun w => .ok w.obj w

def update (f : Readout → Readout) : Prog R FS Unit := fun w => .ok () { w with obj := f w.obj }

def onFiles {α : Type} (x : EStateM Exn FS α) : Prog R FS α := fun w =>
  match x w.fs with
  | .ok a fs => .ok a { w with fs }
  | .error e fs => .error e { w with fs }

/-! ## Packets -/

def setPulseTime (PHI PLO PPHI PPLO : UInt32) : Prog R FS Unit :=
  update fun o => { o with phi := PHI, plo := PLO, pphi := PPHI, pplo := PPLO }

/-- The buffer `newPacket` leaves: all zeros, then the header. -/
def headerBuffer (o : Readout) : Memory :=
  o.buffer.fill 0 9000 0
    |>.set 0 PacketHeaderV0.At.padding0 0
    |>.set 0 PacketHeaderV0.At.version 0
    |>.set 0 PacketHeaderV0.At.cookieAndType ((o.type.code <<< 24) + 0x535345)
    |>.set 0 PacketHeaderV0.At.outputQueue o.outputQueue
    |>.set 0 PacketHeaderV0.At.totalLength 30
    |>.set 0 PacketHeaderV0.At.seqNum o.seqNum
    |>.set 0 PacketHeaderV0.At.timeSource 0
    |>.set 0 PacketHeaderV0.At.pulseHigh o.phi
    |>.set 0 PacketHeaderV0.At.pulseLow o.plo
    |>.set 0 PacketHeaderV0.At.prevPulseHigh o.pphi
    |>.set 0 PacketHeaderV0.At.prevPulseLow o.pplo

def newPacket : Prog R FS Unit := fun w =>
  .ok () { w with
    obj := { w.obj with
      buffer := w.obj.headerBuffer
      seqNum := w.obj.seqNum + 1
      dataSize := 30 }
    trace := { w.trace with pending := [] } }

/-- `sender.send(...)`. -/
def transmit (bytes : List UInt8) : Prog R FS SendResult := fun w =>
  .ok (w.socket 0) { w with
    socket := fun n => w.socket (n + 1)
    trace := { w.trace with sent := w.trace.sent ++ [⟨bytes, w.trace.pending⟩] } }

def send : Prog R FS Int := do
  let o ← self
  if o.network = false then return 0
  let result ← transmit (o.buffer.load 0 o.dataSize)
  newPacket
  return result.errorCode

def MaxDataSize : ℕ := 8950

def checkSizeAndSend : Prog R FS Unit := do
  let o ← self
  if o.dataSize ≥ MaxDataSize then
    let _ ← send
    newPacket

/-! ## Records -/

/-- The assignments common to the four readout structures. -/
def assignHead (ring fen : UInt8) (t : EfuTime) (length : UInt16) (m : Memory) (dp : ℕ) : Memory :=
  m.set dp ReadoutHead.At.ring ring
    |>.set dp ReadoutHead.At.fen fen
    |>.set dp ReadoutHead.At.length length
    |>.set dp ReadoutHead.At.timeHigh t.high
    |>.set dp ReadoutHead.At.timeLow t.low

/-- The part the four typed overloads of `addReadout` share: assign the
    members at `buffer + DataSize` and count the bytes.  `r` is the record this
    writes, for the trace. -/
def writeRecord (assign : Memory → ℕ → Memory) (length : ℕ) (r : Record) : Prog R FS Unit :=
  fun w =>
  let dataSize := w.obj.dataSize + length
  .ok () { w with
    obj := { w.obj with
      buffer := (assign w.obj.buffer w.obj.dataSize).set 0 PacketHeaderV0.At.totalLength
        (UInt16.ofNat dataSize)
      dataSize }
    trace := { w.trace with pending := w.trace.pending ++ [⟨w.trace.tof, r⟩] } }

/-- What a readout structure starts with when a record is added. -/
def headOf (ring fen : UInt8) (t : EfuTime) (length : UInt16) : ReadoutHead :=
  ⟨ring, fen, length, t.high, t.low⟩

def assignCaen (ring fen : UInt8) (t : EfuTime) (data : CAENReadout) (m : Memory) (dp : ℕ) :
    Memory :=
  assignHead ring fen t 24 m dp
    |>.set dp CaenData.At.tube data.channel
    |>.set dp CaenData.At.amplA data.a
    |>.set dp CaenData.At.amplB data.b
    |>.set dp CaenData.At.amplC data.c
    |>.set dp CaenData.At.amplD data.d

/-- The record of a CAEN readout; `OMFlag` and `SeqNum` are not used. -/
def caenOf (ring fen : UInt8) (t : EfuTime) (data : CAENReadout) : Record :=
  .caen ⟨headOf ring fen t 24, 0, data.channel, 0, data.a, data.b, data.c, data.d⟩

/-- `addReadout(Ring, FEN, t, const CAEN_readout_t *)`. -/
def addReadoutCAEN (ring fen : UInt8) (t : EfuTime) (data : CAENReadout) : Prog R FS Unit := do
  checkSizeAndSend
  writeRecord (assignCaen ring fen t data) 24 (caenOf ring fen t data)

def assignTTLMonitor (ring fen : UInt8) (t : EfuTime) (data : TTLMonitorReadout) (m : Memory)
    (dp : ℕ) : Memory :=
  assignHead ring fen t 16 m dp
    |>.set dp TTLMonitorData.At.pos data.pos
    |>.set dp TTLMonitorData.At.channel data.channel
    |>.set dp TTLMonitorData.At.adc data.adc

def ttlMonitorOf (ring fen : UInt8) (t : EfuTime) (data : TTLMonitorReadout) : Record :=
  .ttlMonitor ⟨headOf ring fen t 16, data.pos, data.channel, data.adc⟩

/-- `addReadout(Ring, FEN, t, const TTLMonitor_readout_t *)`. -/
def addReadoutTTLMonitor (ring fen : UInt8) (t : EfuTime) (data : TTLMonitorReadout) :
    Prog R FS Unit := do
  checkSizeAndSend
  writeRecord (assignTTLMonitor ring fen t data) 16 (ttlMonitorOf ring fen t data)

def assignDream (ring fen : UInt8) (t : EfuTime) (data : DREAMReadout) (m : Memory) (dp : ℕ) :
    Memory :=
  assignHead ring fen t 16 m dp
    |>.set dp DreamData.At.om data.om
    |>.set dp DreamData.At.cathode data.cathode
    |>.set dp DreamData.At.anode data.anode

/-- The record of a DREAM readout; `Unused` is not used. -/
def dreamOf (ring fen : UInt8) (t : EfuTime) (data : DREAMReadout) : Record :=
  .dream ⟨headOf ring fen t 16, data.om, 0, data.cathode, data.anode⟩

/-- `addReadout(Ring, FEN, t, const DREAM_readout_t *)`. -/
def addReadoutDREAM (ring fen : UInt8) (t : EfuTime) (data : DREAMReadout) : Prog R FS Unit := do
  checkSizeAndSend
  writeRecord (assignDream ring fen t data) 16 (dreamOf ring fen t data)

def assignVMM3 (ring fen : UInt8) (t : EfuTime) (data : VMM3Readout) (m : Memory) (dp : ℕ) :
    Memory :=
  assignHead ring fen t 20 m dp
    |>.set dp VMM3Data.At.bc data.bc
    |>.set dp VMM3Data.At.otadc data.otadc
    |>.set dp VMM3Data.At.geo data.geo
    |>.set dp VMM3Data.At.tdc data.tdc
    |>.set dp VMM3Data.At.vmm data.vmm
    |>.set dp VMM3Data.At.channel data.channel

def vmm3Of (ring fen : UInt8) (t : EfuTime) (data : VMM3Readout) : Record :=
  .vmm3 ⟨headOf ring fen t 20, data.bc, data.otadc, data.geo, data.tdc, data.vmm, data.channel⟩

/-- `addReadout(Ring, FEN, t, const VMM3_readout_t *)`. -/
def addReadoutVMM3 (ring fen : UInt8) (t : EfuTime) (data : VMM3Readout) : Prog R FS Unit := do
  checkSizeAndSend
  writeRecord (assignVMM3 ring fen t data) 20 (vmm3Of ring fen t data)

/-- `addReadout(Ring, FEN, t, const void *)`: a single readout. -/
def addReadoutAt (ring fen : UInt8) (t : EfuTime) (data : VoidPtr) : Prog R FS Unit := do
  let o ← self
  match readoutTypeFromDetectorType o.type with
  | .error e => throw e
  | .ok .CAEN => addReadoutCAEN ring fen t data.toCAEN
  | .ok .TTLMonitor => addReadoutTTLMonitor ring fen t data.toTTLMonitor
  | .ok .DREAM => addReadoutDREAM ring fen t data.toDREAM
  | .ok .VMM3 => addReadoutVMM3 ring fen t data.toVMM3
  | .ok .MAGIC => throw (.runtimeError "This readout data type not implemented yet!")

/-- `random_poisson(mean)`: the next value of the engine. -/
def randomPoisson (_mean : R) : Prog R FS Draw := fun w =>
  .ok (w.obj.randomEngine 0) { w with
    obj := { w.obj with randomEngine := fun n => w.obj.randomEngine (n + 1) } }

/-- `for (; i < random_poisson(weight); ++i) addReadout(Ring, FEN, t, data)`.
    The bound is drawn anew for every iteration.  A draw is an `int`, so `i`
    stays below 2^31 and `n = 2^31 - i` iterations are enough. -/
def addCopies (ring fen : UInt8) (t : EfuTime) (weight : R) (data : VoidPtr) :
    ℕ → ℕ → Prog R FS Unit
  | 0, _ => pure ()
  | n + 1, i => do
    let bound ← randomPoisson weight
    if i < bound.val then
      addReadoutAt ring fen t data
      addCopies ring fen t weight data n (i + 1)

/-- Send the same event (possibly) multiple times; a noise event, of weight
    zero, is always sent. -/
def addWeighted [CDouble R] (ring fen : UInt8) (t : EfuTime) (weight : R) (data : VoidPtr) :
    Prog R FS Unit :=
  if CDouble.truthy weight then addCopies ring fen t weight data 2147483648 0
  else addReadoutAt ring fen t data

/-- Note the call for the trace. -/
def noteCall (tof : R) : Prog R FS Unit := fun w =>
  .ok () { w with trace := { w.trace with tof := some tof } }

/-- `if (writer.has_value()) writer->saveReadout(...)` -/
def saved [HighFive R FS] (o : Readout) (ring fen : UInt8) (tof weight : R) (data : VoidPtr) :
    EStateM Exn FS Unit :=
  match o.writer with
  | some writer => writer.saveReadout ring fen tof weight data
  | none => pure ()

/-- `addReadout(Ring, FEN, tof, weight, const void *)`. -/
def addReadout [HighFive R FS] [CDouble R] (ring fen : UInt8) (tof weight : R) (data : VoidPtr) :
    Prog R FS Unit := do
  let o ← self
  onFiles (saved o ring fen tof weight data)
  if o.network = false then return ()
  let t := CDouble.toEfu tof + o.time
  update fun o => { o with lasthi := t.high, lastlo := t.low }
  noteCall tof
  addWeighted ring fen t weight data

def dumpTo [HighFive R FS] [Host] (filename : String) (datasetName : String := "events") :
    Prog R FS Unit := do
  let o ← self
  let readout ← lift (readoutTypeFromDetectorType o.type)
  let writer ← onFiles (Writer.make filename o.type readout datasetName)
  update fun o => { o with writer := some writer }

/-! ## Time -/

/-- `now` moved back to the last pulse, if a period has passed since `time`. -/
def latestPulse (now time period : EfuTime) : Except Exn EfuTime := do
  let elapsed ← now.sub time
  if elapsed.ge period then
    let elapsed ← now.sub time
    return time + period * (elapsed / period)
  else return now

/-- `update_time()`, where `clock` is the system clock in nanoseconds. -/
def updateTime (clock : UInt64) : Prog R FS Unit := do
  let o ← self
  let now ← lift (latestPulse (EfuTime.now clock) o.time o.period)
  let elapsed ← lift (now.sub o.time)
  -- the EFUs require (now - prev) <= 5 * rep
  if elapsed.gt (o.period * (5 : UInt32)) then
    let prev ← lift (now.sub o.period)
    update fun o => { o with time := prev }
  let _ ← send
  let o ← self
  setPulseTime now.high now.low o.time.high o.time.low
  newPacket
  update fun o => { o with time := now }

/-! ## Construction and destruction -/

/-- The constructor, in the surroundings of `fs`, the answers of the socket
    and the draws of the random engine. -/
def make (type : Int) (period time : EfuTime) (fs : FS) (socket : ℕ → SendResult)
    (randomEngine : ℕ → Draw) : Except Exn (World R FS) := do
  let type ← detectorTypeFromInt type
  let prev ← time.sub period
  let body : Prog R FS Unit := do
    setPulseTime time.high time.low prev.high prev.low
    newPacket
  match body ⟨{ type, period, time, randomEngine }, fs, socket, {}⟩ with
  | .ok () w => .ok w
  | .error e _ => .error e

/-- The destructor. -/
def destroy : Prog R FS Unit := do
  let _ ← send

/-- `lastPulseTime()`, `prevPulseTime()` and `lastEventTime()`, as times. -/
def lastPulseTime (o : Readout) : EfuTime := ⟨o.phi, o.plo⟩
def prevPulseTime (o : Readout) : EfuTime := ⟨o.pphi, o.pplo⟩
def lastEventTime (o : Readout) : EfuTime := ⟨o.lasthi, o.lastlo⟩

end Readout

end ReadoutMaster
