/-
  Replaying a file (lib/replay.h, lib/replay.cpp, src/replay/main.cpp).

  The two strategies, `loadReplay` and `chunkReplay`, hand the events of a
  reader to the method `addReadout` of some object, whose state is `σ`; for a
  `Readout` that is its `World`.  A `std::vector` of more bytes than the
  allocator hands out throws.
-/
import ReadoutMaster.Reader
import ReadoutMaster.Interface

namespace ReadoutMaster

open Machine

namespace Replay

/-- The flag `RANDOM` of `enum Replay`. -/
def RANDOM : UInt32 := 4

def SEQUENTIAL : UInt32 := 2

def NONE : UInt32 := 0

/-- `4u << 30`, an `unsigned int` that is converted after the shift. -/
def PAGESIZE : UInt64 := ((4 : UInt32) <<< 30).toUInt64

def elementSize (type : ReadoutType) : Except Exn UInt64 :=
  match type with
  | .CAEN | .TTLMonitor | .VMM3 | .DREAM => .ok (UInt64.ofNat (sizeofEvent type))
  | .MAGIC => .error (.runtimeError "Readout type not implemented")

def loadable (type : ReadoutType) (count : UInt64) : Except Exn Bool := do
  let size ← elementSize type
  return size * count ≤ PAGESIZE

section
variable [Host]

/-- `std::shuffle` with a fresh `std::default_random_engine`. -/
def shuffle (indexes : List UInt64) : List UInt64 :=
  List.ofFn fun i => indexes.get (Host.shuffle indexes.length i)

/-- `std::vector<size_t> indexes(number)`, filled and shuffled. -/
def indexVector (number : UInt64) (fill : ℕ → UInt64) (control : UInt32) :
    Except Exn (List UInt64) :=
  if Host.memory < number.toNat * 8 then .error .badAlloc
  else
    let indexes := (List.range number.toNat).map fill
    .ok (if control &&& RANDOM ≠ 0 then shuffle indexes else indexes)

end

section
variable {R : Type} (FS : Type) [HighFive R FS] [Host] {σ : Type}

/-- The four `load_replay_...`: all the events are read before the first is
    added. -/
def loadEvents {α : Type} (get : UInt64 → UInt64 → Except Exn (List α))
    (add : α → EStateM Exn σ Unit) (first number : UInt64) (indexes : List UInt64) :
    EStateM Exn σ Unit := do
  let data ← lift (get first number)
  indexes.forM fun i =>
    match data[i.toNat]? with
    | some e => add e
    -- the indexes are below `number`, the length of `data`
    | none => pure ()

/-- The four `chunk_replay_...`: each event is read before it is added. -/
def chunkEvents {α : Type} (get : UInt64 → UInt64 → Except Exn (List α))
    (add : α → EStateM Exn σ Unit) (indexes : List UInt64) : EStateM Exn σ Unit :=
  indexes.forM fun i => do
    let data ← lift (get i 1)
    match data with
    | e :: _ => add e
    -- `get` returns one event or throws
    | [] => pure ()

variable (reader : Reader R) (addReadout : AddReadout R (EStateM Exn σ Unit))

def loadReplayCAEN := loadEvents (reader.getCAEN FS) fun e => e.add addReadout
def loadReplayTTLMonitor := loadEvents (reader.getTTLMonitor FS) fun e => e.add addReadout
def loadReplayVMM3 := loadEvents (reader.getVMM3 FS) fun e => e.add addReadout
def loadReplayDREAM := loadEvents (reader.getDREAM FS) fun e => e.add addReadout

def loadReplay (first number : UInt64) (control : UInt32) : EStateM Exn σ Unit := do
  let indexes ← lift (indexVector number UInt64.ofNat control)
  match reader.readout with
  | .CAEN => loadReplayCAEN FS reader addReadout first number indexes
  | .TTLMonitor => loadReplayTTLMonitor FS reader addReadout first number indexes
  | .VMM3 => loadReplayVMM3 FS reader addReadout first number indexes
  | .DREAM => loadReplayDREAM FS reader addReadout first number indexes
  | .MAGIC => throw (.runtimeError "Readout type not implemented")

def chunkReplayCAEN := chunkEvents (reader.getCAEN FS) fun e => e.add addReadout
def chunkReplayTTLMonitor := chunkEvents (reader.getTTLMonitor FS) fun e => e.add addReadout
def chunkReplayVMM3 := chunkEvents (reader.getVMM3 FS) fun e => e.add addReadout
def chunkReplayDREAM := chunkEvents (reader.getDREAM FS) fun e => e.add addReadout

def chunkReplay (first number every : UInt64) (control : UInt32) : EStateM Exn σ Unit := do
  let indexes ← lift (indexVector number (fun j => first + UInt64.ofNat j * every) control)
  match reader.readout with
  | .CAEN => chunkReplayCAEN FS reader addReadout indexes
  | .TTLMonitor => chunkReplayTTLMonitor FS reader addReadout indexes
  | .VMM3 => chunkReplayVMM3 FS reader addReadout indexes
  | .DREAM => chunkReplayDREAM FS reader addReadout indexes
  | .MAGIC => throw (.runtimeError "Readout type not implemented")

end

/-! ## Files -/

/-- What a replay leaves: how it ended, and the world of its `Readout`, if one
    was made.  After a return the `Readout` is destroyed; an exception leaves
    it as it was when it was thrown. -/
structure Outcome (R FS : Type) where
  result : Except Exn Unit
  world : Option (World R FS)

section
variable {R FS : Type} [HighFive R FS] [CDouble R] [Host]

/-- Run `body` on `Readout(address, port, 0, type)`, created at the system time
    `clock`.  The destructor runs when `body` returns; after an exception it
    would run only if a caller caught it, and `main` does not. -/
def withReadout (type : DetectorType) (clock : UInt64) (fs : FS) (socket : ℕ → SendResult)
    (draws : ℕ → Draw) (body : Prog R FS Unit) : Outcome R FS :=
  match Readout.make type.code.toNat ⟨1, 0⟩ (EfuTime.now clock) fs socket draws with
  | .error e => ⟨.error e, none⟩
  | .ok w =>
    match body w with
    | .ok () w => ⟨.ok (), some (final Readout.destroy w)⟩
    | .error e w => ⟨.error e, some w⟩

def replayAll (filename : String) (control : UInt32) (clock : UInt64) (fs : FS)
    (socket : ℕ → SendResult) (draws : ℕ → Draw) : Outcome R FS :=
  match Reader.make fs filename with
  | .error e => ⟨.error e, none⟩
  | .ok reader =>
    withReadout reader.detector clock fs socket draws do
      if ← lift (loadable reader.readout reader.size) then
        loadReplay FS reader Readout.addReadout 0 reader.size control
      else
        chunkReplay FS reader Readout.addReadout 0 reader.size 1 control

def replaySubset (filename : String) (first number every : UInt64) (control : UInt32)
    (clock : UInt64) (fs : FS) (socket : ℕ → SendResult) (draws : ℕ → Draw) : Outcome R FS :=
  match Reader.make fs filename with
  | .error e => ⟨.error e, none⟩
  | .ok reader =>
    withReadout reader.detector clock fs socket draws do
      if (← lift (loadable reader.readout number)) && every == 1 then
        loadReplay FS reader Readout.addReadout first number control
      else
        chunkReplay FS reader Readout.addReadout first number every control

/-- The options of `readout-replay`; `COUNT`, `FIRST` and `EVERY` are of type
    `int`. -/
structure Options where
  sequential : Bool
  random : Bool
  count : Option Int32
  first : Option Int32
  every : Option Int32
  filename : String

/-- `main` after the command line is parsed.  An `int` is converted to
    `size_t` by sign extension. -/
def main (o : Options) (clock : UInt64) (fs : FS) (socket : ℕ → SendResult) (draws : ℕ → Draw) :
    Outcome R FS :=
  let count := o.count.getD (-1)
  let first := o.first.getD 0
  let every := o.every.getD 1
  let choice := NONE ||| (if o.sequential then SEQUENTIAL else 0) |||
    (if o.random then RANDOM else 0)
  if count ≠ 0 then
    replaySubset o.filename first.toInt64.toUInt64 count.toInt64.toUInt64 every.toInt64.toUInt64
      choice clock fs socket draws
  else replayAll o.filename choice clock fs socket draws

end

end Replay

end ReadoutMaster
