/-
  `readout_merge_files` (lib/Readout_merge.cpp).

  The first loop opens every input and compares its types with those of the
  first; the second opens each again and copies its events, one at a time, to
  the writer.
-/
import ReadoutMaster.Reader
import ReadoutMaster.Writer
import ReadoutMaster.Lib.Machine

namespace ReadoutMaster

open Machine

variable {R FS : Type} [HighFive R FS] [Host]

/-- `Reader reader(filename)`. -/
def openReader (filename : String) : EStateM Exn FS (Reader R) := fun fs =>
  lift (Reader.make fs filename) fs

/-- The validation loop, with the types of the inputs so far. -/
def checkInputs : Option (DetectorType × ReadoutType) → List String →
    EStateM Exn FS (Option (DetectorType × ReadoutType))
  | types, [] => pure types
  | types, filename :: filenames => do
    let reader ← openReader filename
    match types with
    | none => checkInputs (some (reader.detector, reader.readout)) filenames
    | some (detector, readout) =>
      if detector ≠ reader.detector ∨ readout ≠ reader.readout then
        throw (.runtimeError "Mismatched detector or readout types")
      else checkInputs types filenames

/-- `writer.saveReadout(reader.get_...(j, 1).front())`. -/
def saveFront {α : Type} (writer : Writer) (row : α → Row R)
    (get : UInt64 → UInt64 → Except Exn (List α)) (j : UInt64) : EStateM Exn FS Unit := do
  let events ← lift (get j 1)
  match events with
  | e :: _ => writer.saveRow (row e)
  -- `get` returns one event or throws
  | [] => pure ()

def copyEvent (writer : Writer) (readout : ReadoutType) (reader : Reader R) (j : UInt64) :
    EStateM Exn FS Unit :=
  match readout with
  | .CAEN => saveFront writer .caen (reader.getCAEN FS) j
  | .TTLMonitor => saveFront writer .ttlMonitor (reader.getTTLMonitor FS) j
  | .VMM3 => saveFront writer .vmm3 (reader.getVMM3 FS) j
  | .DREAM => saveFront writer .dream (reader.getDREAM FS) j
  | .MAGIC => throw (.runtimeError "Readout type not implemented")

/-- The records of an input.  The code asks for the size of its dataset again
    before every event, which is the same as long as the input is not the
    output. -/
def copyInput (writer : Writer) (readout : ReadoutType) (filename : String) :
    EStateM Exn FS Unit := do
  let reader ← openReader filename
  (List.range reader.size.toNat).forM fun j =>
    copyEvent writer readout reader (UInt64.ofNat j)

def mergeFiles (outFilename : String) (inFilenames : List String) : EStateM Exn FS Unit := do
  let types ← checkInputs none inFilenames
  match types with
  | none => throw (.runtimeError "No input files provided")
  | some (detector, readout) =>
    let writer ← Writer.make outFilename detector readout "events"
    inFilenames.forM (copyInput writer readout)

end ReadoutMaster
