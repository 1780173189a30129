/-
  `Writer` (lib/writer.h): appends events to a dataset of an HDF5 file.

  The constructor catches the exception of a file that does not open and
  leaves a writer without file or dataset, which drops every event; what it
  does to a file that opens may throw, and is not caught.
-/
import ReadoutMaster.HdfInterface

namespace ReadoutMaster

structure Writer where
  filename : String
  /-- `file.has_value()` -/
  file : Bool
  /-- the name of the dataset, if there is one -/
  dataset : Option String
  detector : DetectorType
  readout : ReadoutType
  verbosity : Int
  deriving DecidableEq, Repr

namespace Writer

variable {R FS : Type} [HighFive R FS]

/-- An edit of the file at `path`, or `HighFive::Exception`. -/
def edit (path : String) (e : Edit R) : EStateM Exn FS Unit := fun fs =>
  match HighFive.edit fs path e with
  | some fs' => .ok () fs'
  | none => .error .highFive fs

def hdfCompoundType (readout : ReadoutType) : EStateM Exn FS Unit :=
  match readout with
  | .CAEN | .TTLMonitor | .DREAM | .VMM3 => pure ()
  | .MAGIC => throw (.runtimeError "Saving this readout type is not implemented yet!")

/-- What the constructor does to the file once it is open. -/
def setUp [Host] (filename : String) (detector : DetectorType) (readout : ReadoutType)
    (datasetName : String) : EStateM Exn FS Unit := do
  hdfCompoundType readout
  edit filename (.commit (readoutTypeName readout))
  edit filename (.createDataSet datasetName)
  edit filename (.createAttribute "program" "libreadout")
  edit filename (.createAttribute "version" Host.version)
  edit filename (.createAttribute "revision" Host.revision)
  edit filename (.createAttribute "events" datasetName)
  edit filename (.createDataSetAttribute datasetName "detector" (detectorTypeName detector))
  edit filename (.createDataSetAttribute datasetName "readout" (readoutTypeName readout))

/-- The constructor. -/
def make [Host] (filename : String) (detector : DetectorType) (readout : ReadoutType)
    (datasetName : String) : EStateM Exn FS Writer := fun fs =>
  match HighFive.openOrCreate fs filename with
  | none => .ok ⟨filename, false, none, detector, readout, 0⟩ fs
  | some fs =>
    (do
      setUp filename detector readout datasetName
      return ⟨filename, true, some datasetName, detector, readout, 0⟩ : EStateM Exn FS Writer) fs

/-- `saveReadout(T data)`. -/
def saveRow (w : Writer) (row : Row R) : EStateM Exn FS Unit :=
  match w.file, w.dataset with
  | true, some ds => edit w.filename (.append ds row)
  | _, _ => pure ()

/-- `saveReadout(Ring, FEN, tof, weight, data)`. -/
def saveReadout (w : Writer) (ring fen : UInt8) (tof weight : R) (data : VoidPtr) :
    EStateM Exn FS Unit :=
  if w.dataset.isNone then pure ()
  else
    match readoutTypeFromDetectorType w.detector with
    | .error e => throw e
    | .ok .CAEN => w.saveRow (.caen (.ofReadout ring fen tof weight data.toCAEN))
    | .ok .TTLMonitor =>
      w.saveRow (.ttlMonitor (.ofReadout ring fen tof weight data.toTTLMonitor))
    | .ok .DREAM => w.saveRow (.dream (.ofReadout ring fen tof weight data.toDREAM))
    | .ok .VMM3 => w.saveRow (.vmm3 (.ofReadout ring fen tof weight data.toVMM3))
    | .ok .MAGIC => throw (.runtimeError "This readout data type not implemented yet!")

end Writer

end ReadoutMaster
