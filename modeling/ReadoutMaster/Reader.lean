/-
  `Reader` (lib/reader.h): reads the events of an HDF5 file.

  The constructor throws on some bad files and returns early on others: a file
  that does not open, one without its dataset, or one whose attributes cannot
  be read leaves a reader without dataset, of size 0 and with the detector and
  readout types assigned so far.
-/
import ReadoutMaster.HdfInterface

namespace ReadoutMaster

structure Reader (R : Type) where
  dataset : Option (DataSet R) := none
  detector : DetectorType := .Reserved
  readout : ReadoutType := .CAEN

namespace Reader

variable {R FS : Type}

/-- The attribute `program` of the file, empty if it has none. -/
def program (file : H5File R) : Except Exn String :=
  if file.attr "program" = .absent then .ok "" else (file.attr "program").read

/-- The name of the events dataset, once the file is known to be from the
    library. -/
def datasetName [Host] (file : H5File R) : Except Exn String := do
  let program ← program file
  if program ≠ "libreadout" then
    .error (.runtimeError "The provided HDF file was not produced using libreadout")
  else
    -- a version other than the library's own is only reported
    let _ ← (file.attr "version").read
    if file.attr "events" = .absent then
      .error (.runtimeError ("libreadout " ++ Host.version ++
        " expects a file attribute, \"events\", which is not present"))
    else (file.attr "events").read

/-- The constructor, from the dataset on. -/
def ofDataSet (file : H5File R) (ds : DataSet R) : Except Exn (Reader R) :=
  match (ds.attr "detector").read with
  | .error _ => .ok {}
  | .ok detectorName => do
    let detector ← detectorTypeFromName detectorName
    match (ds.attr "readout").read with
    | .error _ => .ok { detector }
    | .ok readoutName => do
      let readout ← readoutTypeFromName readoutName
      if file.dataType (readoutTypeName readout) = false then .error .highFive
      else if ds.rank ≠ 1 then
        .error (.runtimeError ("The dataset is expected to be 1-D not " ++ toString ds.rank))
      else .ok { dataset := some ds, detector, readout }

/-- The constructor, on what opening the file gave. -/
def ofFile [Host] : Option (H5File R) → Except Exn (Reader R)
  | none => .ok {}
  | some file => do
    let name ← datasetName file
    match file.dataset name with
    | none => .ok {}
    | some ds => ofDataSet file ds

/-- `Reader(filename)`. -/
def make [HighFive R FS] [Host] (fs : FS) (filename : String) : Except Exn (Reader R) :=
  ofFile (HighFive.openReadOnly fs filename)

def size (r : Reader R) : UInt64 :=
  match r.dataset with
  | some ds => UInt64.ofNat ds.rows.length
  | none => 0

/-- The rows of the four `get` methods: the checks, the vector of `count`
    events of `sizeof` bytes, and the read of the selection. -/
def get [Host] (r : Reader R) (type : ReadoutType) (mismatch : String) (index count : UInt64) :
    Except Exn (List (Row R)) :=
  if r.readout ≠ type then .error (.runtimeError mismatch)
  else if index ≥ r.size then .error (.runtimeError "Out of bounds event requested")
  else if index + count > r.size then .error (.runtimeError "Out of bounds event requested")
  else if Host.memory < count.toNat * sizeofEvent type then .error .badAlloc
  else
    match r.dataset with
    | none => .error .highFive
    | some ds =>
      -- a selection beyond the extent of the dataset cannot be read
      if index.toNat + count.toNat ≤ ds.rows.length then
        .ok ((ds.rows.drop index.toNat).take count.toNat)
      else .error .highFive

section
variable [Host] (FS) [HighFive R FS] (r : Reader R) (index count : UInt64)

def getCAEN : Except Exn (List (CAENEvent R)) :=
  (r.get .CAEN "Non CAEN readout type" index count).map (List.map (HighFive.asCAEN FS))

def getTTLMonitor : Except Exn (List (TTLMonitorEvent R)) :=
  (r.get .TTLMonitor "Non TTLMonitor readout type" index count).map
    (List.map (HighFive.asTTLMonitor FS))

def getVMM3 : Except Exn (List (VMM3Event R)) :=
  (r.get .VMM3 "Non VMM3 readout type" index count).map (List.map (HighFive.asVMM3 FS))

def getDREAM : Except Exn (List (DREAMEvent R)) :=
  (r.get .DREAM "Non VMM3 readout type" index count).map (List.map (HighFive.asDREAM FS))

end

section
variable [Host] (FS) [HighFive R FS] (r : Reader R)

def allCAEN : Except Exn (List (CAENEvent R)) := r.getCAEN FS 0 r.size
def allTTLMonitor : Except Exn (List (TTLMonitorEvent R)) := r.getTTLMonitor FS 0 r.size
def allVMM3 : Except Exn (List (VMM3Event R)) := r.getVMM3 FS 0 r.size
def allDREAM : Except Exn (List (DREAMEvent R)) := r.getDREAM FS 0 r.size

end

end Reader

end ReadoutMaster
