/-
  The event classes stored in HDF5 files (lib/hdf_interface.h) and what the
  code relies on of HighFive.

  Each event class copies the members of its C readout structure
  (`ofReadout`) and packs them again positionally when it is added to a
  readout (`add`).

  HighFive is not part of the repository.  `H5File` is the content of a file
  as far as the code looks at it, `Edit` the changes the code makes to one, and
  the class `HighFive` a file system on which files are opened and edited,
  with its documented behaviour as laws: a file that opens for writing keeps
  its content or starts empty, an edit that does not throw does what it says
  to that file and nothing to another, and a stored row is read back
  unchanged.
-/
import Mathlib.Logic.Function.Basic
import ReadoutMaster.Structs

namespace ReadoutMaster

/-! ## Events -/

structure Event (R : Type) where
  ring : UInt8
  fen : UInt8
  time : R
  weight : R
  deriving DecidableEq

structure CAENEvent (R : Type) extends Event R where
  channel : UInt8
  a : UInt16
  b : UInt16
  c : UInt16
  d : UInt16
  deriving DecidableEq

structure TTLMonitorEvent (R : Type) extends Event R where
  channel : UInt8
  pos : UInt8
  adc : UInt16
  deriving DecidableEq

structure DREAMEvent (R : Type) extends Event R where
  om : UInt8
  cathode : UInt8
  anode : UInt8
  deriving DecidableEq

structure VMM3Event (R : Type) extends Event R where
  bc : UInt16
  otadc : UInt16
  geo : UInt8
  tdc : UInt8
  vmm : UInt8
  channel : UInt8
  deriving DecidableEq

section
variable {R α : Type}

def CAENEvent.ofReadout (r f : UInt8) (t w : R) (ro : CAENReadout) : CAENEvent R where
  ring := r
  fen := f
  time := t
  weight := w
  channel := ro.channel
  a := ro.a
  b := ro.b
  c := ro.c
  d := ro.d

def TTLMonitorEvent.ofReadout (r f : UInt8) (t w : R) (p : TTLMonitorReadout) :
    TTLMonitorEvent R where
  ring := r
  fen := f
  time := t
  weight := w
  channel := p.channel
  pos := p.pos
  adc := p.adc

def DREAMEvent.ofReadout (r f : UInt8) (t w : R) (p : DREAMReadout) : DREAMEvent R where
  ring := r
  fen := f
  time := t
  weight := w
  om := p.om
  cathode := p.cathode
  anode := p.anode

def VMM3Event.ofReadout (r f : UInt8) (t w : R) (p : VMM3Readout) : VMM3Event R where
  ring := r
  fen := f
  time := t
  weight := w
  bc := p.bc
  otadc := p.otadc
  geo := p.geo
  tdc := p.tdc
  vmm := p.vmm
  channel := p.channel

/-- The method `addReadout` of the object an event is added to. -/
abbrev AddReadout (R α : Type) := UInt8 → UInt8 → R → R → VoidPtr → α

def CAENEvent.add (e : CAENEvent R) (addReadout : AddReadout R α) : α :=
  let r : CAENReadout := ⟨e.channel, e.a, e.b, e.c, e.d⟩
  addReadout e.ring e.fen e.time e.weight (VoidPtr.ofCAEN r)

def TTLMonitorEvent.add (e : TTLMonitorEvent R) (addReadout : AddReadout R α) : α :=
  let r : TTLMonitorReadout := ⟨e.channel, e.pos, e.adc⟩
  addReadout e.ring e.fen e.time e.weight (VoidPtr.ofTTLMonitor r)

def DREAMEvent.add (e : DREAMEvent R) (addReadout : AddReadout R α) : α :=
  let r : DREAMReadout := ⟨e.om, e.cathode, e.anode⟩
  addReadout e.ring e.fen e.time e.weight (VoidPtr.ofDREAM r)

def VMM3Event.add (e : VMM3Event R) (addReadout : AddReadout R α) : α :=
  let r : VMM3Readout := ⟨e.bc, e.otadc, e.geo, e.tdc, e.vmm, e.channel⟩
  addReadout e.ring e.fen e.time e.weight (VoidPtr.ofVMM3 r)

/-- A row of an events dataset. -/
inductive Row (R : Type) where
  | caen (e : CAENEvent R)
  | ttlMonitor (e : TTLMonitorEvent R)
  | vmm3 (e : VMM3Event R)
  | dream (e : DREAMEvent R)
  deriving DecidableEq

/-- The size in memory of the event class of a readout type (`sizeof`). -/
def sizeofEvent : ReadoutType → ℕ
  | .CAEN => 40
  | .TTLMonitor => 32
  | .VMM3 => 32
  | .DREAM => 32
  | .MAGIC => 0

end

/-! ## HighFive -/

/-- An attribute: not there, not readable as a string, or a string. -/
inductive Attr where
  | absent
  | unreadable
  | text (s : String)
  deriving DecidableEq, Repr

/-- `getAttribute(name).read<std::string>()`. -/
def Attr.read : Attr → Except Exn String
  | .text s => .ok s
  | _ => .error .highFive

/-- A dataset of rank `rank`; if it is one-dimensional its extent is the
    number of its rows, an `hsize_t`. -/
structure DataSet (R : Type) where
  attr : String → Attr
  rank : ℕ
  rows : List (Row R)
  length_lt : rows.length < 2 ^ 64

/-- The content of a file: its attributes, datasets and committed types. -/
structure H5File (R : Type) where
  attr : String → Attr
  dataset : String → Option (DataSet R)
  dataType : String → Bool

namespace H5File
variable {R : Type}

def empty : H5File R := ⟨fun _ => .absent, fun _ => none, fun _ => false⟩

/-- The name is taken by a dataset or a committed type. -/
def Linked (f : H5File R) (name : String) : Prop := (f.dataset name).isSome ∨ f.dataType name = true

instance (f : H5File R) (name : String) : Decidable (f.Linked name) :=
  inferInstanceAs (Decidable (_ ∨ _))

end H5File

/-- The changes made to an open file. -/
inductive Edit (R : Type) where
  /-- `type.commit(file, name)` -/
  | commit (name : String)
  /-- `file.createDataSet(name, ...)`, empty and of unlimited extent -/
  | createDataSet (name : String)
  /-- `file.createAttribute(name, value)` -/
  | createAttribute (name value : String)
  /-- `dataset.createAttribute(name, value)` -/
  | createDataSetAttribute (dataset name value : String)
  /-- `dataset.resize({size + 1})` and `dataset.select({size}, {1}).write(row)` -/
  | append (dataset : String) (row : Row R)

/-- What an edit makes of the content of a file, if it does not throw. -/
def Edit.apply {R : Type} : Edit R → H5File R → Option (H5File R)
  | .commit name, f =>
    if f.Linked name then none
    else some { f with dataType := Function.update f.dataType name true }
  | .createDataSet name, f =>
    if f.Linked name then none
    else some { f with
      dataset := Function.update f.dataset name
        (some ⟨fun _ => .absent, 1, [], Nat.two_pow_pos 64⟩) }
  | .createAttribute name value, f =>
    if f.attr name = .absent then
      some { f with attr := Function.update f.attr name (.text value) }
    else none
  | .createDataSetAttribute dataset name value, f =>
    match f.dataset dataset with
    | none => none
    | some ds =>
      if ds.attr name = .absent then
        some { f with
          dataset := Function.update f.dataset dataset
            (some { ds with attr := Function.update ds.attr name (.text value) }) }
      else none
  | .append dataset row, f =>
    match f.dataset dataset with
    | none => none
    | some ds =>
      if h : (ds.rows ++ [row]).length < 2 ^ 64 then
        some { f with
          dataset := Function.update f.dataset dataset
            (some { ds with rows := ds.rows ++ [row], length_lt := h }) }
      else none

/-- A file system seen through HighFive.  `none` stands for
    `HighFive::Exception`; a path names a file, two paths two files. -/
class HighFive (R : outParam Type) (FS : Type) where
  /-- `HighFive::File(path, ReadOnly)` -/
  openReadOnly : FS → String → Option (H5File R)
  /-- `HighFive::File(path, OpenOrCreate)` -/
  openOrCreate : FS → String → Option FS
  /-- an edit of the file at the path, open for writing -/
  edit : FS → String → Edit R → Option FS
  /-- a row read as an event of the given class -/
  asCAEN : Row R → CAENEvent R
  asTTLMonitor : Row R → TTLMonitorEvent R
  asVMM3 : Row R → VMM3Event R
  asDREAM : Row R → DREAMEvent R
  openOrCreate_same : ∀ {fs fs' p}, openOrCreate fs p = some fs' →
    openReadOnly fs' p = some ((openReadOnly fs p).getD H5File.empty)
  openOrCreate_other : ∀ {fs fs' p q}, openOrCreate fs p = some fs' → q ≠ p →
    openReadOnly fs' q = openReadOnly fs q
  edit_same : ∀ {fs fs' p f e}, openReadOnly fs p = some f → edit fs p e = some fs' →
    ∃ f', e.apply f = some f' ∧ openReadOnly fs' p = some f'
  edit_other : ∀ {fs fs' p q e}, edit fs p e = some fs' → q ≠ p →
    openReadOnly fs' q = openReadOnly fs q
  asCAEN_caen : ∀ e, asCAEN (.caen e) = e
  asTTLMonitor_ttlMonitor : ∀ e, asTTLMonitor (.ttlMonitor e) = e
  asVMM3_vmm3 : ∀ e, asVMM3 (.vmm3 e) = e
  asDREAM_dream : ∀ e, asDREAM (.dream e) = e

attribute [simp] HighFive.asCAEN_caen HighFive.asTTLMonitor_ttlMonitor HighFive.asVMM3_vmm3
  HighFive.asDREAM_dream

/-- A file system on which files can be removed as well.  Whether a path may be
    written is up to its owner, and nothing done to files changes it. -/
class Storage (R : outParam Type) (FS : Type) extends HighFive R FS where
  /-- `remove(path)` of the C library; `none` if it fails -/
  remove : FS → String → Option FS
  Writable : FS → String → Prop
  remove_same : ∀ {fs fs' p}, remove fs p = some fs' → openReadOnly fs' p = none
  remove_other : ∀ {fs fs' p q}, remove fs p = some fs' → q ≠ p →
    openReadOnly fs' q = openReadOnly fs q
  openOrCreate_isSome : ∀ {fs p}, Writable fs p → (openOrCreate fs p).isSome
  writable_openOrCreate : ∀ {fs fs' p q}, openOrCreate fs p = some fs' → Writable fs q →
    Writable fs' q
  writable_edit : ∀ {fs fs' p q e}, edit fs p e = some fs' → Writable fs q → Writable fs' q

/-- What the code relies on of its build and of the C++ run-time. -/
class Host where
  /-- `libreadout::version::version_number` and `git_revision` -/
  version : String
  revision : String
  /-- the largest block, in bytes, the allocator hands out -/
  memory : ℕ
  memory_lt : memory < 2 ^ 62
  le_memory : 4096 ≤ memory
  /-- what `std::shuffle` with a fresh `std::default_random_engine` does to a
      range of `n` elements -/
  shuffle : ∀ n, Equiv.Perm (Fin n)

end ReadoutMaster
