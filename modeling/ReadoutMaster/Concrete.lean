/-
  A concrete surrounding in which the code can be run: exact rationals for
  `double`, an in-memory disk for the file system, and a host.

  The laws of `HighFive` are proved of the disk, so they can be met.  Whether a
  file is there, may be opened, and may be written is its `DiskEntry`.
-/
import ReadoutMaster.Console
import ReadoutMaster.Proof.Ops
import ReadoutMaster.Proof.Files
import Mathlib.Data.Rat.Defs

namespace ReadoutMaster

/-- Seconds and ticks of a rational that is not negative, rounded down. -/
def EfuTime.ofRat (x : ℚ) : EfuTime :=
  ⟨UInt32.ofNat (x.num.toNat / x.den), UInt32.ofNat (x.num.toNat % x.den * 88052499 / x.den)⟩

theorem EfuTime.canonical_ofRat (x : ℚ) : (EfuTime.ofRat x).Canonical := by
  have h1 : x.num.toNat % x.den < x.den := Nat.mod_lt _ x.den_pos
  have h2 : x.num.toNat % x.den * 88052499 / x.den < 88052499 :=
    Nat.div_lt_of_lt_mul (Nat.mul_lt_mul_of_pos_right h1 (by decide))
  rw [Canonical, ofRat, UInt32.toNat_ofNat']
  exact (Nat.mod_le _ _).trans_lt h2

instance : CDouble ℚ where
  truthy x := x ≠ 0
  recip x := 1 / x
  toEfu := EfuTime.ofRat
  canonical_toEfu := EfuTime.canonical_ofRat

/-- What stands at a path. -/
inductive DiskEntry (R : Type) where
  | missing
  /-- neither there nor possible to create -/
  | denied
  | readOnly (f : H5File R)
  | file (f : H5File R)

/-- A disk in memory. -/
abbrev Disk (R : Type) := String → DiskEntry R

namespace Disk
variable {R : Type}

def openReadOnly (d : Disk R) (p : String) : Option (H5File R) :=
  match d p with
  | .readOnly f | .file f => some f
  | .missing | .denied => none

def openOrCreate (d : Disk R) (p : String) : Option (Disk R) :=
  match d p with
  | .missing => some (Function.update d p (.file .empty))
  | .file _ => some d
  | .denied | .readOnly _ => none

def edit (d : Disk R) (p : String) (e : Edit R) : Option (Disk R) :=
  match d p with
  | .file f => (e.apply f).map fun f' => Function.update d p (.file f')
  | _ => none

end Disk

/-- The event base of a row. -/
def Row.event {R : Type} : Row R → Event R
  | .caen e => e.toEvent
  | .ttlMonitor e => e.toEvent
  | .vmm3 e => e.toEvent
  | .dream e => e.toEvent

instance {R : Type} : HighFive R (Disk R) where
  openReadOnly := Disk.openReadOnly
  openOrCreate := Disk.openOrCreate
  edit := Disk.edit
  asCAEN
    | .caen e => e
    | row => ⟨row.event, 0, 0, 0, 0, 0⟩
  asTTLMonitor
    | .ttlMonitor e => e
    | row => ⟨row.event, 0, 0, 0⟩
  asVMM3
    | .vmm3 e => e
    | row => ⟨row.event, 0, 0, 0, 0, 0, 0⟩
  asDREAM
    | .dream e => e
    | row => ⟨row.event, 0, 0, 0⟩
  openOrCreate_same {d d' p} h := by
    cases hp : d p with
    | missing =>
      simp only [Disk.openOrCreate, hp, Option.some.injEq] at h
      simp [Disk.openReadOnly, ← h, hp]
    | file f =>
      simp only [Disk.openOrCreate, hp, Option.some.injEq] at h
      simp [Disk.openReadOnly, ← h, hp]
    | denied | readOnly f => simp [Disk.openOrCreate, hp] at h
  openOrCreate_other {d d' p q} h hq := by
    cases hp : d p with
    | missing =>
      simp only [Disk.openOrCreate, hp, Option.some.injEq] at h
      simp only [Disk.openReadOnly, ← h, Function.update_of_ne hq]
    | file f =>
      simp only [Disk.openOrCreate, hp, Option.some.injEq] at h
      rw [h]
    | denied | readOnly f => simp [Disk.openOrCreate, hp] at h
  edit_same {d d' p f e} ho h := by
    cases hp : d p with
    | file g =>
      simp only [Disk.openReadOnly, hp, Option.some.injEq] at ho
      subst ho
      simp only [Disk.edit, hp, Option.map_eq_some_iff] at h
      obtain ⟨f', h1, rfl⟩ := h
      exact ⟨f', h1, by simp [Disk.openReadOnly]⟩
    | missing | denied | readOnly g => simp [Disk.edit, hp] at h
  edit_other {d d' p q e} h hq := by
    cases hp : d p with
    | file g =>
      simp only [Disk.edit, hp, Option.map_eq_some_iff] at h
      obtain ⟨f', -, rfl⟩ := h
      simp only [Disk.openReadOnly, Function.update_of_ne hq]
    | missing | denied | readOnly g => simp [Disk.edit, hp] at h
  asCAEN_caen _ := rfl
  asTTLMonitor_ttlMonitor _ := rfl
  asVMM3_vmm3 _ := rfl
  asDREAM_dream _ := rfl

/-- The path can be opened for writing. -/
def DiskEntry.Writable {R : Type} : DiskEntry R → Prop
  | .missing | .file _ => True
  | .denied | .readOnly _ => False

theorem DiskEntry.writable_update {R : Type} {d : Disk R} {p q : String} {f : H5File R}
    (h : (d q).Writable) : (Function.update d p (.file f) q).Writable := by
  by_cases hq : q = p
  · subst hq
    rw [Function.update_self]
    trivial
  · rwa [Function.update_of_ne hq]

instance {R : Type} : Storage R (Disk R) where
  remove d p :=
    match d p with
    | .file _ | .readOnly _ => some (Function.update d p .missing)
    | .missing | .denied => none
  Writable d p := (d p).Writable
  remove_same {d d' p} h := by
    cases hp : d p with
    | file f | readOnly f =>
      simp only [hp, Option.some.injEq] at h
      simp [HighFive.openReadOnly, Disk.openReadOnly, ← h]
    | missing | denied => simp [hp] at h
  remove_other {d d' p q} h hq := by
    cases hp : d p with
    | file f | readOnly f =>
      simp only [hp, Option.some.injEq] at h
      simp only [HighFive.openReadOnly, Disk.openReadOnly, ← h, Function.update_of_ne hq]
    | missing | denied => simp [hp] at h
  openOrCreate_isSome {d p} h := by
    cases hp : d p with
    | missing | file f => simp [HighFive.openOrCreate, Disk.openOrCreate, hp]
    | denied | readOnly f => simp [hp, DiskEntry.Writable] at h
  writable_openOrCreate {d d' p q} h hq := by
    cases hp : d p with
    | missing =>
      simp only [HighFive.openOrCreate, Disk.openOrCreate, hp, Option.some.injEq] at h
      rw [← h]
      exact DiskEntry.writable_update hq
    | file f =>
      simp only [HighFive.openOrCreate, Disk.openOrCreate, hp, Option.some.injEq] at h
      rwa [← h]
    | denied | readOnly f => simp [HighFive.openOrCreate, Disk.openOrCreate, hp] at h
  writable_edit {d d' p q e} h hq := by
    cases hp : d p with
    | file f =>
      simp only [HighFive.edit, Disk.edit, hp, Option.map_eq_some_iff] at h
      obtain ⟨f', -, rfl⟩ := h
      exact DiskEntry.writable_update hq
    | missing | denied | readOnly f => simp [HighFive.edit, Disk.edit, hp] at h

/-- A host with a terabyte of memory, whose shuffle leaves ranges as they
    are. -/
instance : Host where
  version := "0.0.0"
  revision := ""
  memory := 2 ^ 40
  memory_lt := by decide
  le_memory := by decide
  shuffle _ := Equiv.refl _

/-- A library whose strings throw, with the text of `std::logic_error`. -/
instance : StdString where
  fromNull := .error (.runtimeError "basic_string: construction from null is not valid")

/-- A dataset as the writer leaves it. -/
def DataSet.written {R : Type} (d : DetectorType) (r : ReadoutType) (rows : List (Row R))
    (h : rows.length < 2 ^ 64) : DataSet R where
  attr n :=
    if n = "detector" then .text (detectorTypeName d)
    else if n = "readout" then .text (readoutTypeName r)
    else .absent
  rank := 1
  rows
  length_lt := h

/-- A file as the writer leaves it. -/
def H5File.written {R : Type} (ds : DataSet R) (r : ReadoutType) : H5File R where
  attr n :=
    if n = "program" then .text "libreadout"
    else if n = "version" ∨ n = "revision" then .text ""
    else if n = "events" then .text "events"
    else .absent
  dataset n := if n = "events" then some ds else none
  dataType n := n = readoutTypeName r

theorem H5File.stores_written {R : Type} {d : DetectorType} {r : ReadoutType} {rows : List (Row R)}
    {h : rows.length < 2 ^ 64} :
    (H5File.written (DataSet.written d r rows h) r).Stores "events" d r
      (DataSet.written d r rows h) where
  accepted := ⟨rfl, ⟨"", rfl⟩, rfl⟩
  dataset := rfl
  detector := rfl
  readout := rfl
  dataType := decide_eq_true rfl
  rank := rfl

/-- A disk without files. -/
def Disk.blank : Disk ℚ := fun _ => .missing

/-- A dataset with one event of a LOKI detector. -/
def oneEvent : DataSet ℚ :=
  .written .LOKI .CAEN [.caen ⟨⟨1, 2, 1 / 100, 1⟩, 3, 4, 5, 6, 7⟩] (by decide)

/-- A disk with a file of this dataset. -/
def Disk.withEvent : Disk ℚ :=
  Function.update Disk.blank "in.h5" (.file (.written oneEvent .CAEN))

/-- A socket that accepts every datagram. -/
def openSocket : ℕ → SendResult := fun _ => ⟨0, 0⟩

/-- A random engine that draws ones. -/
def ones : ℕ → Draw := fun _ => ⟨1, by decide⟩

/-- A readout of type `d`, created ten seconds after the epoch for a source of
    1 Hz. -/
def atTen (d : DetectorType) : World ℚ (Disk ℚ) :=
  World.created d ⟨1, 0⟩ ⟨10, 0⟩ ⟨9, 0⟩ Disk.blank openSocket ones

theorem create_atTen (d : DetectorType) :
    readoutCreate 10000000000 (1 : ℚ) d.code.toNat Disk.blank openSocket ones = .ok (atTen d) := by
  have hp : CDouble.toEfu (CDouble.recip (1 : ℚ)) = ⟨1, 0⟩ := by decide +kernel
  have ht : EfuTime.now 10000000000 = ⟨10, 0⟩ := by decide +kernel
  rw [readoutCreate, hp, ht]
  exact make_eq (detectorTypeFromInt_code d) (by decide)

end ReadoutMaster
