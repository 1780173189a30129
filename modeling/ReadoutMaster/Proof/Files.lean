/-
  The files of the library: what the reader asks of one, and what the writer
  makes of one.

  A file `Stores` a dataset of a detector and readout type if the reader finds
  that dataset in it, with these types.  `PassesAs` adds the ways in which a
  file without usable dataset gets through the constructor of the reader.

  * `passesAs_iff`: the constructor returns a reader of these types;
  * `get_ok`, `get_error`: what `get` returns;
  * `edits_spec`: what a list of edits makes of a file;
  * `make_spec`: the constructor of the writer leaves a file that stores an
    empty dataset, or no writer that writes.
-/
import ReadoutMaster.Reader
import ReadoutMaster.Writer
import ReadoutMaster.Lib.Machine

namespace ReadoutMaster

open Machine

variable {R FS : Type}

namespace H5File

/-- What the reader asks of a file before it looks for the dataset `name`. -/
structure Accepted (f : H5File R) (name : String) : Prop where
  program : f.attr "program" = .text "libreadout"
  version : ∃ v, f.attr "version" = .text v
  events : f.attr "events" = .text name

/-- The file holds the events dataset `ds`, called `name`, with its types. -/
structure Stores (f : H5File R) (name : String) (d : DetectorType) (r : ReadoutType)
    (ds : DataSet R) : Prop where
  accepted : f.Accepted name
  dataset : f.dataset name = some ds
  detector : ds.attr "detector" = .text (detectorTypeName d)
  readout : ds.attr "readout" = .text (readoutTypeName r)
  dataType : f.dataType (readoutTypeName r) = true
  rank : ds.rank = 1

end H5File

def Attr.Unreadable (a : Attr) : Prop := ∀ s, a ≠ .text s

/-- The constructor of the reader accepts what opening the file gave, and
    assigns these types: those of `DetectorType::Reserved` and
    `ReadoutType::CAEN` that it could not read keep their initial value. -/
inductive PassesAs : Option (H5File R) → DetectorType → ReadoutType → Prop
  | closed : PassesAs none .Reserved .CAEN
  | noDataSet {f name} : f.Accepted name → f.dataset name = none → PassesAs (some f) .Reserved .CAEN
  | noDetector {f name ds} : f.Accepted name → f.dataset name = some ds →
      (ds.attr "detector").Unreadable → PassesAs (some f) .Reserved .CAEN
  | noReadout {f name ds d} : f.Accepted name → f.dataset name = some ds →
      ds.attr "detector" = .text (detectorTypeName d) → (ds.attr "readout").Unreadable →
      PassesAs (some f) d .CAEN
  | stores {f name d r ds} : f.Stores name d r ds → PassesAs (some f) d r

/-! ## Reading -/

theorem Attr.read_eq_ok {a : Attr} {s : String} : a.read = .ok s ↔ a = .text s := by
  cases a <;> simp [Attr.read]

theorem Attr.Unreadable.read {a : Attr} (h : a.Unreadable) : a.read = .error .highFive := by
  cases a with
  | text s => exact absurd rfl (h s)
  | _ => rfl

theorem Attr.unreadable_of_read {a : Attr} {e : Exn} (h : a.read = .error e) : a.Unreadable := by
  rintro s rfl
  cases h

section
variable {file : H5File R} {name : String} {d : DetectorType} {r : ReadoutType} {ds : DataSet R}

theorem program_eq_ok {program : String} (hp : program ≠ "") :
    Reader.program file = .ok program ↔ file.attr "program" = .text program := by
  unfold Reader.program
  split_ifs with h
  · rw [h]
    constructor
    · intro he; exact absurd (Except.ok.inj he).symm hp
    · intro he; cases he
  · exact Attr.read_eq_ok

theorem ofDataSet_of_stores (h : file.Stores name d r ds) :
    Reader.ofDataSet file ds = .ok ⟨some ds, d, r⟩ := by
  unfold Reader.ofDataSet
  rw [h.detector, h.readout]
  simp only [Attr.read]
  rw [detectorTypeFromName_name, readoutTypeFromName_name]
  show (if _ then _ else if _ then _ else _) = _
  rw [if_neg (by simp [h.dataType]), if_neg (by simp [h.rank])]

/-- The reader of a file with a dataset: what it is, by the attributes. -/
theorem ofDataSet_cases {reader : Reader R} (ha : file.Accepted name)
    (hds : file.dataset name = some ds) (h : Reader.ofDataSet file ds = .ok reader) :
    PassesAs (some file) reader.detector reader.readout ∧ (reader.dataset = none ∨
      reader.dataset = some ds ∧ file.Stores name reader.detector reader.readout ds) := by
  unfold Reader.ofDataSet at h
  cases hd : (ds.attr "detector").read with
  | error e =>
    rw [hd] at h
    obtain rfl := Except.ok.inj h
    exact ⟨.noDetector ha hds (Attr.unreadable_of_read hd), Or.inl rfl⟩
  | ok detectorName =>
    rw [hd] at h
    obtain ⟨d, hd', h1⟩ := except_bind_eq_ok.1 h
    obtain rfl := detectorTypeFromName_ok hd'
    cases hr : (ds.attr "readout").read with
    | error e =>
      rw [hr] at h1
      obtain rfl := Except.ok.inj h1
      exact ⟨.noReadout ha hds (Attr.read_eq_ok.1 hd) (Attr.unreadable_of_read hr), Or.inl rfl⟩
    | ok readoutName =>
      rw [hr] at h1
      obtain ⟨r, hr', h2⟩ := except_bind_eq_ok.1 h1
      obtain rfl := readoutTypeFromName_ok hr'
      split_ifs at h2 with ht hrank
      obtain rfl := Except.ok.inj h2
      have hs : file.Stores name d r ds :=
        ⟨ha, hds, Attr.read_eq_ok.1 hd, Attr.read_eq_ok.1 hr, by simpa using ht,
          by simpa using hrank⟩
      exact ⟨.stores hs, Or.inr ⟨rfl, hs⟩⟩

variable [Host] {o : Option (H5File R)} {reader : Reader R}

theorem datasetName_eq_ok : Reader.datasetName file = .ok name ↔ file.Accepted name := by
  unfold Reader.datasetName
  constructor
  · intro h
    obtain ⟨program, hp, h1⟩ := except_bind_eq_ok.1 h
    split_ifs at h1 with hl he <;> obtain ⟨version, hv, h2⟩ := except_bind_eq_ok.1 h1
    · cases h2
    · obtain rfl := not_not.1 hl
      exact ⟨(program_eq_ok (by decide)).1 hp, ⟨version, Attr.read_eq_ok.1 hv⟩,
        Attr.read_eq_ok.1 h2⟩
  · rintro ⟨hp, ⟨version, hv⟩, he⟩
    rw [(program_eq_ok (by decide)).2 hp, hv, he]
    rfl

theorem ofFile_of_accepted (h : file.Accepted name) :
    Reader.ofFile (some file) = match file.dataset name with
      | none => .ok {}
      | some ds => Reader.ofDataSet file ds := by
  rw [Reader.ofFile, datasetName_eq_ok.2 h]
  rfl

/-- What a reader that was constructed says about its file. -/
theorem ofFile_cases (h : Reader.ofFile o = .ok reader) :
    PassesAs o reader.detector reader.readout ∧ (reader.dataset = none ∨
      ∃ f name ds, o = some f ∧ reader.dataset = some ds ∧
        f.Stores name reader.detector reader.readout ds) := by
  cases o with
  | none =>
    obtain rfl := Except.ok.inj h
    exact ⟨.closed, Or.inl rfl⟩
  | some file =>
    obtain ⟨name, hn, -⟩ := except_bind_eq_ok.1 h
    have ha := datasetName_eq_ok.1 hn
    rw [ofFile_of_accepted ha] at h
    cases hds : file.dataset name with
    | none =>
      rw [hds] at h
      obtain rfl := Except.ok.inj h
      exact ⟨.noDataSet ha hds, Or.inl rfl⟩
    | some ds =>
      rw [hds] at h
      obtain ⟨hp, hr | ⟨hr, hs⟩⟩ := ofDataSet_cases ha hds h
      · exact ⟨hp, Or.inl hr⟩
      · exact ⟨hp, Or.inr ⟨file, name, ds, rfl, hr, hs⟩⟩

theorem ofFile_of_stores (h : file.Stores name d r ds) :
    Reader.ofFile (some file) = .ok ⟨some ds, d, r⟩ := by
  rw [ofFile_of_accepted h.accepted, h.dataset]
  exact ofDataSet_of_stores h

/-- **The constructor of the reader** returns a reader of exactly the types a
    file passes as. -/
theorem passesAs_iff :
    PassesAs o d r ↔
      ∃ reader, Reader.ofFile o = .ok reader ∧ reader.detector = d ∧ reader.readout = r := by
  constructor
  · intro h
    cases h with
    | closed => exact ⟨{}, rfl, rfl, rfl⟩
    | noDataSet ha hds => exact ⟨{}, by rw [ofFile_of_accepted ha, hds], rfl, rfl⟩
    | noDetector ha hds hd =>
      refine ⟨{}, ?_, rfl, rfl⟩
      rw [ofFile_of_accepted ha, hds]
      simp only [Reader.ofDataSet, hd.read]
    | noReadout ha hds hd hr =>
      refine ⟨{ detector := d }, ?_, rfl, rfl⟩
      rw [ofFile_of_accepted ha, hds]
      simp only [Reader.ofDataSet, Attr.read_eq_ok.2 hd, detectorTypeFromName_name, hr.read, bind,
        Except.bind]
    | stores hs => exact ⟨_, ofFile_of_stores hs, rfl, rfl⟩
  · rintro ⟨reader, h, rfl, rfl⟩
    exact (ofFile_cases h).1

end

/-! ## Events -/

/-- The rows a reader finds. -/
def Reader.rows (reader : Reader R) : List (Row R) :=
  match reader.dataset with
  | some ds => ds.rows
  | none => []

/-- A row read as an event of a readout type. -/
def asRow (FS : Type) [HighFive R FS] (r : ReadoutType) (row : Row R) : Row R :=
  match r with
  | .CAEN => .caen (HighFive.asCAEN FS row)
  | .TTLMonitor => .ttlMonitor (HighFive.asTTLMonitor FS row)
  | .VMM3 => .vmm3 (HighFive.asVMM3 FS row)
  | .DREAM => .dream (HighFive.asDREAM FS row)
  | .MAGIC => row

section
variable {reader : Reader R}

theorem length_rows_lt (reader : Reader R) : reader.rows.length < 2 ^ 64 := by
  rcases reader with ⟨_ | ds, d, r⟩
  · exact Nat.two_pow_pos 64
  · exact ds.length_lt

theorem toNat_size (reader : Reader R) : reader.size.toNat = reader.rows.length := by
  rcases reader with ⟨_ | ds, d, r⟩
  · rfl
  · show (UInt64.ofNat ds.rows.length).toNat = _
    rw [UInt64.toNat_ofNat', Nat.mod_eq_of_lt ds.length_lt]
    rfl

variable [Host] {type : ReadoutType} {mismatch : String} {index count : UInt64}

/-- `get` returns the events of a range that starts inside the dataset, ends
    there, and fits into memory. -/
theorem get_ok (ht : reader.readout = type) (hi : index.toNat < reader.rows.length)
    (hc : index.toNat + count.toNat ≤ reader.rows.length)
    (hm : count.toNat * sizeofEvent type ≤ Host.memory) :
    reader.get type mismatch index count =
      .ok ((reader.rows.drop index.toNat).take count.toNat) := by
  have hlt := length_rows_lt reader
  have hsize := toNat_size reader
  have hsum : (index + count).toNat = index.toNat + count.toNat := by
    rw [UInt64.toNat_add, Nat.mod_eq_of_lt (by omega)]
  have h1 : ¬ index ≥ reader.size := by
    rw [ge_iff_le, UInt64.le_iff_toNat_le, hsize]; omega
  have h2 : ¬ index + count > reader.size := by
    rw [gt_iff_lt, UInt64.lt_iff_toNat_lt, hsize, hsum]; omega
  rw [Reader.get, if_neg (not_not.2 ht), if_neg h1, if_neg h2, if_neg (Nat.not_lt.2 hm)]
  unfold Reader.rows at hi hc ⊢
  cases hd : reader.dataset with
  | none => rw [hd] at hi; exact absurd hi (Nat.not_lt_zero _)
  | some ds =>
    rw [hd] at hc
    exact if_pos hc

theorem get_error (h : ¬ (index.toNat < reader.rows.length ∧
      index.toNat + count.toNat ≤ reader.rows.length ∧
      count.toNat * sizeofEvent type ≤ Host.memory)) :
    ∃ e, reader.get type mismatch index count = .error e := by
  have hsize := toNat_size reader
  unfold Reader.get
  split_ifs with h1 h2 h3 h4
  · exact ⟨_, rfl⟩
  · exact ⟨_, rfl⟩
  · exact ⟨_, rfl⟩
  · exact ⟨_, rfl⟩
  cases hd : reader.dataset with
  | none => exact ⟨_, rfl⟩
  | some ds =>
    refine ⟨_, if_neg fun hc => h ⟨?_, ?_, Nat.not_lt.1 h4⟩⟩
    · rw [ge_iff_le, UInt64.le_iff_toNat_le, hsize] at h2
      exact Nat.not_le.1 h2
    · rwa [Reader.rows, hd]

theorem get_out (ht : reader.readout = type) (hi : reader.rows.length ≤ index.toNat) :
    reader.get type mismatch index count =
      .error (.runtimeError "Out of bounds event requested") := by
  have hge : index ≥ reader.size := by
    rw [ge_iff_le, UInt64.le_iff_toNat_le, toNat_size]
    exact hi
  rw [Reader.get, if_neg (not_not.2 ht), if_pos hge]

/-- One event can always be read. -/
theorem get_one (ht : reader.readout = type) {j : ℕ} (hj : j < reader.rows.length) :
    reader.get type mismatch (UInt64.ofNat j) 1 = .ok [reader.rows[j]] := by
  have hlt := length_rows_lt reader
  have hjn : (UInt64.ofNat j).toNat = j := by
    rw [UInt64.toNat_ofNat', Nat.mod_eq_of_lt (by omega)]
  have hm : (1 : UInt64).toNat * sizeofEvent type ≤ Host.memory := by
    have hs : sizeofEvent type ≤ 40 := by cases type <;> decide
    have := Host.le_memory
    show 1 * _ ≤ _
    omega
  rw [get_ok ht (by omega) (by rw [hjn]; exact hj) hm, hjn]
  show Except.ok ((reader.rows.drop j).take 1) = _
  rw [List.drop_eq_getElem_cons hj, List.take_succ_cons, List.take_zero]

end

/-! ## Edits -/

section
variable {f f' : H5File R} {name : String}

theorem apply_commit (h : (Edit.commit name).apply f = some f') :
    f.dataType name = false ∧ f' = { f with dataType := Function.update f.dataType name true } := by
  rw [Edit.apply] at h
  split_ifs at h with hl
  rw [H5File.Linked, not_or] at hl
  exact ⟨Bool.eq_false_iff.2 hl.2, (Option.some.inj h).symm⟩

theorem apply_createDataSet (h : (Edit.createDataSet name).apply f = some f') :
    f' = { f with
      dataset := Function.update f.dataset name
        (some ⟨fun _ => .absent, 1, [], Nat.two_pow_pos 64⟩) } := by
  rw [Edit.apply] at h
  split_ifs at h
  exact (Option.some.inj h).symm

theorem apply_createAttribute {value : String}
    (h : (Edit.createAttribute name value).apply f = some f') :
    f' = { f with attr := Function.update f.attr name (.text value) } := by
  rw [Edit.apply] at h
  split_ifs at h
  exact (Option.some.inj h).symm

theorem apply_createDataSetAttribute {dataset value : String} {ds : DataSet R}
    (hds : f.dataset dataset = some ds)
    (h : (Edit.createDataSetAttribute dataset name value).apply f = some f') :
    f' = { f with
      dataset := Function.update f.dataset dataset
        (some { ds with attr := Function.update ds.attr name (.text value) }) } := by
  simp only [Edit.apply, hds] at h
  split_ifs at h
  exact (Option.some.inj h).symm

/-- A row is appended to the dataset a file stores. -/
theorem apply_append {d : DetectorType} {r : ReadoutType} {ds : DataSet R} {row : Row R}
    (hs : f.Stores name d r ds) (h : (Edit.append name row).apply f = some f') :
    ∃ ds', f'.Stores name d r ds' ∧ ds'.rows = ds.rows ++ [row] := by
  simp only [Edit.apply, hs.dataset] at h
  split_ifs at h with hl
  obtain rfl := Option.some.inj h
  refine ⟨{ ds with rows := ds.rows ++ [row], length_lt := hl }, ?_, rfl⟩
  exact ⟨⟨hs.accepted.program, hs.accepted.version, hs.accepted.events⟩, Function.update_self ..,
    hs.detector, hs.readout, hs.dataType, hs.rank⟩

/-- What the edits make of a file, one after another. -/
def Edit.applyAll : List (Edit R) → H5File R → Option (H5File R)
  | [], f => some f
  | e :: es, f => (e.apply f).bind (applyAll es)

/-- The edits with which the writer sets a file up. -/
def setUpEdits [Host] (d : DetectorType) (r : ReadoutType) (name : String) : List (Edit R) :=
  [.commit (readoutTypeName r), .createDataSet name, .createAttribute "program" "libreadout",
    .createAttribute "version" Host.version, .createAttribute "revision" Host.revision,
    .createAttribute "events" name, .createDataSetAttribute name "detector" (detectorTypeName d),
    .createDataSetAttribute name "readout" (readoutTypeName r)]

/-- A file that is set up had no type of the name committed, and stores an
    empty dataset. -/
theorem applyAll_setUpEdits [Host] {d : DetectorType} {r : ReadoutType}
    (h : Edit.applyAll (setUpEdits d r name) f = some f') :
    f.dataType (readoutTypeName r) = false ∧ ∃ ds, f'.Stores name d r ds ∧ ds.rows = [] := by
  simp only [setUpEdits, Edit.applyAll, Option.bind_eq_some_iff] at h
  obtain ⟨f1, h1, f2, h2, f3, h3, f4, h4, f5, h5, f6, h6, f7, h7, f8, h8, h9⟩ := h
  obtain rfl := Option.some.inj h9
  obtain ⟨hf, rfl⟩ := apply_commit h1
  obtain rfl := apply_createDataSet h2
  obtain rfl := apply_createAttribute h3
  obtain rfl := apply_createAttribute h4
  obtain rfl := apply_createAttribute h5
  obtain rfl := apply_createAttribute h6
  obtain rfl := apply_createDataSetAttribute (Function.update_self ..) h7
  obtain rfl := apply_createDataSetAttribute (Function.update_self ..) h8
  refine ⟨hf, _, ⟨⟨?_, ⟨Host.version, ?_⟩, ?_⟩, Function.update_self .., ?_, ?_, ?_, rfl⟩, rfl⟩
  all_goals simp [Function.update]

theorem applyAll_appends {d : DetectorType} {r : ReadoutType} {rows : List (Row R)} :
    ∀ {f : H5File R} {ds : DataSet R}, f.Stores name d r ds →
      Edit.applyAll (rows.map (.append name)) f = some f' →
      ∃ ds', f'.Stores name d r ds' ∧ ds'.rows = ds.rows ++ rows := by
  induction rows with
  | nil =>
    intro f ds hs h
    obtain rfl := Option.some.inj h
    exact ⟨ds, hs, (List.append_nil _).symm⟩
  | cons row rows ih =>
    intro f ds hs h
    obtain ⟨f1, h1, h⟩ := Option.bind_eq_some_iff.1 h
    obtain ⟨ds1, hs1, he1⟩ := apply_append hs h1
    obtain ⟨ds', hs', he'⟩ := ih hs1 h
    exact ⟨ds', hs', by rw [he', he1, List.append_assoc]; rfl⟩

end

/-! ## Writing -/

/-- The file at `out` stores a dataset `name` of these types and rows. -/
def OutputAt [HighFive R FS] (fs : FS) (out name : String) (d : DetectorType) (r : ReadoutType)
    (rows : List (Row R)) : Prop :=
  ∃ f ds, HighFive.openReadOnly fs out = some f ∧ f.Stores name d r ds ∧ ds.rows = rows

/-- The file at `out` has a dataset `events` of these types and rows. -/
def Output [HighFive R FS] (fs : FS) (out : String) (d : DetectorType) (r : ReadoutType)
    (rows : List (Row R)) : Prop :=
  OutputAt fs out "events" d r rows

section
variable [HighFive R FS] {fs fs' : FS} {p : String}

theorem edit_eq_ok {e : Edit R} :
    Writer.edit p e fs = .ok () fs' ↔ HighFive.edit fs p e = some fs' := by
  unfold Writer.edit
  cases HighFive.edit fs p e with
  | none => exact ⟨fun h => (by cases h), fun h => (by cases h)⟩
  | some fs1 =>
    constructor
    · intro h
      injection h with _ h
      rw [h]
    · intro h
      rw [Option.some.inj h]

theorem edit_eq_error {e : Edit R} (h : HighFive.edit fs p e = none) :
    Writer.edit p e fs = .error .highFive fs := by
  rw [Writer.edit, h]

/-- **Edits.**  A list of edits that does not throw makes of a file what it
    says, and nothing of another. -/
theorem edits_spec {es : List (Edit R)} :
    ∀ {fs : FS} {f : H5File R}, HighFive.openReadOnly fs p = some f →
      es.forM (Writer.edit p) fs = .ok () fs' →
      (∃ f', Edit.applyAll es f = some f' ∧ HighFive.openReadOnly fs' p = some f') ∧
        ∀ q, q ≠ p → HighFive.openReadOnly fs' q = HighFive.openReadOnly fs q := by
  induction es with
  | nil =>
    intro fs f hf h
    injection h with _ h
    subst h
    exact ⟨⟨f, rfl, hf⟩, fun _ _ => rfl⟩
  | cons e es ih =>
    intro fs f hf h
    obtain ⟨⟨⟩, fs1, h1, h2⟩ := bind_eq_ok.1 h
    rw [edit_eq_ok] at h1
    obtain ⟨f1, ha, hf1⟩ := HighFive.edit_same hf h1
    obtain ⟨⟨f', ha', hf'⟩, ho⟩ := ih hf1 h2
    refine ⟨⟨f', ?_, hf'⟩, fun q hq => (ho q hq).trans (HighFive.edit_other h1 hq)⟩
    rw [Edit.applyAll, ha]
    exact ha'

variable {d : DetectorType} {r : ReadoutType} {name : String}

theorem output_append {rows : List (Row R)} {row : Row R} (ho : OutputAt fs p name d r rows)
    (h : HighFive.edit fs p (.append name row) = some fs') :
    OutputAt fs' p name d r (rows ++ [row]) := by
  obtain ⟨f, ds, hf, hs, rfl⟩ := ho
  obtain ⟨f', ha, hf'⟩ := HighFive.edit_same hf h
  obtain ⟨ds', hs', he⟩ := apply_append hs ha
  exact ⟨f', ds', hf', hs', he⟩

variable [Host]

theorem setUp_eq (hr : r ≠ .MAGIC) :
    (Writer.setUp p d r name : EStateM Exn FS Unit) =
      (setUpEdits d r name).forM (Writer.edit p) := by
  have ht : (Writer.hdfCompoundType r : EStateM Exn FS Unit) = pure () := by
    cases r <;> first | rfl | exact absurd rfl hr
  unfold Writer.setUp
  rw [ht, pure_bind]
  simp only [setUpEdits, List.forM, bind_pure_unit]

theorem make_of_open {fs1 : FS} (ho : HighFive.openOrCreate fs p = some fs1) :
    Writer.make p d r name fs =
      (Writer.setUp p d r name >>= fun _ => pure ⟨p, true, some name, d, r, 0⟩) fs1 := by
  rw [Writer.make, ho]

theorem make_of_closed (ho : HighFive.openOrCreate fs p = none) :
    Writer.make p d r name fs = .ok ⟨p, false, none, d, r, 0⟩ fs := by
  rw [Writer.make, ho]

/-- **The constructor of the writer** makes a writer without file, or a file
    that stores an empty dataset. -/
theorem make_spec {w : Writer} (h : Writer.make p d r name fs = .ok w fs') :
    (HighFive.openOrCreate fs p = none ∧ fs' = fs ∧ w = ⟨p, false, none, d, r, 0⟩) ∨
      ((HighFive.openOrCreate fs p).isSome ∧ w = ⟨p, true, some name, d, r, 0⟩ ∧ r ≠ .MAGIC ∧
        (∀ f, HighFive.openReadOnly fs p = some f → f.dataType (readoutTypeName r) = false) ∧
        (∃ f ds, HighFive.openReadOnly fs' p = some f ∧ f.Stores name d r ds ∧ ds.rows = []) ∧
        ∀ q, q ≠ p → HighFive.openReadOnly fs' q = HighFive.openReadOnly fs q) := by
  cases ho : HighFive.openOrCreate fs p with
  | none =>
    rw [make_of_closed ho] at h
    injection h with hw hfs
    exact Or.inl ⟨rfl, hfs.symm, hw.symm⟩
  | some fs1 =>
    rw [make_of_open ho] at h
    obtain ⟨⟨⟩, fs2, hset, h⟩ := bind_eq_ok.1 h
    injection h with hw hfs
    subst hfs
    have hr : r ≠ .MAGIC := by
      rintro rfl
      obtain ⟨⟨⟩, _, ht, -⟩ := bind_eq_ok.1 hset
      cases ht
    rw [setUp_eq hr] at hset
    have hopen := HighFive.openOrCreate_same ho
    obtain ⟨⟨f', ha, hf'⟩, hother⟩ := edits_spec hopen hset
    obtain ⟨hnew, ds, hs, hrows⟩ := applyAll_setUpEdits ha
    refine Or.inr ⟨rfl, hw.symm, hr, ?_, ⟨f', ds, hf', hs, hrows⟩, fun q hq => ?_⟩
    · intro f hf
      rwa [hf] at hnew
    · exact (hother q hq).trans (HighFive.openOrCreate_other ho hq)

end

end ReadoutMaster
