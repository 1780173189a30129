/-
  Merging files: what `readout_merge_files` leaves when it returns, and which
  bad inputs it rejects.

  * `merged_iff`: the output holds the events of the inputs, one after another,
    exactly if every input stores events and the output could be opened (or
    held them before);
  * `rejects_iff`: bad inputs are rejected with the output untouched exactly if
    they do not all pass as files of the same types (or the output already has
    the type that would be committed to it).

  Both are false of some inputs, since the constructors of the reader and the
  writer catch the exception of a file that does not open.
-/
import ReadoutMaster.Merge
import ReadoutMaster.Proof.Files
import ReadoutMaster.Concrete

namespace ReadoutMaster

open Machine

variable {R FS : Type} [HighFive R FS]

/-! ## Copying -/

section
variable [Host] {fs fs' : FS} {p out : String} {w : Writer} {d : DetectorType} {r : ReadoutType}
  {reader : Reader R}

theorem openReader_ok (h : Reader.make fs p = .ok reader) :
    openReader p fs = .ok reader fs := by
  rw [openReader, h]
  rfl

theorem openReader_error {e : Exn} (h : Reader.make (R := R) fs p = .error e) :
    openReader p fs = .error e fs := by
  rw [openReader, h]
  rfl

theorem copyEvent_eq (hr : r ≠ .MAGIC) (ht : reader.readout = r) {j : ℕ}
    (hj : j < reader.rows.length) :
    (copyEvent w r reader (UInt64.ofNat j) : EStateM Exn FS Unit) =
      w.saveRow (asRow FS r reader.rows[j]) := by
  cases r with
  | MAGIC => exact absurd rfl hr
  | CAEN | TTLMonitor | VMM3 | DREAM =>
    simp only [copyEvent, saveFront, Reader.getCAEN, Reader.getTTLMonitor, Reader.getVMM3,
      Reader.getDREAM, get_one ht hj]
    rfl

/-- An input is copied by saving its rows. -/
theorem copyInput_eq (hr : r ≠ .MAGIC) (h : Reader.make fs p = .ok reader)
    (ht : reader.readout = r) :
    copyInput w r p fs = (reader.rows.map (asRow FS r)).forM w.saveRow fs := by
  have hloop : ((List.range reader.rows.length).forM fun j =>
      copyEvent w r reader (UInt64.ofNat j)) =
      reader.rows.forM fun row => (w.saveRow (asRow FS r row) : EStateM Exn FS Unit) :=
    forM_range_length fun j hj => copyEvent_eq hr ht hj
  rw [copyInput, bind_of_ok (openReader_ok h), toNat_size, hloop, forM_map]

/-- Without a file the writer drops every event. -/
theorem final_copyInput_closed (hw : w.file = false) : final (copyInput w r p) fs = fs := by
  have hrow : ∀ row : Row R, (w.saveRow row : EStateM Exn FS Unit) = pure () := by
    intro row
    rw [Writer.saveRow, hw]
  have hfront : ∀ {α : Type} (row : α → Row R) (get : UInt64 → UInt64 → Except Exn (List α)) j t,
      final (saveFront w row get j : EStateM Exn FS Unit) t = t := by
    intro α row get j t
    unfold saveFront
    cases get j 1 with
    | error e => rfl
    | ok events =>
      rw [lift_ok_bind]
      cases events with
      | nil => rfl
      | cons e es => simp only [hrow]; rfl
  cases hr : Reader.make (R := R) fs p with
  | error e => exact final_of_error (by rw [copyInput, bind_of_error (openReader_error hr)])
  | ok reader =>
    rw [copyInput]
    refine final_bind (P := fun t => t = fs) (final_of_ok (openReader_ok hr)) ?_
    intro a t _ ht
    refine forM_inv (P := fun t => t = fs) (fun j _ t ht => ?_) ht
    subst ht
    cases r <;> first | exact hfront _ _ _ _ | rfl

/-- A writer without file copies an input of CAEN events to nowhere. -/
theorem copyInput_closed (hw : w.file = false)
    (h : PassesAs (HighFive.openReadOnly fs p) d .CAEN) : copyInput w .CAEN p fs = .ok () fs := by
  obtain ⟨reader, hread, -, ht⟩ := passesAs_iff.1 h
  rw [copyInput_eq (by decide) hread ht]
  refine forM_skip ?_
  intro row _
  rw [Writer.saveRow, hw]
  rfl

/-! ## Validation -/

theorem PassesAs.unique {o : Option (H5File R)} {d' : DetectorType} {r' : ReadoutType}
    (h : PassesAs o d r) (h' : PassesAs o d' r') : d = d' ∧ r = r' := by
  obtain ⟨reader, h1, rfl, rfl⟩ := passesAs_iff.1 h
  obtain ⟨reader', h2, rfl, rfl⟩ := passesAs_iff.1 h'
  obtain rfl := Except.ok.inj (h1.symm.trans h2)
  exact ⟨rfl, rfl⟩

/-- The validation loop compares the types of the inputs with the given
    ones. -/
theorem checkInputs_some (fs : FS) (d : DetectorType) (r : ReadoutType) (ps : List String) :
    (∀ p ∈ ps, PassesAs (HighFive.openReadOnly fs p) d r) ∧
        checkInputs (some (d, r)) ps fs = .ok (some (d, r)) fs ∨
      ¬ (∀ p ∈ ps, PassesAs (HighFive.openReadOnly fs p) d r) ∧
        ∃ e, checkInputs (some (d, r)) ps fs = .error e fs := by
  induction ps with
  | nil => exact Or.inl ⟨fun _ hp => absurd hp List.not_mem_nil, rfl⟩
  | cons p ps ih =>
    rw [checkInputs]
    cases hr : Reader.make (R := R) fs p with
    | error e =>
      refine Or.inr ⟨?_, e, bind_of_error (openReader_error hr)⟩
      intro h
      obtain ⟨reader, h1, -⟩ := passesAs_iff.1 (h p List.mem_cons_self)
      cases hr.symm.trans h1
    | ok reader =>
      rw [bind_of_ok (openReader_ok hr)]
      by_cases ht : d = reader.detector ∧ r = reader.readout
      · obtain ⟨rfl, rfl⟩ := ht
        have hp : PassesAs (HighFive.openReadOnly fs p) reader.detector reader.readout :=
          passesAs_iff.2 ⟨reader, hr, rfl, rfl⟩
        simp only [ne_eq, not_true_eq_false, or_self, if_false]
        rcases ih with ⟨h1, h2⟩ | ⟨h1, h2⟩
        · exact Or.inl ⟨List.forall_mem_cons.2 ⟨hp, h1⟩, h2⟩
        · exact Or.inr ⟨fun h => h1 (List.forall_mem_cons.1 h).2, h2⟩
      · have hne : d ≠ reader.detector ∨ r ≠ reader.readout := not_and_or.1 ht
        refine Or.inr ⟨fun h => ht ?_, .runtimeError "Mismatched detector or readout types", ?_⟩
        · exact (h p List.mem_cons_self).unique (passesAs_iff.2 ⟨reader, hr, rfl, rfl⟩)
        · simp only [hne, if_true]
          rfl

/-- **The validation loop** accepts inputs that all pass as files of the same
    types. -/
theorem checkInputs_none (fs : FS) (first : String) (rest : List String) :
    (∃ d r, (∀ p ∈ first :: rest, PassesAs (HighFive.openReadOnly fs p) d r) ∧
        checkInputs none (first :: rest) fs = .ok (some (d, r)) fs) ∨
      ¬ (∃ d r, ∀ p ∈ first :: rest, PassesAs (HighFive.openReadOnly fs p) d r) ∧
        ∃ e, checkInputs none (first :: rest) fs = .error e fs := by
  rw [checkInputs]
  cases hr : Reader.make (R := R) fs first with
  | error e =>
    refine Or.inr ⟨?_, e, bind_of_error (openReader_error hr)⟩
    rintro ⟨d, r, h⟩
    obtain ⟨reader, h1, -⟩ := passesAs_iff.1 (h first List.mem_cons_self)
    cases hr.symm.trans h1
  | ok reader =>
    rw [bind_of_ok (openReader_ok hr)]
    have hp : PassesAs (HighFive.openReadOnly fs first) reader.detector reader.readout :=
      passesAs_iff.2 ⟨reader, hr, rfl, rfl⟩
    rcases checkInputs_some fs reader.detector reader.readout rest with ⟨h1, h2⟩ | ⟨h1, h2⟩
    · exact Or.inl ⟨_, _, List.forall_mem_cons.2 ⟨hp, h1⟩, h2⟩
    · refine Or.inr ⟨?_, h2⟩
      rintro ⟨d, r, h⟩
      obtain ⟨rfl, rfl⟩ := (h first List.mem_cons_self).unique hp
      exact h1 (List.forall_mem_cons.1 h).2

/-- A merge either rejects its inputs, or writes them to a file of the types
    they all have. -/
theorem mergeFiles_cases (fs : FS) (out first : String) (rest : List String) :
    (∃ d r, (∀ p ∈ first :: rest, PassesAs (HighFive.openReadOnly fs p) d r) ∧
        mergeFiles out (first :: rest) fs =
          (Writer.make out d r "events" >>= fun w => (first :: rest).forM (copyInput w r)) fs) ∨
      ¬ (∃ d r, ∀ p ∈ first :: rest, PassesAs (HighFive.openReadOnly fs p) d r) ∧
        ∃ e, mergeFiles out (first :: rest) fs = .error e fs := by
  rcases checkInputs_none fs first rest with ⟨d, r, h1, h2⟩ | ⟨h1, e, h2⟩
  · exact Or.inl ⟨d, r, h1, by rw [mergeFiles, bind_of_ok h2]⟩
  · exact Or.inr ⟨h1, e, by rw [mergeFiles, bind_of_error h2]⟩

end

/-! ## The output -/

/-- The input at `p` stores events of these types, and these are its events. -/
def EventsIn (fs : FS) (p : String) (d : DetectorType) (r : ReadoutType) (rows : List (Row R)) :
    Prop :=
  ∃ f name ds, HighFive.openReadOnly fs p = some f ∧ f.Stores name d r ds ∧
    rows = ds.rows.map (asRow FS r)

/-- The file at `out` in `fs'` holds the events of the inputs in `fs`, one
    input after another. -/
def Merged (fs fs' : FS) (out : String) (inputs : List String) : Prop :=
  ∃ d r, ∃ rows : String → List (Row R), (∀ p ∈ inputs, EventsIn fs p d r (rows p)) ∧
    Output fs' out d r (inputs.flatMap rows)

/-- The file at `p` can be opened and stores events. -/
def HasEvents (fs : FS) (p : String) : Prop :=
  ∃ f name d r ds, HighFive.openReadOnly fs p = some f ∧ f.Stores name d r ds

section
variable [Host] {fs fs' : FS} {p out : String} {d : DetectorType} {r : ReadoutType}
  {inputs : List String}

/-- Copying an input appends its events to the output, and changes no other
    file. -/
theorem copyInput_spec {v : Int} {rows rows' : List (Row R)} (hr : r ≠ .MAGIC)
    (hp : EventsIn fs p d r rows) (ho : Output fs out d r rows')
    (h : copyInput ⟨out, true, some "events", d, r, v⟩ r p fs = .ok () fs') :
    Output fs' out d r (rows' ++ rows) ∧
      ∀ q, q ≠ out → HighFive.openReadOnly fs' q = HighFive.openReadOnly fs q := by
  obtain ⟨fp, name, dp, hfp, hsp, rfl⟩ := hp
  obtain ⟨f, ds, hf, hs, rfl⟩ := ho
  have hread : Reader.make fs p = .ok ⟨some dp, d, r⟩ := by
    rw [Reader.make, hfp]
    exact ofFile_of_stores hsp
  rw [copyInput_eq hr hread rfl] at h
  have hsave : ((dp.rows.map (asRow FS r)).map (Edit.append "events")).forM (Writer.edit out) fs =
      .ok () fs' := by
    rw [forM_map]
    exact h
  obtain ⟨⟨f', ha, hf'⟩, hother⟩ := edits_spec hf hsave
  obtain ⟨ds', hs', he⟩ := applyAll_appends hs ha
  exact ⟨⟨f', ds', hf', hs', he⟩, hother⟩

omit [Host] in
/-- The events of a file are there as long as the file is the same. -/
theorem EventsIn.of_same {rows : List (Row R)} (h : EventsIn fs p d r rows)
    (hsame : HighFive.openReadOnly fs' p = HighFive.openReadOnly fs p) :
    EventsIn fs' p d r rows := by
  obtain ⟨f, name, ds, hf, hs⟩ := h
  exact ⟨f, name, ds, hsame.trans hf, hs⟩

theorem copyInputs_spec {v : Int} {rows : String → List (Row R)} (hr : r ≠ .MAGIC) :
    ∀ {inputs : List String} {fs : FS} {rows' : List (Row R)},
      (∀ p ∈ inputs, p ≠ out ∧ EventsIn fs p d r (rows p)) → Output fs out d r rows' →
      inputs.forM (copyInput ⟨out, true, some "events", d, r, v⟩ r) fs = .ok () fs' →
      Output fs' out d r (rows' ++ inputs.flatMap rows)
  | [], fs, rows', _, ho, h => by
    injection h with _ h
    subst h
    rwa [List.flatMap_nil, List.append_nil]
  | p :: ps, fs, rows', hp, ho, h => by
    obtain ⟨⟨⟩, fs1, h1, h2⟩ := bind_eq_ok.1 h
    obtain ⟨ho1, hother⟩ := copyInput_spec hr (hp p List.mem_cons_self).2 ho h1
    have hps : ∀ q ∈ ps, q ≠ out ∧ EventsIn fs1 q d r (rows q) := by
      intro q hq
      obtain ⟨hne, hin⟩ := hp q (List.mem_cons_of_mem _ hq)
      exact ⟨hne, hin.of_same (hother q hne)⟩
    have := copyInputs_spec hr hps ho1 h2
    rwa [List.append_assoc, ← List.flatMap_cons] at this

/-- An input that stores events passes as a file of its types. -/
theorem eventsIn_of_passesAs (hp : PassesAs (HighFive.openReadOnly fs p) d r)
    (he : HasEvents fs p) : ∃ rows, EventsIn fs p d r rows := by
  obtain ⟨f, name, d', r', ds, hf, hs⟩ := he
  rw [hf] at hp
  obtain ⟨rfl, rfl⟩ := hp.unique (.stores hs)
  exact ⟨_, f, name, ds, hf, hs, rfl⟩

omit [Host] in
/-- The inputs of a merged file store events. -/
theorem hasEvents_of_merged (h : Merged fs fs' out inputs) : ∀ p ∈ inputs, HasEvents fs p := by
  obtain ⟨d, r, rows, hin, -⟩ := h
  intro p hp
  obtain ⟨f, name, ds, hf, hs, -⟩ := hin p hp
  exact ⟨f, name, d, r, ds, hf, hs⟩

/-- An output that opened takes the events of inputs that store some. -/
theorem merged_of_open {fs1 : FS} {v : Int} (hr : r ≠ .MAGIC)
    (hpass : ∀ p ∈ inputs, PassesAs (HighFive.openReadOnly fs p) d r)
    (hall : ∀ p ∈ inputs, HasEvents fs p)
    (hnew : ∀ f, HighFive.openReadOnly fs out = some f → f.dataType (readoutTypeName r) = false)
    (hout : Output fs1 out d r [])
    (hother : ∀ q, q ≠ out → HighFive.openReadOnly fs1 q = HighFive.openReadOnly fs q)
    (hloop : inputs.forM (copyInput ⟨out, true, some "events", d, r, v⟩ r) fs1 = .ok () fs') :
    Merged fs fs' out inputs := by
  have hin : ∀ p, ∃ rows, p ∈ inputs → EventsIn fs p d r rows := by
    intro p
    by_cases hp : p ∈ inputs
    · obtain ⟨rows, h⟩ := eventsIn_of_passesAs (hpass p hp) (hall p hp)
      exact ⟨rows, fun _ => h⟩
    · exact ⟨[], fun h => absurd h hp⟩
  choose rows hrows using hin
  have hne : ∀ p ∈ inputs, p ≠ out := by
    rintro p hp rfl
    obtain ⟨f, name, ds, hf, hs, -⟩ := hrows p hp
    exact absurd (hnew f hf) (by simp [hs.dataType])
  have hin1 : ∀ p ∈ inputs, p ≠ out ∧ EventsIn fs1 p d r (rows p) := by
    intro p hp
    exact ⟨hne p hp, (hrows p hp).of_same (hother p (hne p hp))⟩
  have houtput := copyInputs_spec hr hin1 hout hloop
  rw [List.nil_append] at houtput
  exact ⟨d, r, rows, hrows, houtput⟩

/-- **Merge.**  When the merge returns, the output holds the events of all the
    inputs exactly if every input stores events and the output could be
    opened for writing, or held these events before. -/
theorem merged_iff (h : mergeFiles out inputs fs = .ok () fs') :
    Merged fs fs' out inputs ↔ (∀ p ∈ inputs, HasEvents fs p) ∧
      ((HighFive.openOrCreate fs out).isSome ∨ Merged fs fs out inputs) := by
  cases inputs with
  | nil => cases h
  | cons first rest =>
    rcases mergeFiles_cases fs out first rest with ⟨d, r, hpass, heq⟩ | ⟨-, e, heq⟩
    swap
    · cases h.symm.trans heq
    rw [heq] at h
    obtain ⟨w, fs1, hmake, hloop⟩ := bind_eq_ok.1 h
    rcases make_spec hmake with ⟨ho, rfl, rfl⟩ | ⟨ho, rfl, hr, hnew, hout, hother⟩
    · -- the output does not open: nothing is written
      have hsame : fs' = fs1 := by
        rw [← final_of_ok hloop]
        exact forM_inv (P := fun t => t = fs1)
          (fun p _ t ht => ht ▸ final_copyInput_closed rfl) rfl
      subst hsame
      constructor
      · intro hm
        exact ⟨hasEvents_of_merged hm, Or.inr hm⟩
      · rintro ⟨-, hs | hm⟩
        · rw [ho] at hs
          cases hs
        · exact hm
    · constructor
      · intro hm
        exact ⟨hasEvents_of_merged hm, Or.inl ho⟩
      · rintro ⟨hall, -⟩
        exact merged_of_open hr hpass hall hnew hout hother hloop

end

theorem merged_iff_oneEvent :
    Merged Disk.withEvent (final (mergeFiles "out.h5" ["in.h5"]) Disk.withEvent) "out.h5"
      ["in.h5"] :=
  (merged_iff (eq_ok_final (by decide +kernel))).2
    ⟨List.forall_mem_singleton.2 ⟨_, _, _, _, _, rfl, H5File.stores_written⟩, Or.inl rfl⟩

/-- The output cannot be created: the merge returns all the same, and the event
    is nowhere. -/
theorem merge_loses :
    let disk := Function.update Disk.withEvent "out.h5" .denied
    mergeFiles "out.h5" ["in.h5"] disk = .ok () disk ∧
      ¬ Merged disk disk "out.h5" ["in.h5"] := by
  intro disk
  have hpass : PassesAs (HighFive.openReadOnly disk "in.h5") .LOKI .CAEN :=
    .stores H5File.stores_written
  constructor
  · rcases mergeFiles_cases disk "out.h5" "in.h5" [] with ⟨d, r, h, heq⟩ | ⟨hno, -⟩
    · obtain ⟨rfl, rfl⟩ := hpass.unique (h "in.h5" List.mem_cons_self)
      rw [heq, bind_of_ok (make_of_closed rfl)]
      exact forM_skip fun p hp => copyInput_closed rfl (h p hp)
    · exact absurd ⟨_, _, List.forall_mem_singleton.2 hpass⟩ hno
  · rintro ⟨d, r, rows, -, f, ds, hf, -⟩
    cases hf

/-! ## Rejected inputs -/

/-- The dataset of events a file names. -/
def eventsOf (o : Option (H5File R)) : Option (DataSet R) :=
  match o with
  | none => none
  | some f =>
    match f.attr "events" with
    | .text name => f.dataset name
    | _ => none

/-- The types the attributes of the dataset give, if there is a dataset and
    both can be read. -/
def typesOf (o : Option (H5File R)) : Option (DetectorType × ReadoutType) :=
  match eventsOf o with
  | none => none
  | some ds =>
    match ds.attr "detector", ds.attr "readout" with
    | .text detectorName, .text readoutName =>
      match detectorTypeFromName detectorName, readoutTypeFromName readoutName with
      | .ok detector, .ok readout => some (detector, readout)
      | _, _ => none
    | _, _ => none

/-- Some input cannot be opened, has no events dataset or no readable types,
    or has other types than the first. -/
def BadInputs (fs : FS) (first : String) (rest : List String) : Prop :=
  ∃ p ∈ first :: rest, typesOf (HighFive.openReadOnly fs p) = none ∨
    typesOf (HighFive.openReadOnly fs p) ≠ typesOf (HighFive.openReadOnly fs first)

/-- The merge throws and leaves the output as it was. -/
def Rejects [Host] (fs : FS) (out : String) (inputs : List String) : Prop :=
  ∃ e fs', mergeFiles out inputs fs = .error e fs' ∧
    HighFive.openReadOnly fs' out = HighFive.openReadOnly fs out

/-- A file without readable types that passes does so as one of CAEN events. -/
theorem typesOf_of_passesAs {o : Option (H5File R)} {d : DetectorType} {r : ReadoutType}
    (h : PassesAs o d r) : typesOf o = some (d, r) ∨ typesOf o = none ∧ r = .CAEN := by
  cases h with
  | closed => exact Or.inr ⟨rfl, rfl⟩
  | noDataSet ha hds =>
    refine Or.inr ⟨?_, rfl⟩
    simp only [typesOf, eventsOf, ha.events, hds]
  | noDetector ha hds hd =>
    refine Or.inr ⟨?_, rfl⟩
    simp only [typesOf, eventsOf, ha.events, hds]
    split
    · next h _ => exact absurd h (hd _)
    · rfl
  | noReadout ha hds hd hr =>
    refine Or.inr ⟨?_, rfl⟩
    simp only [typesOf, eventsOf, ha.events, hds]
    split
    · next h => exact absurd h (hr _)
    · rfl
  | stores hs =>
    refine Or.inl ?_
    simp only [typesOf, eventsOf, hs.accepted.events, hs.dataset, hs.detector, hs.readout,
      detectorTypeFromName_name, readoutTypeFromName_name]

/-- Bad inputs that all pass do so as files of CAEN events. -/
theorem caen_of_badInputs {fs : FS} {first : String} {rest : List String} {d : DetectorType}
    {r : ReadoutType} (hbad : BadInputs fs first rest)
    (h : ∀ p ∈ first :: rest, PassesAs (HighFive.openReadOnly fs p) d r) : r = .CAEN := by
  obtain ⟨p, hp, hbad⟩ := hbad
  rcases typesOf_of_passesAs (h p hp) with hp | ⟨-, hr⟩
  · rcases typesOf_of_passesAs (h first List.mem_cons_self) with hf | ⟨-, hr⟩
    · rw [hp, hf] at hbad
      rcases hbad with hbad | hbad
      · cases hbad
      · exact absurd rfl hbad
    · exact hr
  · exact hr

/-- The file at `p` has a type of the name committed. -/
def Committed (p name : String) (fs : FS) : Prop :=
  ∃ f : H5File R, HighFive.openReadOnly fs p = some f ∧ f.dataType name = true

/-- An edit never takes a committed type away. -/
theorem apply_dataType {e : Edit R} {f f' : H5File R} {name : String} (h : e.apply f = some f')
    (hf : f.dataType name = true) : f'.dataType name = true := by
  cases e with
  | commit n =>
    obtain ⟨-, rfl⟩ := apply_commit h
    by_cases hn : name = n
    · subst hn
      exact Function.update_self ..
    · exact (Function.update_of_ne hn ..).trans hf
  | createDataSet n =>
    obtain rfl := apply_createDataSet h
    exact hf
  | createAttribute n v =>
    obtain rfl := apply_createAttribute h
    exact hf
  | createDataSetAttribute ds n v =>
    simp only [Edit.apply] at h
    split at h
    · cases h
    · split_ifs at h
      obtain rfl := Option.some.inj h
      exact hf
  | append ds row =>
    simp only [Edit.apply] at h
    split at h
    · cases h
    · split_ifs at h
      obtain rfl := Option.some.inj h
      exact hf

theorem edit_committed {fs : FS} {p q name : String} (e : Edit R) (h : Committed p name fs) :
    Committed p name (final (Writer.edit q e) fs) := by
  obtain ⟨f, hf, ht⟩ := h
  cases he : HighFive.edit fs q e with
  | none =>
    rw [final_of_error (edit_eq_error he)]
    exact ⟨f, hf, ht⟩
  | some fs' =>
    rw [final_of_ok (edit_eq_ok.2 he)]
    by_cases hq : p = q
    · subst hq
      obtain ⟨f', ha, hf'⟩ := HighFive.edit_same hf he
      exact ⟨f', hf', apply_dataType ha ht⟩
    · exact ⟨f, (HighFive.edit_other he hq).trans hf, ht⟩

section
variable [Host] {fs : FS} {p q name : String} {w : Writer} {d : DetectorType} {r : ReadoutType}

theorem copyInput_committed (h : Committed p name fs) :
    Committed p name (final (copyInput w r q) fs) := by
  have hrow : ∀ (row : Row R) (t : FS), Committed p name t →
      Committed p name (final (w.saveRow row) t) := by
    intro row t ht
    unfold Writer.saveRow
    split
    · exact edit_committed _ ht
    · exact ht
  have hfront : ∀ {α : Type} (row : α → Row R) (get : UInt64 → UInt64 → Except Exn (List α)) j
      (t : FS), Committed p name t → Committed p name (final (saveFront w row get j) t) := by
    intro α row get j t ht
    unfold saveFront
    cases get j 1 with
    | error e => exact ht
    | ok events =>
      cases events with
      | nil => exact ht
      | cons e es => exact hrow (row e) t ht
  cases hr : Reader.make (R := R) fs q with
  | error e => rwa [final_of_error (by rw [copyInput, bind_of_error (openReader_error hr)])]
  | ok reader =>
    rw [copyInput]
    refine final_bind (P := Committed p name) ?_ fun a t _ ht => ?_
    · rwa [final_of_ok (openReader_ok hr)]
    refine forM_inv (fun j _ t ht => ?_) ht
    cases r <;> first | exact hfront _ _ _ _ ht | exact ht

/-- Once the first edit of the writer is done, its type stays committed
    whatever throws later. -/
theorem make_committed {fs1 fs2 : FS} {out : String} (hr : r ≠ .MAGIC)
    (ho : HighFive.openOrCreate fs out = some fs1)
    (hc : HighFive.edit fs1 out (.commit (readoutTypeName r)) = some fs2) :
    Committed out (readoutTypeName r) (final (Writer.make out d r name) fs) := by
  obtain ⟨f, ha, hf⟩ := HighFive.edit_same (HighFive.openOrCreate_same ho) hc
  obtain ⟨-, rfl⟩ := apply_commit ha
  have h2 : Committed out (readoutTypeName r) fs2 := ⟨_, hf, Function.update_self ..⟩
  have hset : Committed out (readoutTypeName r) (final (Writer.setUp out d r name) fs1) := by
    rw [setUp_eq hr]
    refine final_bind (P := Committed out (readoutTypeName r)) ?_ fun _ t _ ht => ?_
    · rwa [final_of_ok (edit_eq_ok.2 hc)]
    · exact forM_inv (fun e _ t ht => edit_committed e ht) ht
  have hmake : final (Writer.make out d r name) fs =
      final (Writer.setUp out d r name >>= fun _ => pure (⟨out, true, some name, d, r, 0⟩ : Writer))
        fs1 := by
    rw [final, make_of_open ho, final]
  rw [hmake]
  exact final_bind (P := Committed out (readoutTypeName r)) hset fun _ t _ ht => ht

/-- And so it does while the inputs are copied. -/
theorem merge_committed {fs1 fs2 : FS} {out : String} (hr : r ≠ .MAGIC)
    (ho : HighFive.openOrCreate fs out = some fs1)
    (hc : HighFive.edit fs1 out (.commit (readoutTypeName r)) = some fs2) (d : DetectorType)
    (name : String) (inputs : List String) :
    Committed out (readoutTypeName r)
      (final (Writer.make out d r name >>= fun w => inputs.forM (copyInput w r)) fs) := by
  refine final_bind (P := Committed out (readoutTypeName r)) (make_committed hr ho hc) ?_
  intro w t _ ht
  exact forM_inv (fun _ _ _ ht => copyInput_committed ht) ht

/-- If the first edit of the writer throws, nothing is written. -/
theorem make_of_uncommitted {fs1 : FS} {out : String} (hr : r ≠ .MAGIC)
    (ho : HighFive.openOrCreate fs out = some fs1)
    (hc : HighFive.edit fs1 out (.commit (readoutTypeName r)) = none) :
    Writer.make out d r name fs = .error .highFive fs1 := by
  have hset : Writer.setUp out d r name fs1 = .error .highFive fs1 := by
    rw [setUp_eq hr]
    exact bind_of_error (edit_eq_error hc)
  rw [make_of_open ho, bind_of_error hset]

/-- **Rejected inputs.**  A merge of bad inputs throws and leaves the output as
    it was exactly if the inputs do not all pass as files of the same types, or
    if the output is there and does not take the type for CAEN events. -/
theorem rejects_iff {out first : String} {rest : List String} (hbad : BadInputs fs first rest) :
    Rejects fs out (first :: rest) ↔
      ¬ (∃ d r, ∀ p ∈ first :: rest, PassesAs (HighFive.openReadOnly fs p) d r) ∨
        ∃ f fs1, HighFive.openReadOnly fs out = some f ∧ HighFive.openOrCreate fs out = some fs1 ∧
          HighFive.edit fs1 out (.commit "ReadoutType::CAEN") = none := by
  rcases mergeFiles_cases fs out first rest with ⟨d, r, hpass, heq⟩ | ⟨hno, e, heq⟩
  swap
  · exact ⟨fun _ => Or.inl hno, fun _ => ⟨e, fs, heq, rfl⟩⟩
  obtain rfl := caen_of_badInputs hbad hpass
  constructor
  · rintro ⟨e, fs', herr, hsame⟩
    right
    rw [heq] at herr
    cases ho : HighFive.openOrCreate fs out with
    | none =>
      rw [bind_of_ok (make_of_closed ho),
        forM_skip fun p hp => copyInput_closed rfl (hpass p hp)] at herr
      cases herr
    | some fs1 =>
      have hf1 := HighFive.openOrCreate_same ho
      cases hc : HighFive.edit fs1 out (.commit (readoutTypeName .CAEN)) with
      | none =>
        rw [bind_of_error (make_of_uncommitted (by decide) ho hc)] at herr
        injection herr with _ hfs
        subst hfs
        exact ⟨_, fs1, hsame.symm.trans hf1, rfl, hc⟩
      | some fs2 =>
        -- the type is committed, which the output would have had before
        have hcom := merge_committed (by decide) ho hc d "events" (first :: rest)
        rw [final_of_error herr] at hcom
        obtain ⟨f', hf', ht⟩ := hcom
        obtain ⟨f2, ha, -⟩ := HighFive.edit_same hf1 hc
        rw [← hsame, hf'] at ha
        have hnew : f'.dataType (readoutTypeName .CAEN) = false := (apply_commit ha).1
        exact absurd ht (by simp [hnew])
  · rintro (hno | ⟨f, fs1, hf, ho, hc⟩)
    · exact absurd ⟨d, .CAEN, hpass⟩ hno
    · refine ⟨.highFive, fs1, ?_, ?_⟩
      · rw [heq, bind_of_error (make_of_uncommitted (r := .CAEN) (by decide) ho hc)]
      · rw [HighFive.openOrCreate_same ho, hf]
        rfl

end

/-- A file of another program is rejected. -/
theorem rejects_iff_foreign :
    Rejects (Function.update Disk.blank "in.h5" (.file .empty)) "out.h5" ["in.h5"] := by
  refine (rejects_iff ⟨"in.h5", List.mem_cons_self, Or.inl rfl⟩).2 (Or.inl ?_)
  rintro ⟨d, r, h⟩
  obtain ⟨reader, hread, -⟩ := passesAs_iff.1 (h "in.h5" List.mem_cons_self)
  cases hread

/-- An input that is not there is bad, and not rejected. -/
theorem missing_accepted :
    BadInputs Disk.blank "missing.h5" [] ∧ ¬ Rejects Disk.blank "out.h5" ["missing.h5"] := by
  constructor
  · exact ⟨"missing.h5", List.mem_cons_self, Or.inl rfl⟩
  · rintro ⟨e, fs', h, -⟩
    exact not_returns_of_error h (by decide +kernel)

end ReadoutMaster
