/-
  A collection of event files, and what merges make of it.

  An `Archive` says which paths hold which events.  `Holds` connects it to a
  file system.  Merging is, on archives, concatenation: `merge_refines` is one
  call of `readout_merge_files`, `merges_refine` any sequence of calls, some of
  which may take the output of others as inputs.

  * `regrouped`: merging groups of files and then the results is the same as
    merging all the files at once.
-/
import ReadoutMaster.Proof.Merge

namespace ReadoutMaster

open Machine

variable {R FS : Type}

/-! ## Archives -/

/-- The types of a file and its events. -/
structure Contents (R : Type) where
  detector : DetectorType
  readout : ReadoutType
  rows : List (Row R)

/-- Which paths hold events, as far as it is known. -/
abbrev Archive (R : Type) := String → Option (Contents R)

namespace Archive

/-- The events of the file at a path; none if nothing is known of it. -/
def rowsAt (a : Archive R) (p : String) : List (Row R) :=
  match a p with
  | some c => c.rows
  | none => []

/-- All the inputs hold events of these types. -/
def Alike (a : Archive R) (d : DetectorType) (r : ReadoutType) (inputs : List String) : Prop :=
  ∀ p ∈ inputs, ∃ rows, a p = some ⟨d, r, rows⟩

/-- The archive with the events of the inputs, one after another, at `out`. -/
def merge (a : Archive R) (d : DetectorType) (r : ReadoutType) (out : String)
    (inputs : List String) : Archive R :=
  Function.update a out (some ⟨d, r, inputs.flatMap a.rowsAt⟩)

section
variable {a : Archive R} {d : DetectorType} {r : ReadoutType} {out p : String}
  {inputs : List String}

theorem merge_self : a.merge d r out inputs out = some ⟨d, r, inputs.flatMap a.rowsAt⟩ :=
  Function.update_self ..

theorem merge_of_ne (h : p ≠ out) : a.merge d r out inputs p = a p := Function.update_of_ne h ..

end

end Archive

section
variable [HighFive R FS]

/-- The files hold what the archive says. -/
def Holds (fs : FS) (a : Archive R) : Prop :=
  ∀ p c, a p = some c → EventsIn fs p c.detector c.readout c.rows

/-- Reading an event a second time changes nothing. -/
theorem asRow_asRow (r : ReadoutType) (row : Row R) :
    asRow FS r (asRow FS r row) = asRow FS r row := by
  cases r with
  | CAEN => simp only [asRow, HighFive.asCAEN_caen]
  | TTLMonitor => simp only [asRow, HighFive.asTTLMonitor_ttlMonitor]
  | VMM3 => simp only [asRow, HighFive.asVMM3_vmm3]
  | DREAM => simp only [asRow, HighFive.asDREAM_dream]
  | MAGIC => rfl

theorem EventsIn.map_asRow {fs : FS} {p : String} {d : DetectorType} {r : ReadoutType}
    {rows : List (Row R)} (h : EventsIn fs p d r rows) : rows.map (asRow FS r) = rows := by
  obtain ⟨f, name, ds, -, -, rfl⟩ := h
  rw [List.map_map]
  exact List.map_congr_left fun row _ => asRow_asRow r row

/-- A file the writer made holds its rows as they are read. -/
theorem Output.eventsIn {fs : FS} {p : String} {d : DetectorType} {r : ReadoutType}
    {rows : List (Row R)} (h : Output fs p d r rows) :
    EventsIn fs p d r (rows.map (asRow FS r)) := by
  obtain ⟨f, ds, hf, hs, rfl⟩ := h
  exact ⟨f, "events", ds, hf, hs, rfl⟩

theorem EventsIn.passesAs [Host] {fs : FS} {p : String} {d : DetectorType} {r : ReadoutType}
    {rows : List (Row R)} (h : EventsIn fs p d r rows) :
    PassesAs (HighFive.openReadOnly fs p) d r := by
  obtain ⟨f, name, ds, hf, hs, -⟩ := h
  rw [hf]
  exact .stores hs

theorem EventsIn.unique {fs : FS} {p : String} {d : DetectorType} {r : ReadoutType}
    {rows rows' : List (Row R)} (h : EventsIn fs p d r rows) (h' : EventsIn fs p d r rows') :
    rows = rows' := by
  obtain ⟨f, name, ds, hf, hs, rfl⟩ := h
  obtain ⟨f', name', ds', hf', hs', rfl⟩ := h'
  obtain rfl := Option.some.inj (hf.symm.trans hf')
  have hname := hs.accepted.events.symm.trans hs'.accepted.events
  injection hname with hname
  subst hname
  rw [Option.some.inj (hs.dataset.symm.trans hs'.dataset)]

/-! ## One merge -/

variable [Host] {fs fs' : FS} {out : String} {inputs : List String} {d : DetectorType}
  {r : ReadoutType} {a : Archive R}

/-- Copying inputs changes no file but the output. -/
theorem copyInputs_other {v : Int} {rows : String → List (Row R)} (hr : r ≠ .MAGIC) :
    ∀ {inputs : List String} {fs : FS} {rows' : List (Row R)},
      (∀ p ∈ inputs, p ≠ out ∧ EventsIn fs p d r (rows p)) → Output fs out d r rows' →
      inputs.forM (copyInput ⟨out, true, some "events", d, r, v⟩ r) fs = .ok () fs' →
      ∀ q, q ≠ out → HighFive.openReadOnly fs' q = HighFive.openReadOnly fs q
  | [], fs, rows', _, _, h, q, _ => by
    injection h with _ h
    rw [h]
  | p :: ps, fs, rows', hp, ho, h, q, hq => by
    obtain ⟨⟨⟩, fs1, h1, h2⟩ := bind_eq_ok.1 h
    obtain ⟨ho1, hother⟩ := copyInput_spec hr (hp p List.mem_cons_self).2 ho h1
    have hps : ∀ q ∈ ps, q ≠ out ∧ EventsIn fs1 q d r (rows q) := by
      intro q hq
      obtain ⟨hne, hin⟩ := hp q (List.mem_cons_of_mem _ hq)
      exact ⟨hne, hin.of_same (hother q hne)⟩
    exact (copyInputs_other hr hps ho1 h2 q hq).trans (hother q hq)

/-- **One merge.**  Files that hold events of one pair of types are merged into
    an output that opens and held none of this readout type; no other file
    changes. -/
theorem merge_spec {rows : String → List (Row R)}
    (hin : ∀ p ∈ inputs, EventsIn fs p d r (rows p)) (hne : inputs ≠ [])
    (hopen : (HighFive.openOrCreate fs out).isSome) (h : mergeFiles out inputs fs = .ok () fs') :
    Output fs' out d r (inputs.flatMap rows) ∧
      (∀ q, q ≠ out → HighFive.openReadOnly fs' q = HighFive.openReadOnly fs q) ∧
      ∀ p d' rows', EventsIn fs p d' r rows' → p ≠ out := by
  obtain ⟨first, rest, rfl⟩ := List.exists_cons_of_ne_nil hne
  rcases mergeFiles_cases fs out first rest with ⟨d', r', hpass, heq⟩ | ⟨-, e, heq⟩
  swap
  · cases h.symm.trans heq
  obtain ⟨rfl, rfl⟩ :=
    (hpass first List.mem_cons_self).unique (hin first List.mem_cons_self).passesAs
  rw [heq] at h
  obtain ⟨w, fs1, hmake, hloop⟩ := bind_eq_ok.1 h
  rcases make_spec hmake with ⟨ho, -, -⟩ | ⟨-, rfl, hr, hnew, hout, hother⟩
  · rw [ho] at hopen
    cases hopen
  -- the output takes the type of the inputs, so it is none of them
  have hapart : ∀ p d rows, EventsIn fs p d r' rows → p ≠ out := by
    rintro p d rows ⟨f, name, ds, hf, hs, -⟩ rfl
    exact absurd (hnew f hf) (by simp [hs.dataType])
  have hin1 : ∀ p ∈ first :: rest, p ≠ out ∧ EventsIn fs1 p d' r' (rows p) := by
    intro p hp
    have hne := hapart p _ _ (hin p hp)
    exact ⟨hne, (hin p hp).of_same (hother p hne)⟩
  have hspec := copyInputs_spec hr hin1 hout hloop
  rw [List.nil_append] at hspec
  exact ⟨hspec, fun q hq => (copyInputs_other hr hin1 hout hloop q hq).trans (hother q hq), hapart⟩

/-- On archives a merge is concatenation. -/
theorem merge_refines (ha : Holds fs a) (hal : a.Alike d r inputs) (hne : inputs ≠ [])
    (hopen : (HighFive.openOrCreate fs out).isSome) (h : mergeFiles out inputs fs = .ok () fs') :
    Holds fs' (a.merge d r out inputs) := by
  have hin : ∀ p ∈ inputs, EventsIn fs p d r (a.rowsAt p) := by
    intro p hp
    obtain ⟨rows, hrows⟩ := hal p hp
    have := ha p _ hrows
    rwa [Archive.rowsAt, hrows]
  obtain ⟨hout, hother, -⟩ := merge_spec hin hne hopen h
  intro p c hc
  by_cases hp : p = out
  · subst hp
    obtain rfl := Option.some.inj (Archive.merge_self.symm.trans hc)
    have hrows : (inputs.flatMap a.rowsAt).map (asRow FS r) = inputs.flatMap a.rowsAt := by
      rw [List.map_flatMap]
      exact List.flatMap_congr fun p hp => (hin p hp).map_asRow
    have hev := hout.eventsIn
    rwa [hrows] at hev
  · rw [Archive.merge_of_ne hp] at hc
    exact (ha p c hc).of_same (hother p hp)

end

/-! ## Many merges -/

section
variable [Storage R FS] [Host] {fs fs' : FS} {a : Archive R} {d : DetectorType} {r : ReadoutType}
  {out : String} {inputs : List String}

/-- What the program does to the file at `out` keeps the property. -/
structure Persists (out : String) (P : FS → Prop) : Prop where
  opened : ∀ {fs fs'}, HighFive.openOrCreate fs out = some fs' → P fs → P fs'
  edited : ∀ {fs fs' e}, HighFive.edit fs out e = some fs' → P fs → P fs'

omit [Host] in
theorem persists_writable (out q : String) : Persists out fun fs : FS => Storage.Writable fs q :=
  ⟨Storage.writable_openOrCreate, Storage.writable_edit⟩

omit [Host] in
theorem persists_other {q : String} (hq : q ≠ out) (o : Option (H5File R)) :
    Persists out fun fs : FS => HighFive.openReadOnly fs q = o :=
  ⟨fun h ho => (HighFive.openOrCreate_other h hq).trans ho,
    fun h ho => (HighFive.edit_other h hq).trans ho⟩

section
variable {P : FS → Prop} (hP : Persists out P)
include hP

omit [Host] in
theorem edit_keeps (e : Edit R) (h : P fs) : P (final (Writer.edit out e) fs) := by
  cases he : HighFive.edit fs out e with
  | none => rwa [final_of_error (edit_eq_error he)]
  | some fs' => rw [final_of_ok (edit_eq_ok.2 he)]; exact hP.edited he h

theorem setUp_keeps (name : String) (h : P fs) : P (final (Writer.setUp out d r name) fs) := by
  by_cases hr : r = .MAGIC
  · subst hr
    exact h
  · rw [setUp_eq hr]
    exact forM_inv (fun e _ t ht => edit_keeps hP e ht) h

theorem make_keeps (name : String) (h : P fs) : P (final (Writer.make out d r name) fs) := by
  cases ho : HighFive.openOrCreate fs out with
  | none => rwa [final_of_ok (make_of_closed ho)]
  | some fs1 =>
    rw [final, make_of_open ho, ← final]
    exact final_bind (P := P) (setUp_keeps hP name (hP.opened ho h)) fun _ _ _ ht => ht

omit [Host] in
theorem saveRow_keeps {w : Writer} (hw : w.filename = out) (row : Row R) (h : P fs) :
    P (final (w.saveRow row) fs) := by
  unfold Writer.saveRow
  split
  · rw [hw]
    exact edit_keeps hP _ h
  · exact h

theorem copyInput_keeps {w : Writer} (hw : w.filename = out) (p : String) (h : P fs) :
    P (final (copyInput w r p) fs) := by
  have hfront : ∀ {α : Type} (row : α → Row R) (get : UInt64 → UInt64 → Except Exn (List α)) j
      (t : FS), P t → P (final (saveFront w row get j) t) := by
    intro α row get j t ht
    unfold saveFront
    cases get j 1 with
    | error e => exact ht
    | ok events =>
      cases events with
      | nil => exact ht
      | cons e es => exact saveRow_keeps hP hw (row e) ht
  cases hr : Reader.make (R := R) fs p with
  | error e => rwa [final_of_error (by rw [copyInput, bind_of_error (openReader_error hr)])]
  | ok reader =>
    rw [copyInput]
    refine final_bind (P := P) (by rwa [final_of_ok (openReader_ok hr)]) fun a t _ ht => ?_
    refine forM_inv (fun j _ t ht => ?_) ht
    cases r <;> first | exact hfront _ _ _ _ ht | exact ht

/-- A merge keeps the property, also if it throws. -/
theorem mergeFiles_keeps (h : P fs) : P (final (mergeFiles out inputs) fs) := by
  cases inputs with
  | nil => exact h
  | cons first rest =>
    rcases mergeFiles_cases fs out first rest with ⟨d, r, -, heq⟩ | ⟨-, e, heq⟩
    swap
    · rwa [final_of_error heq]
    rw [final, heq, ← final]
    refine final_bind (P := P) (make_keeps hP "events" h) fun w t hmake ht => ?_
    have hw : w.filename = out := by
      rcases make_spec hmake with ⟨-, -, rfl⟩ | ⟨-, rfl, -⟩ <;> rfl
    exact forM_inv (fun p _ t ht => copyInput_keeps hP hw p ht) ht

end

theorem writable_mergeFiles {q : String} (h : Storage.Writable fs q) :
    Storage.Writable (final (mergeFiles out inputs) fs) q :=
  mergeFiles_keeps (persists_writable out q) h

theorem writable_groups {q : String} {groups : List (String × List String)}
    (h : groups.forM (fun g => mergeFiles g.1 g.2) fs = .ok () fs') (hw : Storage.Writable fs q) :
    Storage.Writable fs' q := by
  have hkept : Storage.Writable (final (groups.forM fun g => mergeFiles g.1 g.2) fs) q :=
    forM_inv (P := fun t : FS => Storage.Writable t q) (fun _ _ _ ht => writable_mergeFiles ht) hw
  rwa [final_of_ok h] at hkept

/-- A call of `readout_merge_files`, for inputs of these types. -/
structure MergeCall where
  detector : DetectorType
  readout : ReadoutType
  out : String
  inputs : List String

def MergeCall.perform (m : MergeCall) : EStateM Exn FS Unit := mergeFiles m.out m.inputs

namespace Archive

/-- The archive after a merge. -/
def after (a : Archive R) (m : MergeCall) : Archive R := a.merge m.detector m.readout m.out m.inputs

/-- Every merge finds events of its types at all its inputs. -/
def Ready : Archive R → List MergeCall → Prop
  | _, [] => True
  | a, m :: ms => m.inputs ≠ [] ∧ a.Alike m.detector m.readout m.inputs ∧ Ready (a.after m) ms

end Archive

/-- **Merges refine concatenation.**  After any sequence of merges, of which
    some may take up the output of others, the files hold what the archive says
    that is given the same merges. -/
theorem merges_refine : ∀ {ms : List MergeCall} {fs : FS} {a : Archive R}, Holds fs a →
    a.Ready ms → (∀ m ∈ ms, Storage.Writable fs m.out) →
    ms.forM MergeCall.perform fs = .ok () fs' → Holds fs' (ms.foldl Archive.after a)
  | [], fs, a, ha, _, _, h => by
    injection h with _ h
    subst h
    exact ha
  | m :: ms, fs, a, ha, ⟨hne, hal, hready⟩, hw, h => by
    obtain ⟨⟨⟩, fs1, h1, h2⟩ := bind_eq_ok.1 h
    have h1 : mergeFiles m.out m.inputs fs = .ok () fs1 := h1
    have hopen := Storage.openOrCreate_isSome (hw m List.mem_cons_self)
    show Holds fs' (ms.foldl Archive.after (a.after m))
    refine merges_refine (merge_refines ha hal hne hopen h1) hready (fun m' hm' => ?_) h2
    have hkept : Storage.Writable (final (mergeFiles m.out m.inputs) fs) m'.out :=
      writable_mergeFiles (hw m' (List.mem_cons_of_mem _ hm'))
    rwa [final_of_ok h1] at hkept

/-- Merging groups of files leaves the events of each group in its output, and
    all events of the readout type where they were. -/
theorem merge_groups {rows : String → List (Row R)} :
    ∀ {groups : List (String × List String)} {fs : FS},
      (∀ g ∈ groups, g.2 ≠ [] ∧ Storage.Writable fs g.1 ∧ ∀ p ∈ g.2, EventsIn fs p d r (rows p)) →
      groups.forM (fun g => mergeFiles g.1 g.2) fs = .ok () fs' →
      (∀ g ∈ groups, EventsIn fs' g.1 d r (g.2.flatMap rows)) ∧
        ∀ p rows', EventsIn fs p d r rows' → EventsIn fs' p d r rows'
  | [], fs, _, h => by
    injection h with _ h
    subst h
    exact ⟨fun g hg => absurd hg List.not_mem_nil, fun _ _ h => h⟩
  | g :: groups, fs, hg, h => by
    obtain ⟨⟨⟩, fs1, h1, h2⟩ := bind_eq_ok.1 h
    obtain ⟨hne, hw, hin⟩ := hg g List.mem_cons_self
    obtain ⟨hout, hother, hapart⟩ := merge_spec hin hne (Storage.openOrCreate_isSome hw) h1
    have hkeep : ∀ p rows', EventsIn fs p d r rows' → EventsIn fs1 p d r rows' := fun p rows' hp =>
      hp.of_same (hother p (hapart p d rows' hp))
    have hrest : ∀ g' ∈ groups, g'.2 ≠ [] ∧ Storage.Writable fs1 g'.1 ∧
        ∀ p ∈ g'.2, EventsIn fs1 p d r (rows p) := by
      intro g' hg'
      obtain ⟨hne', hw', hin'⟩ := hg g' (List.mem_cons_of_mem _ hg')
      have hkept : Storage.Writable (final (mergeFiles g.1 g.2) fs) g'.1 := writable_mergeFiles hw'
      rw [final_of_ok h1] at hkept
      exact ⟨hne', hkept, fun p hp => hkeep p _ (hin' p hp)⟩
    obtain ⟨hgs, hkeep'⟩ := merge_groups hrest h2
    refine ⟨fun g' hg' => ?_, fun p rows' hp => hkeep' p rows' (hkeep p rows' hp)⟩
    rcases List.mem_cons.1 hg' with rfl | hg'
    · have hev := hout.eventsIn
      have hrows : (g'.2.flatMap rows).map (asRow FS r) = g'.2.flatMap rows := by
        rw [List.map_flatMap]
        exact List.flatMap_congr fun p hp => (hin p hp).map_asRow
      rw [hrows] at hev
      exact hkeep' _ _ hev
    · exact hgs g' hg'

/-- **Regrouping.**  Merging groups of files and then the results leaves the
    same events, in the same order, as merging all the files at once. -/
theorem regrouped {rows : String → List (Row R)} {groups : List (String × List String)}
    {fs₁ fs₂ fs₃ : FS} {out' : String} (hne : groups ≠ [])
    (hg : ∀ g ∈ groups, g.2 ≠ [] ∧ Storage.Writable fs g.1 ∧ ∀ p ∈ g.2, EventsIn fs p d r (rows p))
    (hw : Storage.Writable fs₁ out) (hw' : Storage.Writable fs out')
    (h₁ : groups.forM (fun g => mergeFiles g.1 g.2) fs = .ok () fs₁)
    (h₂ : mergeFiles out (groups.map Prod.fst) fs₁ = .ok () fs₂)
    (h₃ : mergeFiles out' (groups.flatMap Prod.snd) fs = .ok () fs₃) :
    ∃ all, Output fs₂ out d r all ∧ Output fs₃ out' d r all := by
  obtain ⟨hgroups, -⟩ := merge_groups hg h₁
  obtain ⟨g, hg₀⟩ := List.exists_mem_of_ne_nil _ hne
  -- the events of a group are found by the name of its output
  let found : String → List (Row R) := fun p =>
    ((groups.find? fun g => g.1 = p).map fun g => g.2.flatMap rows).getD []
  have hfound : ∀ g ∈ groups, found g.1 = g.2.flatMap rows := by
    intro g hg
    obtain ⟨g', hg'⟩ : ∃ g', groups.find? (fun g' => g'.1 = g.1) = some g' := by
      rw [← Option.isSome_iff_exists, List.find?_isSome]
      exact ⟨g, hg, decide_eq_true rfl⟩
    have hname : g'.1 = g.1 := by simpa using List.find?_some hg'
    have hsame := hgroups g' (List.mem_of_find?_eq_some hg')
    rw [hname] at hsame
    have hf : found g.1 = g'.2.flatMap rows := by
      simp only [found, hg', Option.map_some, Option.getD_some]
    rw [hf]
    exact hsame.unique (hgroups g hg)
  have hmid : ∀ p ∈ groups.map Prod.fst, EventsIn fs₁ p d r (found p) := by
    intro p hp
    obtain ⟨g, hg, rfl⟩ := List.mem_map.1 hp
    rw [hfound g hg]
    exact hgroups g hg
  have hmids : groups.map Prod.fst ≠ [] := by simpa using hne
  obtain ⟨hout, -⟩ := merge_spec hmid hmids (Storage.openOrCreate_isSome hw) h₂
  have hall : ∀ p ∈ groups.flatMap Prod.snd, EventsIn fs p d r (rows p) := by
    intro p hp
    obtain ⟨g, hg', hp⟩ := List.mem_flatMap.1 hp
    exact (hg g hg').2.2 p hp
  have hinputs : groups.flatMap Prod.snd ≠ [] := by
    obtain ⟨p, hp⟩ := List.exists_mem_of_ne_nil _ (hg g hg₀).1
    exact List.ne_nil_of_mem (List.mem_flatMap.2 ⟨g, hg₀, hp⟩)
  obtain ⟨hout', -⟩ := merge_spec hall hinputs (Storage.openOrCreate_isSome hw') h₃
  have hrows : (groups.map Prod.fst).flatMap found = (groups.flatMap Prod.snd).flatMap rows := by
    rw [List.flatMap_map, List.flatMap_assoc]
    exact List.flatMap_congr hfound
  exact ⟨_, hrows ▸ hout, hout'⟩

end

/-- A disk with three files of one event each. -/
def Disk.withThree : Disk ℚ := fun p =>
  if p = "a.h5" ∨ p = "b.h5" ∨ p = "c.h5" then .file (.written oneEvent .CAEN) else .missing

theorem eventsIn_withThree {p : String} (hp : p = "a.h5" ∨ p = "b.h5" ∨ p = "c.h5") :
    EventsIn Disk.withThree p .LOKI .CAEN oneEvent.rows := by
  refine ⟨.written oneEvent .CAEN, "events", oneEvent, ?_, H5File.stores_written, rfl⟩
  show Disk.openReadOnly Disk.withThree p = _
  rw [Disk.openReadOnly, Disk.withThree, if_pos hp]

/-- Two files are merged, and then the result with the third. -/
theorem merges_refine_withThree :
    let ms : List MergeCall := [⟨.LOKI, .CAEN, "ab.h5", ["a.h5", "b.h5"]⟩,
      ⟨.LOKI, .CAEN, "all.h5", ["ab.h5", "c.h5"]⟩]
    EventsIn (final (ms.forM MergeCall.perform) Disk.withThree) "all.h5" .LOKI .CAEN
      (oneEvent.rows ++ oneEvent.rows ++ oneEvent.rows) := by
  intro ms
  let a : Archive ℚ := fun p =>
    if p = "a.h5" ∨ p = "b.h5" ∨ p = "c.h5" then some ⟨.LOKI, .CAEN, oneEvent.rows⟩ else none
  have ha : Holds Disk.withThree a := by
    intro p c hc
    by_cases hp : p = "a.h5" ∨ p = "b.h5" ∨ p = "c.h5"
    · obtain rfl : (⟨.LOKI, .CAEN, oneEvent.rows⟩ : Contents ℚ) = c := by
        simpa only [a, if_pos hp, Option.some.injEq] using hc
      exact eventsIn_withThree hp
    · simp only [a, if_neg hp] at hc
      cases hc
  have hready : a.Ready ms := by
    refine ⟨by decide, ?_, by decide, ?_, trivial⟩
    · intro p hp
      exact ⟨oneEvent.rows, if_pos (by simp only [List.mem_cons, List.not_mem_nil] at hp; tauto)⟩
    · intro p hp
      rcases List.mem_cons.1 hp with rfl | hp
      · exact ⟨_, Archive.merge_self⟩
      · obtain rfl := List.mem_singleton.1 hp
        exact ⟨oneEvent.rows, rfl⟩
  have hw : ∀ m ∈ ms, Storage.Writable Disk.withThree m.out := by
    intro m hm
    simp only [ms, List.mem_cons, List.not_mem_nil, or_false] at hm
    rcases hm with rfl | rfl <;> exact trivial
  have hret : ms.forM MergeCall.perform Disk.withThree =
      .ok () (final (ms.forM MergeCall.perform) Disk.withThree) := eq_ok_final (by decide +kernel)
  exact merges_refine ha hready hw hret "all.h5" ⟨.LOKI, .CAEN, _⟩ rfl

/-- The three files merged in two groups, and at once. -/
theorem regrouped_withThree :
    let groups := [("ab.h5", ["a.h5", "b.h5"]), ("c2.h5", ["c.h5"])]
    let fs₁ := final (groups.forM fun g => mergeFiles g.1 g.2) Disk.withThree
    ∃ all, Output (final (mergeFiles "all.h5" ["ab.h5", "c2.h5"]) fs₁) "all.h5" .LOKI .CAEN all ∧
      Output (final (mergeFiles "flat.h5" ["a.h5", "b.h5", "c.h5"]) Disk.withThree) "flat.h5"
        .LOKI .CAEN all := by
  intro groups fs₁
  have hg : ∀ g ∈ groups, g.2 ≠ [] ∧ Storage.Writable Disk.withThree g.1 ∧
      ∀ p ∈ g.2, EventsIn Disk.withThree p .LOKI .CAEN oneEvent.rows := by
    intro g hg
    simp only [groups, List.mem_cons, List.not_mem_nil, or_false] at hg
    rcases hg with rfl | rfl
    · refine ⟨by decide, trivial, fun p hp => eventsIn_withThree ?_⟩
      simp only [List.mem_cons, List.not_mem_nil, or_false] at hp
      tauto
    · refine ⟨by decide, trivial, fun p hp => eventsIn_withThree ?_⟩
      simp only [List.mem_cons, List.not_mem_nil, or_false] at hp
      tauto
  have hw : Storage.Writable Disk.withThree "all.h5" := trivial
  have hw' : Storage.Writable Disk.withThree "flat.h5" := trivial
  have h₁ : groups.forM (fun g => mergeFiles g.1 g.2) Disk.withThree = .ok () fs₁ :=
    eq_ok_final (by decide +kernel)
  have h₂ : Returns (mergeFiles "all.h5" (groups.map Prod.fst)) fs₁ := by decide +kernel
  clear_value fs₁
  exact regrouped (by decide) hg (writable_groups h₁ hw) hw' h₁ (eq_ok_final h₂)
    (eq_ok_final (by decide +kernel))

end ReadoutMaster
