/-
  A component between INITIALIZE and FINALLY.

  `Stage` is the invariant: the object of the component has one writer, for a
  file of the node's own, which stores the calls made so far, and what it has
  sent conveys the same calls.  INITIALIZE establishes it (`stage_setUp`), a
  call of `readout_add` appends to it (`stage_readoutAdd`), FINALLY keeps it
  (`stage_tearDown`), and all three change no other file (`Confined`).
-/
import ReadoutMaster.Simulation
import ReadoutMaster.Proof.Archive
import ReadoutMaster.Proof.Noise
import ReadoutMaster.Proof.Transmission

namespace ReadoutMaster

open Readout Machine Replay

variable {R FS D : Type}

/-! ## File names -/

theorem extension_inj {count i j : ℕ}
    (h : (Mpi.nodes count).extension i = (Mpi.nodes count).extension j) : i = j := by
  have hi : "node_".toList ++ (i.repr.toList ++ ".h5".toList) =
      "node_".toList ++ (j.repr.toList ++ ".h5".toList) := by
    simpa [Mpi.extension] using congrArg String.toList h
  have hd : Nat.toDigits 10 i = Nat.toDigits 10 j := by
    rw [← Nat.toList_repr, ← Nat.toList_repr]
    exact List.append_cancel_right (List.append_cancel_left hi)
  have hn := congrArg (fun cs => Nat.ofDigitChars 10 cs 0) hd
  simpa only [Nat.ofDigitChars_ten_toDigits] using hn

theorem extension_ne (count i : ℕ) : (Mpi.nodes count).extension i ≠ "h5" := by
  intro h
  have hl : "node_".toList ++ (i.repr.toList ++ ".h5".toList) = "h5".toList := by
    simpa [Mpi.extension] using congrArg String.toList h
  have hc := congrArg List.head? hl
  simp at hc

theorem h5_no_path : '/' ∉ "h5".toList := by decide

theorem extension_no_path (mpi : Mpi) (i : ℕ) : '/' ∉ (mpi.extension i).toList := by
  cases mpi with
  | off => exact h5_no_path
  | nodes count =>
    have hdigits : '/' ∉ Nat.toDigits 10 i := fun h =>
      absurd (Nat.isDigit_of_mem_toDigits (by decide) (by decide) h) (by decide)
    simp [Mpi.extension, hdigits]

section
variable [McCode] (s : Settings R)

/-- Two nodes write two files. -/
theorem thisFilename_inj {count i j : ℕ}
    (h : s.thisFilename (.nodes count) i = s.thisFilename (.nodes count) j) : i = j :=
  extension_inj (McCode.mcfullFile_inj (extension_no_path _ i) (extension_no_path _ j) h)

theorem thisFilename_ne_output (count i : ℕ) :
    s.thisFilename (.nodes count) i ≠ s.outputFilename := by
  intro h
  exact extension_ne count i (McCode.mcfullFile_inj (extension_no_path _ i) h5_no_path h)

theorem thisFilename_ne (mpi : Mpi) (i : ℕ) : s.thisFilename mpi i ≠ "" := by
  refine McCode.mcfullFile_ne fun h => ?_
  have hl := congrArg String.toList h
  simp at hl

/-- Different nodes have different files. -/
theorem thisFilename_ne_of_ne {mpi : Mpi} {i j : Fin mpi.size} (h : i ≠ j) :
    s.thisFilename mpi i ≠ s.thisFilename mpi j := by
  cases mpi with
  | off => exact absurd (@Subsingleton.elim (Fin 1) _ i j) h
  | nodes count => exact fun he => h (Fin.ext (thisFilename_inj s he))

end

/-! ## Calls -/

/-- The calls a component makes for some particles: one for each, with its
    weight, and with its values if the weight is not zero. -/
def CallsFor [CDouble R] (weight : Particle R → R) (read : Particle R → Values R)
    (particles : List (Particle R)) (calls : List (AddCall R)) : Prop :=
  List.Forall₂ (fun p call => call.weight = weight p ∧
    (CDouble.truthy (weight p) = true → call = (read p).call (weight p))) particles calls

/-- TRACE makes one call of `readout_add`. -/
structure Component.Regular [CDouble R] (c : Component R FS D) (weight : D → Particle R → R)
    (read : D → Particle R → Values R) : Prop where
  one_call : ∀ d add p (s : World R FS × (ℕ → R)), ∃ call rand,
    (call.weight = weight d p ∧
      (CDouble.truthy (weight d p) = true → call = (read d p).call (weight d p))) ∧
    c.trace d add p s = onObject (call.perform add) (s.1, rand)

theorem traceBlock_onObject [CDouble R] {σ : Type} {pp : R} {read : Values R}
    {noise : EStateM Exn (σ × (ℕ → R)) (Values R)} (hq : Quiet noise)
    (add : AddReadout R (EStateM Exn σ Unit)) (s : σ × (ℕ → R)) : ∃ call rand,
    (call.weight = pp ∧ (CDouble.truthy pp = true → call = read.call pp)) ∧
      traceBlock pp read noise add s = onObject (call.perform add) (s.1, rand) := by
  cases hpp : CDouble.truthy pp with
  | true => exact ⟨read.call pp, s.2, ⟨rfl, fun _ => rfl⟩, by rw [traceBlock, if_pos hpp]; rfl⟩
  | false =>
    obtain ⟨v, rand, hv⟩ := hq s
    refine ⟨v.call pp, rand, ⟨rfl, fun h => (by cases h)⟩, ?_⟩
    rw [traceBlock, if_neg (by simp [hpp]), bind_of_ok hv]
    rfl

theorem ReadoutCAEN.regular [CDouble R] [CArith R] (c : ReadoutCAEN R) (s : Settings R) :
    (c.component s : Component R FS Declared).Regular ReadoutCAEN.weight c.read where
  one_call d add _ s := traceBlock_onObject (c.quiet_noise d) add s

theorem ReadoutTTLMonitor.regular [CDouble R] [CArith R] (c : ReadoutTTLMonitor R)
    (s : Settings R) : (c.component s : Component R FS Declared).Regular c.weight c.read where
  one_call _ add _ s := traceBlock_onObject c.quiet_noise add s

/-! ## The invariant of a node -/

section
variable [CDouble R]

/-- The draws that are left after some calls. -/
def drawsAfter : (ℕ → Draw) → List (AddCall R) → ℕ → Draw
  | draws, [] => draws
  | draws, c :: calls => drawsAfter (fun n => draws (n + drawsOf draws c.weight)) calls

theorem drawsAfter_concat (c : AddCall R) : ∀ (calls : List (AddCall R)) (draws : ℕ → Draw),
    drawsAfter draws (calls ++ [c]) =
      fun n => drawsAfter draws calls (n + drawsOf (drawsAfter draws calls) c.weight)
  | [], _ => rfl
  | _ :: calls, _ => drawsAfter_concat c calls _

theorem itemsOf_concat (t : ReadoutType) (c : AddCall R) :
    ∀ (calls : List (AddCall R)) (draws : ℕ → Draw),
      itemsOf t draws (calls ++ [c]) =
        itemsOf t draws calls ++ c.copies t (drawsAfter draws calls)
  | [], draws => by
    rw [List.nil_append, itemsOf, itemsOf, itemsOf, List.append_nil, List.nil_append]
    rfl
  | c' :: calls, draws => by
    rw [List.cons_append, itemsOf, itemsOf, itemsOf_concat t c calls, List.append_assoc]
    rfl

/-- The file at the path stores events that are replayed as these calls. -/
def Stored [HighFive R FS] (fs : FS) (p : String) (d : DetectorType) (t : ReadoutType)
    (calls : List (AddCall R)) : Prop :=
  ∃ rows, Output fs p d t rows ∧
    List.Forall₂ (AddCall.Same t) calls (rows.map fun row => (asRow FS t row).call)

/-- The writer of a component with these settings. -/
def writerOf (s : Settings R) (p : String) (d : DetectorType) (t : ReadoutType) : Option Writer :=
  if s.filename = "" then none else some ⟨p, true, some "events", d, t, 0⟩

/-- The object of a component after some calls. -/
structure Stage [HighFive R FS] (s : Settings R) (d : DetectorType) (t : ReadoutType) (p : String)
    (poisson : ℕ → Draw) (calls : List (AddCall R)) (w : World R FS) : Prop where
  type : w.obj.type = d
  writer : w.obj.writer = writerOf s p d t
  network : w.obj.network = decide (s.broadcast ≠ 0)
  stored : s.filename ≠ "" → Stored w.fs p d t calls
  conveyed : s.broadcast ≠ 0 →
    Transmitting d (itemsOf t poisson calls) (drawsAfter poisson calls) w
  silent : s.broadcast = 0 → w.trace.sent = []

end

section
variable [Storage R FS] [CDouble R] {s : Settings R} {d : DetectorType} {t : ReadoutType}
  {p : String} {poisson : ℕ → Draw} {calls : List (AddCall R)} {w w' : World R FS}

/-- The files at other paths and the permissions are the same. -/
def Confined (p : String) (fs fs' : FS) : Prop := ∀ P : FS → Prop, Persists p P → P fs → P fs'

omit [CDouble R] in
theorem Confined.refl (p : String) (fs : FS) : Confined p fs fs := fun _ _ h => h

omit [CDouble R] in
theorem Confined.other {fs fs' : FS} (h : Confined p fs fs') {q : String} (hq : q ≠ p) :
    HighFive.openReadOnly fs' q = HighFive.openReadOnly fs q :=
  h (fun g => HighFive.openReadOnly g q = HighFive.openReadOnly fs q) (persists_other hq _) rfl

omit [CDouble R] in
theorem Confined.writable {fs fs' : FS} (h : Confined p fs fs') {q : String}
    (hq : Storage.Writable fs q) : Storage.Writable fs' q :=
  h (fun g => Storage.Writable g q) (persists_writable p q) hq

/-- A stage is not disturbed by what happens to other files. -/
theorem Stage.of_files (h : Stage s d t p poisson calls w) {fs : FS}
    (hsame : HighFive.openReadOnly fs p = HighFive.openReadOnly w.fs p) :
    Stage s d t p poisson calls { w with fs } where
  type := h.type
  writer := h.writer
  network := h.network
  stored hf := by
    obtain ⟨rows, ⟨f, ds, ho, hs⟩, hr⟩ := h.stored hf
    exact ⟨rows, ⟨f, ds, hsame.trans ho, hs⟩, hr⟩
  conveyed hb := (h.conveyed hb).of_files fs
  silent := h.silent

omit [Storage R FS] [CDouble R] in
theorem fs_flushed (w : World R FS) : w.flushed.fs = w.fs := by
  rw [World.flushed]
  split_ifs <;> rfl

/-- The pulse moves. -/
theorem stage_advanced (h : Stage s d t p poisson calls w) (now prev : EfuTime) :
    Stage s d t p poisson calls (w.advanced now prev) := by
  have hs := World.settings_flushed (w.timed prev)
  refine ⟨(type_of_settings hs).trans h.type, (writer_of_settings hs).trans h.writer,
    (network_of_settings hs).trans h.network, fun hf => ?_,
    fun hb => transmitting_advanced (h.conveyed hb) now prev, fun hb => ?_⟩
  · have hfs : (w.advanced now prev).fs = w.fs := fs_flushed (w.timed prev)
    rw [hfs]
    exact h.stored hf
  · have hn : (w.timed prev).obj.network = false := h.network.trans (decide_eq_false (not_not.2 hb))
    show (w.timed prev).flushed.trace.sent = []
    rw [World.flushed_of_disabled hn]
    exact h.silent hb

theorem stage_flushed (h : Stage s d t p poisson calls w) :
    Stage s d t p poisson calls w.flushed := by
  have hs := World.settings_flushed w
  refine ⟨(type_of_settings hs).trans h.type, (writer_of_settings hs).trans h.writer,
    (network_of_settings hs).trans h.network, fun hf => ?_,
    fun hb => transmitting_flushed (h.conveyed hb), fun hb => ?_⟩
  · rw [fs_flushed]
    exact h.stored hf
  · have hn : w.obj.network = false := h.network.trans (decide_eq_false (not_not.2 hb))
    rw [World.flushed_of_disabled hn]
    exact h.silent hb

/-! ## Blocks -/

theorem Stage.recording (h : Stage s d t p poisson calls w) (hf : s.filename ≠ "") :
    Recording d t p "events" w :=
  ⟨h.type, h.writer.trans (if_neg hf)⟩

/-- Saving an event touches the file of the node only. -/
theorem stage_saved (h : Stage s d t p poisson calls w) (ht : readoutTypeFromDetectorType d = .ok t)
    {c : AddCall R} {fs : FS}
    (hs : saved w.obj c.ring c.fen c.tof c.weight c.data w.fs = .ok () fs) :
    Confined p w.fs fs := by
  by_cases hf : s.filename = ""
  · have hw : w.obj.writer = none := h.writer.trans (if_pos hf)
    rw [saved, hw] at hs
    injection hs with _ hs
    exact hs ▸ Confined.refl p w.fs
  · obtain ⟨row, hedit, -⟩ := saved_row (h.recording hf) ht hs
    exact fun P hP hp => hP.edited hedit hp

/-- A call of `addReadout` that returns is stored, and conveyed. -/
theorem stage_add (h : Stage s d t p poisson calls w) (ht : readoutTypeFromDetectorType d = .ok t)
    (hM : t ≠ .MAGIC) {c : AddCall R} (hc : c.perform addReadout w = .ok () w') :
    Stage s d t p poisson (calls ++ [c]) w' ∧ Confined p w.fs w'.fs := by
  cases hs : saved w.obj c.ring c.fen c.tof c.weight c.data w.fs with
  | error e fs => cases (addReadout_error hs).symm.trans hc
  | ok u fs =>
    have hstored : s.filename ≠ "" → Stored w'.fs p d t (calls ++ [c]) := by
      intro hf
      obtain ⟨rows, hout, hrows⟩ := h.stored hf
      obtain ⟨-, row, hout', hrow⟩ := recording_call (h.recording hf) ht hout hc
      refine ⟨rows ++ [row], hout', ?_⟩
      rw [List.map_append]
      exact List.rel_append hrows (.cons hrow .nil)
    by_cases hb : s.broadcast = 0
    · have hn : w.obj.network = false := h.network.trans (decide_eq_false (not_not.2 hb))
      obtain rfl : { w with fs } = w' := by
        injection (addReadout_disabled hn hs).symm.trans hc
      exact ⟨⟨h.type, h.writer, h.network, hstored, fun hb' => absurd hb hb', h.silent⟩,
        stage_saved h ht hs⟩
    · have hn : w.obj.network = true := h.network.trans (decide_eq_true hb)
      have ha := addReadout_added hn hs hc
      have hset := settings_added ha
      refine ⟨⟨(type_of_settings hset).trans h.type, (writer_of_settings hset).trans h.writer,
        (network_of_settings hset).trans h.network, hstored, fun hb => ?_,
        fun hb' => absurd hb' hb⟩, ?_⟩
      · rw [itemsOf_concat, drawsAfter_concat]
        rcases transmitting_add (h.conveyed hb) ht hM c with ⟨e, fs, he⟩ | ⟨w'', hok, hw''⟩
        · cases he.symm.trans hc
        · obtain rfl : w'' = w' := by injection hok.symm.trans hc
          exact hw''
      · rw [fs_added ha]
        exact stage_saved h ht hs

/-- A call of `readout_add` that returns does the same. -/
theorem stage_readoutAdd (h : Stage s d t p poisson calls w)
    (ht : readoutTypeFromDetectorType d = .ok t) (hM : t ≠ .MAGIC) {clock : UInt64} {c : AddCall R}
    (hc : c.perform (readoutAdd clock) w = .ok () w') :
    Stage s d t p poisson (calls ++ [c]) w' ∧ Confined p w.fs w'.fs := by
  obtain ⟨⟨⟩, v, hv, hadd⟩ := bind_eq_ok.1 hc
  rcases updateTime_cases w clock with ⟨e, he⟩ | ⟨now, prev, -, -, hu⟩
  · cases he.symm.trans hv
  · obtain rfl : w.advanced now prev = v := by injection hu.symm.trans hv
    have hadd : c.perform addReadout (w.advanced now prev) = .ok () w' := hadd
    obtain ⟨hstage, hconf⟩ := stage_add (stage_advanced h now prev) ht hM hadd
    have hfs : (w.advanced now prev).fs = w.fs := fs_flushed (w.timed prev)
    exact ⟨hstage, hfs ▸ hconf⟩

/-- The object before its file is opened. -/
def World.prepared (s : Settings R) (w : World R FS) : World R FS :=
  { w.fresh with obj :=
    { w.fresh.obj with verbosity := s.verbose.toInt, network := decide (s.broadcast ≠ 0) } }

section
variable [Host]

omit [CDouble R] in
theorem setUp_eq_dumpTo (hn : w.obj.network = true) (hp : p ≠ "") :
    setUp s p w = (if s.filename = "" then pure () else dumpTo p "events") (w.prepared s) := by
  have hdump : (readoutDumpTo p : Prog R FS Unit) = dumpTo p "events" := if_neg hp
  have hnet : s.broadcast ≠ 0 → w.prepared s = { w.fresh with obj :=
      { w.fresh.obj with verbosity := s.verbose.toInt } } := by
    intro hb
    rw [World.prepared, decide_eq_true hb, ← hn]
    rfl
  rw [setUp, hdump]
  by_cases hb : s.broadcast = 0
  · by_cases hf : s.filename = ""
    · simp only [hb, hf, if_true, ne_eq, not_true_eq_false, if_false]
      rw [World.prepared, decide_eq_false (not_not.2 hb)]
      rfl
    · simp only [hb, hf, if_true, ne_eq, not_false_eq_true, if_false]
      rw [World.prepared, decide_eq_false (not_not.2 hb)]
      rfl
  · rw [hnet hb]
    by_cases hf : s.filename = ""
    · simp only [hb, hf, if_true, ne_eq, not_true_eq_false, if_false]
      rfl
    · simp only [hb, hf, if_true, ne_eq, not_false_eq_true, if_false]
      rfl

omit [CDouble R] in
theorem dumpTo_keeps {P : FS → Prop} (hP : Persists p P) (name : String) (h : P w.fs) :
    P (final (dumpTo p name) w).fs := by
  simp only [final, dumpTo, self_bind]
  cases readoutTypeFromDetectorType w.obj.type with
  | error e => exact h
  | ok t =>
    have hmake := make_keeps hP (d := w.obj.type) (r := t) name h
    rw [lift_ok_bind]
    cases hm : Writer.make p w.obj.type t name w.fs with
    | error e fs =>
      rw [final_of_error hm] at hmake
      rwa [bind_of_error (onFiles_error hm)]
    | ok writer fs =>
      rw [final_of_ok hm] at hmake
      rwa [bind_of_ok (onFiles_ok hm)]

/-- INITIALIZE makes an object that has stored and conveyed nothing. -/
theorem stage_setUp {clock₀ : UInt64} {frequency : R} {type : Int} {fs : FS}
    {socket : ℕ → SendResult} (hw : readoutCreate clock₀ frequency type fs socket poisson = .ok w)
    (hd : detectorTypeFromInt type = .ok d) (ht : readoutTypeFromDetectorType d = .ok t)
    (hp : p ≠ "") (hwr : s.filename ≠ "" → Storage.Writable fs p)
    (hset : setUp s p w = .ok () w') :
    Stage s d t p poisson [] w' ∧ Confined p fs w'.fs := by
  have htrans := transmitting_create hw
  obtain ⟨d', prev, hd', -, rfl⟩ := make_ok hw
  obtain rfl : d = d' := Except.ok.inj (hd.symm.trans hd')
  set w := World.created (R := R) d _ _ prev fs socket poisson
  have hprep : s.broadcast ≠ 0 → Transmitting d [] poisson (w.prepared s) := by
    intro hb
    have hfresh : Transmitting d [] poisson w.fresh :=
      ⟨conveys_fresh htrans.conveys rfl, htrans.pulse, htrans.draws⟩
    have hconf := hfresh.configured fs s.verbose.toInt none
    rw [World.prepared, decide_eq_true hb]
    exact hconf
  rw [setUp_eq_dumpTo rfl hp] at hset
  by_cases hf : s.filename = ""
  · rw [if_pos hf] at hset
    injection hset with _ hset
    subst hset
    exact ⟨⟨rfl, (if_pos hf).symm, rfl, fun hf' => absurd hf hf', hprep, fun _ => rfl⟩,
      Confined.refl p fs⟩
  · rw [if_neg hf] at hset
    have hopen := Storage.openOrCreate_isSome (hwr hf)
    obtain ⟨hrec, hout⟩ := recording_dumpTo (d := d) (p := p) rfl ht hopen hset
    obtain ⟨fs', writer, hconf⟩ := dumpTo_configured p "events" (w.prepared s)
    rw [final_of_ok hset] at hconf
    refine ⟨⟨hrec.type, hrec.writer.trans (if_neg hf).symm, ?_, fun _ => ⟨[], hout, .nil⟩,
      fun hb => ?_, fun _ => ?_⟩, fun P hP hfs => ?_⟩
    · rw [hconf]
      rfl
    · rw [hconf]
      exact (hprep hb).configured fs' _ writer
    · rw [hconf]
      rfl
    · have hkeep := dumpTo_keeps hP "events" (w := w.prepared s) hfs
      rwa [final_of_ok hset] at hkeep

end

/-- FINALLY leaves nothing pending. -/
theorem stage_tearDown (h : Stage s d t p poisson calls w) (hdown : tearDown s w = .ok () w') :
    Stage s d t p poisson calls w' ∧ w'.fs = w.fs ∧ (s.broadcast ≠ 0 → w'.records = []) := by
  have hsend : ∀ v : World R FS, readoutSend v = .ok () v.flushed := by
    intro v
    obtain ⟨code, hs⟩ := send_eq v
    exact bind_of_ok hs
  by_cases hb : s.broadcast = 0
  · have hdown : readoutSend w = .ok () w' := by
      rw [← hdown, tearDown, if_neg (not_not.2 hb)]
      rfl
    obtain rfl : w.flushed = w' := by injection (hsend w).symm.trans hdown
    exact ⟨stage_flushed h, fs_flushed w, fun hb' => absurd hb hb'⟩
  · have hdown : (readoutSend >>= fun _ => readoutSend) w = .ok () w' := by
      rw [← hdown, tearDown, if_pos hb]
      rfl
    rw [bind_of_ok (hsend w)] at hdown
    obtain rfl : w.flushed.flushed = w' := by injection (hsend w.flushed).symm.trans hdown
    have h1 := stage_flushed h
    exact ⟨stage_flushed h1, (fs_flushed _).trans (fs_flushed w),
      fun hb => records_flushed (h1.network.trans (decide_eq_true hb))⟩

end

end ReadoutMaster
