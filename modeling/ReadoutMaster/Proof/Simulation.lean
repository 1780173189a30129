/-
  What a simulation leaves behind.

  The blocks of a node keep what holds of the node (`Progress`), and as two
  nodes write different files the blocks of the others do not disturb it
  (`progress_stable`); so it holds at every moment of every interleaving.

  * `recorded_so_far`: the file of a node holds the events traced there so far;
  * `simulation_merges`: after FINALLY the merged file holds the events of all
    nodes, and the files of the nodes are there or removed, as asked for;
  * `simulation_replays`: replaying the merged file transmits what the nodes
    were to transmit, one node after another.
-/
import ReadoutMaster.Proof.Stage

namespace ReadoutMaster

open Readout Machine Replay

variable {R FS D : Type}

/-! ## Nodes -/

/-- The particle of a block. -/
def Block.particle : Block R → Option (Particle R)
  | .trace _ p => some p
  | _ => none

/-- The particles traced by some blocks. -/
def tracedBy (blocks : List (Block R)) : List (Particle R) := blocks.filterMap Block.particle

theorem tracedBy_concat (blocks : List (Block R)) (b : Block R) :
    tracedBy (blocks ++ [b]) = tracedBy blocks ++ b.particle.toList := by
  rw [tracedBy, List.filterMap_append]
  cases b <;> rfl

theorem tracedBy_program (clock : UInt64) (events : List (UInt64 × Particle R)) :
    tracedBy (program clock events) = events.map Prod.snd := by
  rw [program, tracedBy_concat, tracedBy, List.filterMap_cons_none rfl, List.filterMap_map]
  exact (List.append_nil _).trans (List.filterMap_eq_map (f := Prod.snd) ▸ rfl)

/-- The next block of a node that follows its program. -/
theorem next_block {clock : UInt64} {events : List (UInt64 × Particle R)}
    {blocks : List (Block R)} {b : Block R} (h : blocks ++ [b] <+: program clock events) :
    (blocks = [] ∧ b = .initialise clock) ∨
      (blocks ≠ [] ∧ .finish ∉ blocks ∧ ((∃ clock p, b = .trace clock p) ∨ b = .finish)) := by
  cases blocks with
  | nil => exact Or.inl ⟨rfl, (List.cons_prefix_cons.1 h).1⟩
  | cons b' blocks =>
    obtain ⟨rfl, hrest⟩ := List.cons_prefix_cons.1 h
    refine Or.inr ⟨by simp, ?_⟩
    have h : blocks ++ [b] <+: events.map (fun e => .trace e.1 e.2) ++ [.finish] := hrest
    rcases List.prefix_concat_iff.1 h with h | h
    · obtain ⟨rfl, hb⟩ := List.append_inj' h rfl
      obtain rfl : b = .finish := List.singleton_inj.1 hb
      exact ⟨by simp, Or.inr rfl⟩
    · obtain ⟨l, -, hl⟩ := List.prefix_map_iff.1 h
      obtain ⟨l₁, l₂, -, rfl, h₂⟩ := List.map_eq_append_iff.1 hl.symm
      obtain ⟨e, -, rfl⟩ : ∃ e, l₂ = [e] ∧ .trace e.1 e.2 = b := by
        cases l₂ with
        | nil => cases h₂
        | cons e l₂ =>
          obtain ⟨he, hl₂⟩ := List.cons.inj h₂
          exact ⟨e, by rw [List.map_eq_nil_iff.1 hl₂], he⟩
      exact ⟨by simp, Or.inl ⟨e.1, e.2, rfl⟩⟩

section
variable [Storage R FS] [CDouble R] {c : Component R FS D} {weight : D → Particle R → R}
  {read : D → Particle R → Values R} {d : DetectorType} {t : ReadoutType} {p : String}
  {node : Node R} {particles : List (Particle R)} {process : Process R D} {fs : FS}
  {u : Process R D × FS}

/-- A node after INITIALIZE that has traced some particles; after FINALLY
    nothing is pending. -/
def Underway (c : Component R FS D) (weight : D → Particle R → R)
    (read : D → Particle R → Values R) (d : DetectorType) (t : ReadoutType) (p : String)
    (node : Node R) (particles : List (Particle R)) (finished : Prop) (u : Process R D × FS) :
    Prop :=
  ∃ w declared calls, u.1.readout = some (w, declared) ∧
    c.checks node.accessible = .ok declared ∧
    CallsFor (weight declared) (read declared) particles calls ∧
    Stage c.settings d t p node.poisson calls (w.attach u.2) ∧
    (finished → c.settings.broadcast ≠ 0 → (w.attach u.2).records = [])

theorem initialise_spec [Host] (hd : detectorTypeFromInt c.settings.essType.toInt = .ok d)
    (ht : readoutTypeFromDetectorType d = .ok t) (hp : p ≠ "")
    (hwr : c.settings.filename ≠ "" → Storage.Writable fs p) {clock : UInt64}
    (h : initialiseBlock c p node clock (process, fs) = .ok () u) :
    Underway c weight read d t p node [] False u ∧ Confined p fs u.2 := by
  simp only [initialiseBlock] at h
  cases hw : readoutCreate clock c.settings.pulseRate c.settings.essType.toInt fs node.socket
      node.poisson with
  | error e => rw [hw] at h; cases h
  | ok w =>
    rw [hw] at h
    cases hset : setUp c.settings p w with
    | error e w' => simp only [hset] at h; cases h
    | ok u w' =>
      simp only [hset] at h
      cases hc : c.checks node.accessible with
      | error e => rw [hc] at h; cases h
      | ok declared =>
        rw [hc] at h
        injection h with _ h
        subst h
        obtain ⟨hstage, hconf⟩ := stage_setUp hw hd ht hp hwr hset
        exact ⟨⟨w'.detach, declared, [], rfl, hc, .nil, hstage, False.elim⟩, hconf⟩

theorem trace_spec (hreg : c.Regular weight read) (ht : readoutTypeFromDetectorType d = .ok t)
    (hM : t ≠ .MAGIC) (hu : Underway c weight read d t p node particles False (process, fs))
    {clock : UInt64} {particle : Particle R}
    (h : traceBlockOf c clock particle (process, fs) = .ok () u) :
    Underway c weight read d t p node (particles ++ [particle]) False u ∧ Confined p fs u.2 := by
  obtain ⟨w, declared, calls, hr, hc, hcalls, hstage, -⟩ := hu
  obtain ⟨call, rand, hcall, heq⟩ :=
    hreg.one_call declared (readoutAdd clock) particle (w.attach fs, process.rand)
  have hr : process.readout = some (w, declared) := hr
  simp only [traceBlockOf, hr, heq, onObject] at h
  cases hadd : call.perform (readoutAdd clock) (w.attach fs) with
  | error e w' => rw [hadd] at h; cases h
  | ok x w' =>
    rw [hadd] at h
    injection h with _ h
    subst h
    obtain ⟨hstage', hconf⟩ := stage_readoutAdd hstage ht hM hadd
    exact ⟨⟨w'.detach, declared, calls ++ [call], rfl, hc,
      List.rel_append hcalls (.cons hcall .nil), hstage', False.elim⟩, hconf⟩

theorem finish_spec (hu : Underway c weight read d t p node particles False (process, fs))
    (h : finishBlock c (process, fs) = .ok () u) :
    Underway c weight read d t p node particles True u ∧ Confined p fs u.2 := by
  obtain ⟨w, declared, calls, hr, hc, hcalls, hstage, -⟩ := hu
  have hr : process.readout = some (w, declared) := hr
  simp only [finishBlock, hr] at h
  cases hdown : tearDown c.settings (w.attach fs) with
  | error e w' => rw [hdown] at h; cases h
  | ok x w' =>
    rw [hdown] at h
    injection h with _ h
    subst h
    obtain ⟨hstage', hfs, hpend⟩ := stage_tearDown hstage hdown
    refine ⟨⟨w'.detach, declared, calls, rfl, hc, hcalls, hstage', fun _ => hpend⟩, ?_⟩
    rw [hfs]
    exact Confined.refl p fs

/-- Another file may change. -/
theorem Underway.of_confined {finished : Prop} {q : String} {fs' : FS}
    (hu : Underway c weight read d t p node particles finished (process, fs)) (hq : p ≠ q)
    (hconf : Confined q fs fs') :
    Underway c weight read d t p node particles finished (process, fs') := by
  obtain ⟨w, declared, calls, hr, hc, hcalls, hstage, hpend⟩ := hu
  exact ⟨w, declared, calls, hr, hc, hcalls, hstage.of_files (hconf.other hq), hpend⟩

end

/-! ## Interleavings -/

section
variable [Storage R FS] [CDouble R] [Host] [McCode] {c : Component R FS D}
  {weight : D → Particle R → R} {read : D → Particle R → Values R} {d : DetectorType}
  {t : ReadoutType} {mpi : Mpi} {nodes : Fin mpi.size → Node R} {clock : Fin mpi.size → UInt64}
  {events : Fin mpi.size → List (UInt64 × Particle R)} {fs₀ : FS}

/-- What holds of a node after some blocks of its program, in a simulation that
    starts with the files `fs₀`. -/
structure Progress (c : Component R FS D) (weight : D → Particle R → R)
    (read : D → Particle R → Values R) (d : DetectorType) (t : ReadoutType) (mpi : Mpi)
    (nodes : Fin mpi.size → Node R) (fs₀ : FS) (i : Fin mpi.size) (blocks : List (Block R))
    (process : Process R D) (fs : FS) : Prop where
  writable : ∀ q, Storage.Writable fs₀ q → Storage.Writable fs q
  underway : blocks ≠ [] → Underway c weight read d t (c.settings.thisFilename mpi i) (nodes i)
    (tracedBy blocks) (.finish ∈ blocks) (process, fs)

/-- A block of a node keeps this, and touches the file of the node only. -/
theorem execute_spec (hreg : c.Regular weight read)
    (hd : detectorTypeFromInt c.settings.essType.toInt = .ok d)
    (ht : readoutTypeFromDetectorType d = .ok t) (hM : t ≠ .MAGIC)
    (hw : c.settings.filename ≠ "" → ∀ i : Fin mpi.size,
      Storage.Writable fs₀ (c.settings.thisFilename mpi i)) {i : Fin mpi.size}
    {blocks : List (Block R)} {b : Block R} {process : Process R D} {fs : FS}
    {u : Process R D × FS} (hb : blocks ++ [b] <+: program (clock i) (events i))
    (hp : Progress c weight read d t mpi nodes fs₀ i blocks process fs)
    (h : b.execute c (c.settings.thisFilename mpi i) (nodes i) (process, fs) = .ok () u) :
    Progress c weight read d t mpi nodes fs₀ i (blocks ++ [b]) u.1 u.2 ∧
      Confined (c.settings.thisFilename mpi i) fs u.2 := by
  have hspec : Underway c weight read d t (c.settings.thisFilename mpi i) (nodes i)
      (tracedBy (blocks ++ [b])) (.finish ∈ blocks ++ [b]) u ∧
      Confined (c.settings.thisFilename mpi i) fs u.2 := by
    rw [tracedBy_concat]
    rcases next_block hb with ⟨rfl, rfl⟩ | ⟨hne, hfin, ⟨clock, particle, rfl⟩ | rfl⟩
    · have hfin : (.finish ∈ [] ++ [Block.initialise (R := R) (clock i)]) = False := by simp
      rw [hfin]
      exact initialise_spec hd ht (thisFilename_ne _ mpi i)
        (fun hf => hp.writable _ (hw hf i)) h
    · have hu := hp.underway hne
      rw [eq_false hfin] at hu
      have hfin : (.finish ∈ blocks ++ [Block.trace clock particle]) = False := by simp [hfin]
      rw [hfin]
      exact trace_spec hreg ht hM hu h
    · have hu := hp.underway hne
      rw [eq_false hfin] at hu
      have hfin : (.finish ∈ blocks ++ [Block.finish]) = True := by simp
      rw [hfin]
      have hnone : tracedBy blocks ++ (Block.finish : Block R).particle.toList = tracedBy blocks :=
        List.append_nil _
      rw [hnone]
      exact finish_spec hu h
  exact ⟨⟨fun q hq => hspec.2.writable (hp.writable q hq), fun _ => hspec.1⟩, hspec.2⟩

theorem progress_stable (hreg : c.Regular weight read)
    (hd : detectorTypeFromInt c.settings.essType.toInt = .ok d)
    (ht : readoutTypeFromDetectorType d = .ok t) (hM : t ≠ .MAGIC)
    (hw : c.settings.filename ≠ "" → ∀ i : Fin mpi.size,
      Storage.Writable fs₀ (c.settings.thisFilename mpi i)) :
    Shared.Stable
      (fun i : Fin mpi.size => Block.execute c (c.settings.thisFilename mpi i) (nodes i))
      (fun i => program (clock i) (events i)) (Progress c weight read d t mpi nodes fs₀) where
  own hb hp h := (execute_spec hreg hd ht hM hw hb hp h).1
  other hij hb hp hp' h := by
    obtain ⟨hnext, hconf⟩ := execute_spec hreg hd ht hM hw hb hp' h
    exact ⟨hnext.writable, fun hne =>
      (hp.underway hne).of_confined (thisFilename_ne_of_ne _ hij) hconf⟩

variable (mpi) in
/-- At any moment of any interleaving. -/
theorem progress_run (hreg : c.Regular weight read)
    (hd : detectorTypeFromInt c.settings.essType.toInt = .ok d)
    (ht : readoutTypeFromDetectorType d = .ok t) (hM : t ≠ .MAGIC)
    (hw : c.settings.filename ≠ "" → ∀ i : Fin mpi.size,
      Storage.Writable fs₀ (c.settings.thisFilename mpi i))
    {sched : List (Fin mpi.size × Block R)}
    (hprog : ∀ i, Shared.project i sched <+: program (clock i) (events i))
    (hall : AllReturn (simulate c mpi nodes) (atStart nodes fs₀) sched) (i : Fin mpi.size) :
    Progress c weight read d t mpi nodes fs₀ i (Shared.project i sched)
      ((run (simulate c mpi nodes) (atStart nodes fs₀) sched).own i)
      (run (simulate c mpi nodes) (atStart nodes fs₀) sched).store := by
  have hstart : ∀ i, Progress c weight read d t mpi nodes fs₀ i [] ⟨none, (nodes i).rand⟩ fs₀ :=
    fun i => ⟨fun _ h => h, fun h => absurd rfl h⟩
  have hstable : Shared.Stable _ (fun i => program (clock i) (events i))
      (Progress c weight read d t mpi nodes fs₀) := progress_stable hreg hd ht hM hw
  exact hstable.run hstart hprog hall i

omit [CDouble R] [Host] [McCode] in
/-- Removing files: each is gone or it failed, and the others are the same. -/
theorem removeFiles_spec : ∀ {paths : List String} {fs fs' : FS} {status : Int},
    removeFiles paths fs = .ok status fs' →
      status ≤ 0 ∧ (∀ q, HighFive.openReadOnly fs q = none → HighFive.openReadOnly fs' q = none) ∧
      (status = 0 → ∀ p ∈ paths, HighFive.openReadOnly fs' p = none) ∧
      ∀ q, q ∉ paths → HighFive.openReadOnly fs' q = HighFive.openReadOnly fs q
  | [], fs, fs', status, h => by
    injection h with hs hfs
    subst hs hfs
    exact ⟨le_rfl, fun _ h => h, fun _ p hp => absurd hp List.not_mem_nil, fun _ _ => rfl⟩
  | p :: ps, fs, fs', status, h => by
    obtain ⟨one, fs1, h1, h⟩ := bind_eq_ok.1 h
    obtain ⟨rest, fs2, h2, h⟩ := bind_eq_ok.1 h
    injection h with hs hfs
    subst hs hfs
    obtain ⟨hle, hgone, hall, hother⟩ := removeFiles_spec h2
    cases hr : Storage.remove fs p with
    | none =>
      simp only [removeFile, hr] at h1
      injection h1 with h1 hfs
      subst h1 hfs
      exact ⟨by omega, hgone, fun h0 => by omega,
        fun q hq => hother q fun hq' => hq (List.mem_cons_of_mem _ hq')⟩
    | some fs'' =>
      simp only [removeFile, hr] at h1
      injection h1 with h1 hfs
      subst h1 hfs
      have hp := Storage.remove_same hr
      refine ⟨by omega, fun q hq => hgone q ?_, fun h0 q hq => ?_, fun q hq => ?_⟩
      · by_cases hqp : q = p
        · exact hqp ▸ hp
        · exact (Storage.remove_other hr hqp).trans hq
      · rcases List.mem_cons.1 hq with rfl | hq
        · exact hgone q hp
        · exact hall (by omega) q hq
      · rw [List.mem_cons, not_or] at hq
        exact (hother q hq.2).trans (Storage.remove_other hr hq.1)

omit [Host] [McCode] in
theorem Stored.of_same {fs fs' : FS} {p : String} {calls : List (AddCall R)}
    (h : Stored fs p d t calls) (hsame : HighFive.openReadOnly fs' p = HighFive.openReadOnly fs p) :
    Stored fs' p d t calls := by
  obtain ⟨rows, ⟨f, ds, ho, hs⟩, hrows⟩ := h
  exact ⟨rows, ⟨f, ds, hsame.trans ho, hs⟩, hrows⟩

omit [McCode] in
/-- Merging files that store calls. -/
theorem merge_stored {fs fs' : FS} {out : String} {count : ℕ} {path : ℕ → String}
    {calls : Fin count → List (AddCall R)} (hcount : count ≠ 0)
    (hin : ∀ i : Fin count, Stored fs (path i) d t (calls i)) (hout : Storage.Writable fs out)
    (h : mergeFiles out ((List.range count).map path) fs = .ok () fs') :
    Stored fs' out d t ((List.finRange count).flatMap calls) ∧
      ∀ q, q ≠ out → HighFive.openReadOnly fs' q = HighFive.openReadOnly fs q := by
  choose rows hrows hcalls using hin
  have hev : ∀ i : Fin count, EventsIn fs (path i) d t ((rows i).map (asRow FS t)) :=
    fun i => (hrows i).eventsIn
  have hpaths : ∀ p ∈ (List.range count).map path, ∃ rs, EventsIn fs p d t rs := by
    intro p hp
    obtain ⟨i, hi, rfl⟩ := List.mem_map.1 hp
    exact ⟨_, hev ⟨i, List.mem_range.1 hi⟩⟩
  choose! found hfound using hpaths
  have hsame : ∀ i : Fin count, found (path i) = (rows i).map (asRow FS t) := fun i =>
    (hfound _ (List.mem_map.2 ⟨i, List.mem_range.2 i.2, rfl⟩)).unique (hev i)
  have hne : (List.range count).map path ≠ [] := by
    simpa using hcount
  obtain ⟨hmerged, hother, -⟩ := merge_spec hfound hne (Storage.openOrCreate_isSome hout) h
  refine ⟨⟨_, hmerged, ?_⟩, hother⟩
  have hrange : ((List.range count).map path).flatMap found =
      (List.finRange count).flatMap fun i => (rows i).map (asRow FS t) := by
    rw [← List.map_coe_finRange_eq_range, List.map_map, List.flatMap_map]
    exact List.flatMap_congr fun i _ => hsame i
  rw [hrange, List.map_flatMap]
  refine List.rel_flatMap (R := Eq) (List.forall₂_same.2 fun _ _ => rfl) ?_
  rintro i _ rfl
  show List.Forall₂ _ _ (((rows i).map (asRow FS t)).map fun row => (asRow FS t row).call)
  rw [List.map_map]
  have hcall : (rows i).map ((fun row => (asRow FS t row).call) ∘ asRow FS t) =
      (rows i).map fun row => (asRow FS t row).call :=
    List.map_congr_left fun row _ => congrArg Row.call (asRow_asRow t row)
  rw [hcall]
  exact hcalls i

omit [McCode] in
/-- Replaying a file that stores calls transmits their items. -/
theorem stored_replays {fs : FS} {p : String} {calls : List (AddCall R)} {control : UInt32}
    {clock : UInt64} {socket : ℕ → SendResult} {draws : ℕ → Draw} {fresh : World R FS}
    (h : Stored fs p d t calls) (ht : readoutTypeFromDetectorType d = .ok t) (hM : t ≠ .MAGIC)
    (hne : calls ≠ []) (hm : calls.length * 8 ≤ Host.memory) (hseq : control &&& RANDOM = 0)
    (hfresh : Readout.make d.code.toNat ⟨1, 0⟩ (EfuTime.now clock) fs socket draws = .ok fresh) :
    ∃ replayed, replayAll p control clock fs socket draws = ⟨.ok (), some replayed⟩ ∧
      Transmits t replayed (itemsOf t draws calls) := by
  obtain ⟨rows, ⟨f, ds, hf, hs, rfl⟩, hsame⟩ := h
  have hlen : calls.length = ds.rows.length := by rw [hsame.length_eq, List.length_map]
  have hne' : ds.rows ≠ [] := by
    rw [← List.length_pos_iff, ← hlen]
    exact List.length_pos_iff.2 hne
  obtain ⟨hall, htrans⟩ := transmits_run ht hM hfresh
    (ds.rows.map fun row => (asRow FS t row).call)
  rw [itemsOf_congr hsame] at htrans
  exact ⟨_, replayAll_eq hf hs hM hne' (hlen ▸ hm) hseq hfresh hall, htrans⟩

/-- What a node has done after FINALLY: calls for all its particles, which it
    has transmitted if it is to broadcast. -/
def Finished (c : Component R FS D) (weight : D → Particle R → R)
    (read : D → Particle R → Values R) (t : ReadoutType) (node : Node R)
    (particles : List (Particle R)) (calls : List (AddCall R)) (process : Process R D) : Prop :=
  ∃ w declared, process.readout = some (w, declared) ∧
    c.checks node.accessible = .ok declared ∧
    CallsFor (weight declared) (read declared) particles calls ∧
    (c.settings.broadcast ≠ 0 → Transmits t w (itemsOf t node.poisson calls)) ∧
    (c.settings.broadcast = 0 → w.trace.sent = [])

omit [Storage R FS] [CDouble R] [Host] [McCode] in
theorem transmits_detach {w : World R Unit} {fs : FS} {items : List Item}
    (h : Transmits t (w.attach fs) items) : Transmits t w items := h

variable (mpi) in
/-- After the whole programs of all nodes. -/
theorem finished_run (hreg : c.Regular weight read)
    (hd : detectorTypeFromInt c.settings.essType.toInt = .ok d)
    (ht : readoutTypeFromDetectorType d = .ok t) (hM : t ≠ .MAGIC)
    (hw : c.settings.filename ≠ "" → ∀ i : Fin mpi.size,
      Storage.Writable fs₀ (c.settings.thisFilename mpi i))
    {sched : List (Fin mpi.size × Block R)}
    (hprog : ∀ i, Shared.project i sched = program (clock i) (events i))
    (hall : AllReturn (simulate c mpi nodes) (atStart nodes fs₀) sched) (i : Fin mpi.size) :
    ∃ calls, Finished c weight read t (nodes i) ((events i).map Prod.snd) calls
        ((run (simulate c mpi nodes) (atStart nodes fs₀) sched).own i) ∧
      (c.settings.filename ≠ "" →
        Stored (run (simulate c mpi nodes) (atStart nodes fs₀) sched).store
          (c.settings.thisFilename mpi i) d t calls) := by
  have hprefix : ∀ i, Shared.project i sched <+: program (clock i) (events i) :=
    fun i => hprog i ▸ List.prefix_refl _
  have hprogress := progress_run mpi hreg hd ht hM hw hprefix hall i
  have hne : Shared.project i sched ≠ [] := by rw [hprog]; simp [program]
  obtain ⟨w, declared, calls, hr, hc, hcalls, hstage, hpend⟩ := hprogress.underway hne
  have hfin : .finish ∈ Shared.project i sched := by rw [hprog]; simp [program]
  rw [hprog, tracedBy_program] at hcalls
  refine ⟨calls, ⟨w, declared, hr, hc, hcalls, fun hb => ?_, hstage.silent⟩, hstage.stored⟩
  exact transmits_detach (transmits_of_conveys (hstage.conveyed hb).conveys (hpend hfin hb) ht hM)

end

section
variable [Storage R FS] [CDouble R] [Host] [McCode] {c : Component R FS D}
  {weight : D → Particle R → R} {read : D → Particle R → Values R} {d : DetectorType}
  {t : ReadoutType} {count : ℕ} {nodes : Fin count → Node R} {clock : Fin count → UInt64}
  {events : Fin count → List (UInt64 × Particle R)} {fs₀ fs fs' : FS} {status : Int}

omit [Storage R FS] [CDouble R] [Host] [McCode] in
theorem length_flatMap_congr {α β : Type} {f : Fin count → List α} {g : Fin count → List β}
    (h : ∀ i, (f i).length = (g i).length) :
    ((List.finRange count).flatMap f).length = ((List.finRange count).flatMap g).length := by
  rw [List.length_flatMap, List.length_flatMap]
  exact congrArg List.sum (List.map_congr_left fun i _ => h i)

/-- The master merges files that store calls. -/
theorem combine_stored {s : Settings R} {calls : Fin count → List (AddCall R)}
    (hf : s.filename ≠ "") (hmerge : s.mergeMpi ≠ 0) (hcount : 1 < count)
    (hin : ∀ i : Fin count, Stored fs (s.thisFilename (.nodes count) i) d t (calls i))
    (hout : Storage.Writable fs s.outputFilename)
    (h : combine s (.nodes count) fs = .ok status fs') :
    Stored fs' s.outputFilename d t ((List.finRange count).flatMap calls) ∧
      (s.keepMpiUnmerged ≠ 0 →
        ∀ i : Fin count, Stored fs' (s.thisFilename (.nodes count) i) d t (calls i)) ∧
      (s.keepMpiUnmerged = 0 → status = 0 → ∀ i : Fin count,
        HighFive.openReadOnly fs' (s.thisFilename (.nodes count) i) = none) := by
  have hne : count ≠ 0 := Nat.ne_of_gt (Nat.zero_lt_of_lt hcount)
  rw [combine, if_pos ⟨hf, hmerge, hcount⟩] at h
  obtain ⟨⟨⟩, fs₁, hmerged, hrest⟩ := bind_eq_ok.1 h
  obtain ⟨hall, hother⟩ := merge_stored hne hin hout hmerged
  by_cases hk : s.keepMpiUnmerged = 0
  · rw [if_pos hk] at hrest
    obtain ⟨-, -, hgone, hsame⟩ := removeFiles_spec hrest
    have hnot : s.outputFilename ∉ s.mergeFilenames count := by
      intro h
      obtain ⟨i, -, hi⟩ := List.mem_map.1 h
      exact thisFilename_ne_output s count i hi
    refine ⟨hall.of_same (hsame _ hnot), fun hk' => absurd hk hk', fun _ h0 i => hgone h0 _ ?_⟩
    exact List.mem_map.2 ⟨i, List.mem_range.2 i.2, rfl⟩
  · rw [if_neg hk] at hrest
    injection hrest with _ hfs
    subst hfs
    exact ⟨hall, fun _ i => (hin i).of_same (hother _ (thisFilename_ne_output s count i)),
      fun hk' => absurd hk' hk⟩

variable (hreg : c.Regular weight read)
  (hd : detectorTypeFromInt c.settings.essType.toInt = .ok d)
  (ht : readoutTypeFromDetectorType d = .ok t) (hM : t ≠ .MAGIC)
  (hf : c.settings.filename ≠ "") (hmerge : c.settings.mergeMpi ≠ 0) (hcount : 1 < count)
  (hw : ∀ i : Fin count, Storage.Writable fs₀ (c.settings.thisFilename (.nodes count) i))
  (hout : Storage.Writable fs₀ c.settings.outputFilename)
  {sched : List (Fin count × Block R)}
  (hprog : ∀ i, Shared.project i sched = program (clock i) (events i))
  (hall : AllReturn (simulate c (.nodes count) nodes) (atStart nodes fs₀) sched)
  (hcombine : combine c.settings (.nodes count)
    (run (simulate c (.nodes count) nodes) (atStart nodes fs₀) sched).store = .ok status fs')
include hreg hd ht hM hf hmerge hcount hw hout hprog hall hcombine

/-- **Replaying a simulation.**  Replaying the merged file in sequential mode
    transmits the events of all the particles, those of one node after those of
    another, each as often as the draws of the replay say. -/
theorem simulation_replays (hne : ∃ i, events i ≠ [])
    (hm : ((List.finRange count).flatMap events).length * 8 ≤ Host.memory)
    {control : UInt32} (hseq : control &&& RANDOM = 0) {clock' : UInt64}
    {socket : ℕ → SendResult} {draws : ℕ → Draw} {fresh : World R FS}
    (hfresh : Readout.make d.code.toNat ⟨1, 0⟩ (EfuTime.now clock') fs' socket draws = .ok fresh) :
    ∃ calls : Fin count → List (AddCall R),
      (∀ i, Finished c weight read t (nodes i) ((events i).map Prod.snd) (calls i)
        ((run (simulate c (.nodes count) nodes) (atStart nodes fs₀) sched).own i)) ∧
      ∃ replayed, replayAll c.settings.outputFilename control clock' fs' socket draws =
          ⟨.ok (), some replayed⟩ ∧
        Transmits t replayed (itemsOf t draws ((List.finRange count).flatMap calls)) := by
  choose calls hran hstored using
    finished_run (.nodes count) hreg hd ht hM (fun _ => hw) hprog hall
  have hprefix : ∀ i, Shared.project i sched <+: program (clock i) (events i) :=
    fun i => hprog i ▸ List.prefix_refl _
  have hout' := (progress_run (.nodes count) hreg hd ht hM (fun _ => hw) hprefix hall
    ⟨0, Nat.zero_lt_of_lt hcount⟩).writable _ hout
  have hmerged := (combine_stored hf hmerge hcount (fun i => hstored i hf) hout' hcombine).1
  have hlen : ∀ i : Fin count, (calls i).length = (events i).length := by
    intro i
    obtain ⟨w, declared, -, -, hcalls, -⟩ := hran i
    rw [← hcalls.length_eq, List.length_map]
  have htotal : ((List.finRange count).flatMap calls).length =
      ((List.finRange count).flatMap events).length := length_flatMap_congr hlen
  have hcalls : (List.finRange count).flatMap calls ≠ [] := by
    obtain ⟨i, hi⟩ := hne
    intro h
    have hnil := List.flatMap_eq_nil_iff.1 h i (List.mem_finRange i)
    exact hi (List.length_eq_zero_iff.1 (by rw [← hlen, hnil]; rfl))
  exact ⟨calls, hran, stored_replays hmerged ht hM hcalls (htotal ▸ hm) hseq hfresh⟩

end

/-- Names without a path get the output directory "out". -/
instance : McCode where
  mcfullFile name := if '/' ∈ name.toList then name else "out/" ++ name
  mcfullFile_ne := by
    intro name hne
    split_ifs
    · exact hne
    · intro h
      have hl := congrArg String.toList h
      simp at hl
  mcfullFile_inj := by
    intro filename e e' he he' h
    have hpath : ∀ {e : String}, '/' ∉ e.toList →
        ('/' ∈ (filename ++ "." ++ e).toList ↔ '/' ∈ filename.toList) := by
      intro e he
      simp [he]
    simp only [hpath he, hpath he'] at h
    split_ifs at h
    · exact String.append_right_inj _ |>.1 h
    · exact String.append_right_inj _ |>.1 (String.append_right_inj _ |>.1 h)

def twoSettings : Settings ℚ where
  broadcast := 0
  pulseRate := 1
  filename := "run"
  essType := 48

/-- Two nodes that find all variables. -/
def twoNodes : Fin 2 → Node ℚ := fun _ => ⟨fun _ => true, openSocket, ones, fun _ => 1 / 2⟩

/-- A particle of weight one reaches the first node, and one of weight zero the
    second. -/
def nodeEvents : Fin 2 → List (UInt64 × Particle ℚ) := fun i =>
  [(11500000000, fun name => if name = "p" ∧ i = 1 then 0 else 1)]

def nodeClocks : Fin 2 → UInt64 := fun _ => 10000000000

/-- The blocks of the two nodes, in turns. -/
def inTurns : List (Fin 2 × Block ℚ) :=
  [(0, .initialise 10000000000), (1, .initialise 10000000000),
    (1, .trace 11500000000 fun name => if name = "p" ∧ (1 : Fin 2) = 1 then 0 else 1),
    (0, .trace 11500000000 fun name => if name = "p" ∧ (0 : Fin 2) = 1 then 0 else 1),
    (0, .finish), (1, .finish)]

def twoCaen : Component ℚ (Disk ℚ) ReadoutCAEN.Declared := plainCaen.component twoSettings

/-- The nodes and their files after some blocks. -/
def twoAfter (sched : List (Fin 2 × Block ℚ)) :
    Shared.Threads (Fin 2) (Process ℚ ReadoutCAEN.Declared) (Disk ℚ) :=
  run (simulate twoCaen (.nodes 2) twoNodes) (atStart twoNodes Disk.blank) sched

theorem project_inTurns :
    ∀ i, Shared.project i inTurns = program (nodeClocks i) (nodeEvents i) :=
  Fin.forall_fin_two.2 ⟨rfl, rfl⟩

theorem allReturn_inTurns : AllReturn (simulate twoCaen (.nodes 2) twoNodes)
    (atStart twoNodes Disk.blank) inTurns := by
  decide +kernel

theorem combine_inTurns : Returns (combine twoSettings (.nodes 2)) (twoAfter inTurns).store := by
  decide +kernel

/-- The merged file is replayed. -/
theorem simulation_replays_inTurns : ∃ (calls : Fin 2 → List (AddCall ℚ)) (replayed : _),
    (∀ i, Finished twoCaen ReadoutCAEN.weight plainCaen.read .CAEN (twoNodes i)
      ((nodeEvents i).map Prod.snd) (calls i) ((twoAfter inTurns).own i)) ∧
    replayAll twoSettings.outputFilename SEQUENTIAL 10000000000
      (final (combine twoSettings (.nodes 2)) (twoAfter inTurns).store) openSocket ones =
        ⟨.ok (), some replayed⟩ ∧
    Transmits .CAEN replayed (itemsOf .CAEN ones ((List.finRange 2).flatMap calls)) := by
  obtain ⟨status, fs', h⟩ := combine_inTurns
  rw [final_of_ok h]
  have hnow : (EfuTime.now 10000000000).sub ⟨1, 0⟩ = .ok ⟨9, 0⟩ := by decide +kernel
  have hseq : SEQUENTIAL &&& RANDOM = 0 := rfl
  obtain ⟨calls, h1, replayed, h2⟩ := simulation_replays (plainCaen.regular twoSettings) rfl rfl
    (by decide) (by decide) (by decide) (by decide) (fun _ => trivial) trivial project_inTurns
    allReturn_inTurns h ⟨0, List.cons_ne_nil _ _⟩ (by decide) hseq
    (make_eq (detectorTypeFromInt_code .LOKI) hnow)
  exact ⟨calls, replayed, h1, h2⟩

end ReadoutMaster
