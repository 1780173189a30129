/-
  A component in a simulation: the INITIALIZE, TRACE and FINALLY blocks that
  `ReadoutCAEN` and `ReadoutTTLMonitor` have in common
  (share/Readout/ReadoutCAEN.comp, share/Readout/ReadoutTTLMonitor.comp).

  Compiled with MPI, an instrument runs as several processes, the nodes, that
  have a `Readout` each and share the files.  A node executes INITIALIZE once,
  TRACE for each particle that reaches the component there, and FINALLY once;
  the blocks of different nodes interleave (`Shared.act`).  After a barrier the
  master merges the files of the nodes (`combine`).

  `mcfull_file` belongs to McCode, which is not part of the repository.
-/
import ReadoutMaster.Components
import ReadoutMaster.Interface
import ReadoutMaster.Merge
import ReadoutMaster.Lib.Shared

namespace ReadoutMaster

open Machine Readout

/-- `mcfull_file(name, NULL)`, which puts the output directory before a name
    that has no path.  Names with the same beginning stay apart. -/
class McCode where
  mcfullFile : String → String
  mcfullFile_ne : ∀ {name : String}, name ≠ "" → mcfullFile name ≠ ""
  mcfullFile_inj : ∀ {filename e e' : String}, '/' ∉ e.toList → '/' ∉ e'.toList →
    mcfullFile (filename ++ "." ++ e) = mcfullFile (filename ++ "." ++ e') → e = e'

/-- The setting parameters that INITIALIZE and FINALLY read. -/
structure Settings (R : Type) where
  broadcast : Int32 := 1
  pulseRate : R
  filename : String := ""
  mergeMpi : Int32 := 1
  keepMpiUnmerged : Int32 := 0
  verbose : Int32 := 0
  essType : Int32

/-- A component: its settings, the checks at the end of INITIALIZE, and TRACE
    for a given `readout_add`. -/
structure Component (R FS D : Type) where
  settings : Settings R
  checks : (String → Bool) → Except Exit D
  trace : D → AddReadout R (EStateM Exn (World R FS) Unit) → Particle R →
    EStateM Exn (World R FS × (ℕ → R)) Unit

def ReadoutCAEN.component {R FS : Type} [CDouble R] [CArith R] (c : ReadoutCAEN R)
    (settings : Settings R) : Component R FS Declared where
  settings := settings
  checks := c.initialise
  trace d readoutAdd p := c.trace d readoutAdd p

def ReadoutTTLMonitor.component {R FS : Type} [CDouble R] [CArith R] (c : ReadoutTTLMonitor R)
    (settings : Settings R) : Component R FS Declared where
  settings := settings
  checks := c.initialise
  trace d readoutAdd p := c.trace d readoutAdd p

/-- Whether the instrument is compiled with `USE_MPI`, and then `mpi_node_count`. -/
inductive Mpi where
  | off
  | nodes (count : ℕ)
  deriving DecidableEq, Repr

/-- The number of processes. -/
abbrev Mpi.size : Mpi → ℕ
  | .off => 1
  | .nodes count => count

/-! ## File names -/

section
variable [McCode]

/-- `extension`, for the node of a rank. -/
def Mpi.extension : Mpi → ℕ → String
  | .off, _ => "h5"
  | .nodes _, rank => "node_" ++ rank.repr ++ ".h5"

variable {R : Type} (s : Settings R)

/-- `this_filename` -/
def Settings.thisFilename (mpi : Mpi) (rank : ℕ) : String :=
  McCode.mcfullFile (s.filename ++ "." ++ mpi.extension rank)

/-- `output_filename` -/
def Settings.outputFilename : String := McCode.mcfullFile (s.filename ++ "." ++ "h5")

/-- `merge_filenames` -/
def Settings.mergeFilenames (count : ℕ) : List String :=
  (List.range count).map (s.thisFilename (.nodes count))

end

/-! ## A node -/

/-- The world without the files, which the nodes share. -/
def World.detach {R FS : Type} (w : World R FS) : World R Unit := ⟨w.obj, (), w.socket, w.trace⟩

def World.attach {R FS : Type} (w : World R Unit) (fs : FS) : World R FS :=
  ⟨w.obj, fs, w.socket, w.trace⟩

/-- What a node finds: the variables of its particles, the answers of its
    socket, and the values of its random engines. -/
structure Node (R : Type) where
  accessible : String → Bool
  socket : ℕ → SendResult
  poisson : ℕ → Draw
  rand : ℕ → R

/-- The memory of a node: what `readout_ptr` points to, `NULL` before
    INITIALIZE, with the declared variables. -/
structure Process (R D : Type) where
  readout : Option (World R Unit × D)
  rand : ℕ → R

/-- A node ends early by an exception nothing catches, or by `exit`. -/
inductive Abort where
  | exception (e : Exn)
  | exit (e : Exit)
  deriving DecidableEq, Repr

inductive Block (R : Type) where
  | initialise (clock : UInt64)
  | trace (clock : UInt64) (p : Particle R)
  | finish

section
variable {R FS D : Type} [HighFive R FS] [CDouble R] [Host]

/-- The calls of INITIALIZE after `readout_create`. -/
def setUp (s : Settings R) (filename : String) : Prog R FS Unit := do
  readoutNewPacket
  readoutVerbose s.verbose.toInt
  if s.broadcast = 0 then readoutDisableNetwork
  if s.filename ≠ "" then readoutDumpTo filename

/-- The calls of FINALLY before the barrier. -/
def tearDown (s : Settings R) : Prog R FS Unit := do
  if s.broadcast ≠ 0 then readoutSend
  readoutDestroy

variable (c : Component R FS D) (filename : String) (node : Node R)

def initialiseBlock (clock : UInt64) : EStateM Abort (Process R D × FS) Unit := fun (p, fs) =>
  match readoutCreate clock c.settings.pulseRate c.settings.essType.toInt fs node.socket
      node.poisson with
  | .error e => .error (.exception e) (p, fs)
  | .ok w =>
    match setUp c.settings filename w with
    | .error e w => .error (.exception e) (p, w.fs)
    | .ok () w =>
      match c.checks node.accessible with
      | .error e => .error (.exit e) (p, w.fs)
      | .ok d => .ok () ({ p with readout := some (w.detach, d) }, w.fs)

def traceBlockOf (clock : UInt64) (particle : Particle R) :
    EStateM Abort (Process R D × FS) Unit := fun (p, fs) =>
  match p.readout with
  -- TRACE follows INITIALIZE
  | none => .ok () (p, fs)
  | some (w, d) =>
    match c.trace d (readoutAdd clock) particle (w.attach fs, p.rand) with
    | .ok () (w, rand) => .ok () (⟨some (w.detach, d), rand⟩, w.fs)
    | .error e (w, rand) => .error (.exception e) (⟨some (w.detach, d), rand⟩, w.fs)

def finishBlock : EStateM Abort (Process R D × FS) Unit := fun (p, fs) =>
  match p.readout with
  | none => .ok () (p, fs)
  | some (w, d) =>
    match tearDown c.settings (w.attach fs) with
    | .ok () w => .ok () ({ p with readout := some (w.detach, d) }, w.fs)
    | .error e w => .error (.exception e) ({ p with readout := some (w.detach, d) }, w.fs)

/-- A block of a node. -/
def Block.execute : Block R → EStateM Abort (Process R D × FS) Unit
  | .initialise clock => initialiseBlock c filename node clock
  | .trace clock p => traceBlockOf c clock p
  | .finish => finishBlock c

end

/-- The blocks of a node, for the particles that reach the component there and
    the times they are traced at. -/
def program {R : Type} (clock : UInt64) (events : List (UInt64 × Particle R)) : List (Block R) :=
  .initialise clock :: events.map (fun e => .trace e.1 e.2) ++ [.finish]

/-! ## The simulation -/

/-- The nodes before INITIALIZE. -/
def atStart {R FS D : Type} {n : ℕ} (nodes : Fin n → Node R) (fs : FS) :
    Shared.Threads (Fin n) (Process R D) FS :=
  ⟨fun i => ⟨none, (nodes i).rand⟩, fs⟩

section
variable {R FS D : Type} [Storage R FS] [CDouble R] [Host] [McCode]

variable (c : Component R FS D) (mpi : Mpi) (nodes : Fin mpi.size → Node R)

/-- The blocks of all the nodes, interleaved. -/
def simulate : Fin mpi.size × Block R →
    EStateM Abort (Shared.Threads (Fin mpi.size) (Process R D) FS) Unit :=
  Shared.act fun i => Block.execute c (c.settings.thisFilename mpi i) (nodes i)

/-- `remove(path)`, with what it returns. -/
def removeFile (path : String) : EStateM Exn FS Int := fun fs =>
  match Storage.remove fs path with
  | some fs' => .ok 0 fs'
  | none => .ok (-1) fs

/-- The sum of what `remove` returns for the files. -/
def removeFiles : List String → EStateM Exn FS Int
  | [] => return 0
  | path :: paths => do
    let status ← removeFile path
    return status + (← removeFiles paths)

/-- What the master does in FINALLY after the barrier; the result is the
    `status` that it warns of. -/
def combine (s : Settings R) : Mpi → EStateM Exn FS Int
  | .off => return 0
  | .nodes count => do
    if s.filename ≠ "" ∧ s.mergeMpi ≠ 0 ∧ count > 1 then
      mergeFiles s.outputFilename (s.mergeFilenames count)
      if s.keepMpiUnmerged = 0 then removeFiles (s.mergeFilenames count) else return 0
    else return 0

end

end ReadoutMaster
