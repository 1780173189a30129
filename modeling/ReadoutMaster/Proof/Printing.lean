/-
  Printing methods do what the methods do.

  Two worlds are the same but for the verbosity (`SameBut`), and a console
  shows a world that is its own but for the verbosity (`Shows`).  A method with
  its printing agrees with the method, from a console and a world it shows
  (`Prints`); so the world of a console goes where the calls take it, and no
  call but `readout_shutdown` touches the TCP side.

  * `Console.prints_step`: every call of the interface;
  * `Console.shows_session`: every run of calls.
-/
import ReadoutMaster.Console
import ReadoutMaster.Lib.Relate
import ReadoutMaster.Proof.Ops

namespace ReadoutMaster

open Packed Machine

variable {R FS : Type}

def Readout.withLevel (o : Readout) (level : Int) : Readout := { o with verbosity := level }

/-- The world with another verbosity of the object. -/
def World.withLevel (w : World R FS) (level : Int) : World R FS :=
  { w with obj := w.obj.withLevel level }

/-- The worlds are the same but for the verbosity. -/
def SameBut (w v : World R FS) : Prop := ∃ level, v = w.withLevel level

/-! ## The methods -/

/-- The program does the same whatever the verbosity. -/
def Indifferent {α : Type} (x : Prog R FS α) : Prop := Relates SameBut Eq x x

theorem indifferent_of_ok {α : Type} {x : Prog R FS α}
    (h : ∀ w level, ∃ a v level', x w = .ok a v ∧
      x (World.withLevel w level) = .ok a (v.withLevel level')) : Indifferent x := by
  rintro w _ ⟨level, rfl⟩
  obtain ⟨a, v, level', h1, h2⟩ := h w level
  rw [h1, h2]
  exact .ok rfl ⟨level', rfl⟩

theorem indifferent_newPacket : Indifferent (Readout.newPacket : Prog R FS Unit) :=
  indifferent_of_ok fun _ level => ⟨(), _, level, rfl, rfl⟩

theorem indifferent_transmit (bytes : List UInt8) :
    Indifferent (Readout.transmit bytes : Prog R FS SendResult) :=
  indifferent_of_ok fun _ level => ⟨_, _, level, rfl, rfl⟩

theorem indifferent_writeRecord (assign : Memory → ℕ → Memory) (length : ℕ) (r : Record) :
    Indifferent (Readout.writeRecord assign length r : Prog R FS Unit) :=
  indifferent_of_ok fun _ level => ⟨(), _, level, rfl, rfl⟩

theorem indifferent_randomPoisson (mean : R) :
    Indifferent (Readout.randomPoisson mean : Prog R FS Draw) :=
  indifferent_of_ok fun _ level => ⟨_, _, level, rfl, rfl⟩

theorem indifferent_noteCall (tof : R) :
    Indifferent (Readout.noteCall tof : Prog R FS Unit) :=
  indifferent_of_ok fun _ level => ⟨(), _, level, rfl, rfl⟩

theorem indifferent_update {f : Readout → Readout}
    (h : ∀ o level, ∃ level', f (o.withLevel level) = (f o).withLevel level') :
    Indifferent (Readout.update f : Prog R FS Unit) := by
  refine indifferent_of_ok fun w level => ?_
  obtain ⟨level', h⟩ := h w.obj level
  refine ⟨(), { w with obj := f w.obj }, level', rfl, ?_⟩
  show EStateM.Result.ok () { w with obj := f (w.obj.withLevel level) } = _
  rw [h]
  rfl

theorem indifferent_onFiles {α : Type} (x : EStateM Exn FS α) :
    Indifferent (R := R) (Readout.onFiles x) := by
  rintro w _ ⟨level, rfl⟩
  cases h : x w.fs with
  | ok a fs =>
    rw [onFiles_ok h, onFiles_ok (w := w.withLevel level) h]
    exact .ok rfl ⟨level, rfl⟩
  | error e fs =>
    rw [onFiles_error h, onFiles_error (w := w.withLevel level) h]
    exact .error ⟨level, rfl⟩

theorem indifferent_dumpTo [HighFive R FS] [Host] (filename datasetName : String) :
    Indifferent (Readout.dumpTo filename datasetName : Prog R FS Unit) := by
  rintro w _ ⟨level, rfl⟩
  have h : Indifferent (do
      let readout ← lift (readoutTypeFromDetectorType w.obj.type)
      let writer ← Readout.onFiles (Writer.make filename w.obj.type readout datasetName)
      Readout.update fun o => { o with writer := some writer } : Prog R FS Unit) := by
    refine relates_bind_eq (relates_lift _) fun readout => ?_
    refine relates_bind_eq (indifferent_onFiles _) fun writer => ?_
    exact indifferent_update fun _ level => ⟨level, rfl⟩
  exact h w _ ⟨level, rfl⟩

namespace Console

/-- The console shows a world, but for the verbosity, and has this TCP side. -/
def Shows (remote : Remote) (c : Console R FS) (w : World R FS) : Prop :=
  c.remote = remote ∧ SameBut c.world w

/-- The first program does what the second does, whatever the verbosity, and
    prints. -/
def Prints {α : Type} (x : Session R FS α) (y : Prog R FS α) : Prop :=
  ∀ remote, Relates (Shows remote) Eq x y

/-! ## Rules -/

section
variable {α β : Type}

theorem prints_pure (a : α) : Prints (pure a : Session R FS α) (pure a) :=
  fun _ => relates_pure rfl

theorem prints_throw (e : Exn) : Prints (throw e : Session R FS α) (throw e) :=
  fun _ => relates_throw e

theorem prints_lift (x : Except Exn α) : Prints (lift x : Session R FS α) (lift x) :=
  fun _ => relates_lift x

theorem prints_onWorld {x : Prog R FS α} (h : Indifferent x) : Prints (onWorld x) x := by
  rintro remote c w ⟨hr, hw⟩
  have h := h c.world w hw
  unfold onWorld
  generalize x c.world = u at h ⊢
  generalize x w = v at h ⊢
  cases h with
  | ok ha hw => exact .ok ha ⟨hr, hw⟩
  | error hw => exact .error ⟨hr, hw⟩

variable {x : Session R FS α} {y : Prog R FS α} {f : α → Session R FS β} {g : α → Prog R FS β}

theorem prints_bind (h : Prints x y) (hf : ∀ a, Prints (f a) (g a)) :
    Prints (x >>= f) (y >>= g) := by
  intro remote
  refine relates_bind_eq (h remote) ?_
  intro a
  exact hf a remote

theorem prints_ite {p : Prop} [Decidable p] {x' : Session R FS α} {y' : Prog R FS α}
    (h : Prints x y) (h' : Prints x' y') :
    Prints (if p then x else x') (if p then y else y') := by
  intro remote
  exact relates_ite Iff.rfl (h remote) (h' remote)

theorem prints_self {f : Readout → Session R FS α} {g : Readout → Prog R FS α}
    (h : ∀ o level, Prints (f o) (g (o.withLevel level))) :
    Prints (self >>= f) (Readout.self >>= g) := by
  rintro remote c _ ⟨hr, level, rfl⟩
  exact h c.world.obj level remote c _ ⟨hr, level, rfl⟩

/-- A look at the object, to print from it. -/
theorem prints_look {f : Readout → Session R FS α} (h : ∀ o, Prints (f o) y) :
    Prints (self >>= f) y := by
  intro remote c w hc
  exact h c.world.obj remote c w hc

variable {f : Unit → Session R FS α}

theorem prints_print {verbosity level : Int} {text : String} (h : Prints (f ()) y) :
    Prints (print verbosity level text >>= f) y := by
  intro remote
  refine relates_left ?_ fun _ => h remote
  rintro c w ⟨hr, hw⟩
  refine ⟨(), _, rfl, ?_⟩
  split_ifs
  · exact ⟨hr, hw⟩
  · exact ⟨hr, hw⟩

theorem prints_printIf {p : Prop} [Decidable p] {verbosity level : Int} {text : String}
    (h : Prints (f ()) y) :
    Prints (if p then print verbosity level text >>= f else f ()) y := by
  split_ifs
  · exact prints_print h
  · exact h

end

/-! ## The methods with their printing -/

theorem prints_newPacket :
    Prints (onWorld Readout.newPacket : Session R FS Unit) Readout.newPacket :=
  prints_onWorld indifferent_newPacket

/-- Updates of the other members. -/
theorem prints_update {f : Readout → Readout}
    (h : ∀ o level, f (o.withLevel level) = (f o).withLevel level) :
    Prints (onWorld (Readout.update f) : Session R FS Unit) (Readout.update f) :=
  prints_onWorld (indifferent_update fun o level => ⟨level, h o level⟩)

theorem prints_send : Prints (send : Session R FS Int) Readout.send := by
  refine prints_self ?_
  intro o level
  refine prints_ite (prints_print (prints_pure 0)) ?_
  refine prints_bind (prints_onWorld (indifferent_transmit _)) ?_
  intro result
  refine prints_printIf ?_
  exact prints_bind prints_newPacket fun _ => prints_pure _

theorem prints_checkSizeAndSend :
    Prints (checkSizeAndSend : Session R FS Unit) Readout.checkSizeAndSend := by
  refine prints_self ?_
  intro o level
  refine prints_ite ?_ (prints_pure ())
  exact prints_bind prints_send fun _ => prints_newPacket

section
variable (ring fen : UInt8) (t : EfuTime)

/-- The part the typed overloads share. -/
theorem prints_record (assign : Memory → ℕ → Memory) (length : ℕ) (r : Record) :
    Prints
      (checkSizeAndSend >>= fun _ => onWorld (Readout.writeRecord assign length r) :
        Session R FS Unit)
      (Readout.checkSizeAndSend >>= fun _ => Readout.writeRecord assign length r) :=
  prints_bind prints_checkSizeAndSend fun _ => prints_onWorld (indifferent_writeRecord _ _ _)

theorem prints_addReadoutCAEN (data : CAENReadout) :
    Prints (addReadoutCAEN ring fen t data : Session R FS Unit)
      (Readout.addReadoutCAEN ring fen t data) := by
  refine prints_bind prints_checkSizeAndSend ?_
  intro _
  refine prints_look fun o => prints_print ?_
  exact prints_onWorld (indifferent_writeRecord _ _ _)

theorem prints_addReadoutTTLMonitor (data : TTLMonitorReadout) :
    Prints (addReadoutTTLMonitor ring fen t data : Session R FS Unit)
      (Readout.addReadoutTTLMonitor ring fen t data) := by
  refine prints_look fun o => prints_print ?_
  exact prints_record _ _ _

variable (data : VoidPtr)

theorem prints_addReadoutAt :
    Prints (addReadoutAt ring fen t data : Session R FS Unit)
      (Readout.addReadoutAt ring fen t data) := by
  refine prints_self ?_
  intro o level
  rw [show (o.withLevel level).type = o.type from rfl]
  rcases readoutTypeFromDetectorType o.type with e | readout
  · exact prints_throw e
  cases readout with
  | CAEN => exact prints_addReadoutCAEN ring fen t _
  | TTLMonitor => exact prints_addReadoutTTLMonitor ring fen t _
  | DREAM => exact prints_record _ _ _
  | VMM3 => exact prints_record _ _ _
  | MAGIC => exact prints_throw _

theorem prints_addCopies (weight : R) (n i : ℕ) :
    Prints (addCopies ring fen t weight data n i : Session R FS Unit)
      (Readout.addCopies ring fen t weight data n i) := by
  induction n generalizing i with
  | zero => exact prints_pure ()
  | succ n ih =>
    refine prints_bind (prints_onWorld (indifferent_randomPoisson weight)) ?_
    intro bound
    refine prints_ite ?_ (prints_pure ())
    exact prints_bind (prints_addReadoutAt ring fen t data) fun _ => ih (i + 1)

variable [CDouble R]

theorem prints_addWeighted (weight : R) :
    Prints (addWeighted ring fen t weight data : Session R FS Unit)
      (Readout.addWeighted ring fen t weight data) :=
  prints_ite (prints_addCopies ring fen t data weight _ _) (prints_addReadoutAt ring fen t data)

variable [HighFive R FS]

omit t in
theorem prints_addReadout (tof weight : R) :
    Prints (addReadout ring fen tof weight data : Session R FS Unit)
      (Readout.addReadout ring fen tof weight data) := by
  refine prints_self ?_
  intro o level
  refine prints_bind (prints_onWorld (indifferent_onFiles _)) ?_
  intro _
  refine prints_ite (prints_print (prints_pure ())) ?_
  refine prints_bind (prints_update fun _ _ => rfl) ?_
  intro _
  refine prints_bind (prints_onWorld (indifferent_noteCall tof)) ?_
  intro _
  exact prints_addWeighted ring fen _ data weight

end

theorem prints_updateTime (clock : UInt64) :
    Prints (updateTime clock : Session R FS Unit) (Readout.updateTime clock) := by
  refine prints_self ?_
  intro o level
  refine prints_bind (prints_lift _) ?_
  intro now
  refine prints_bind (prints_lift _) ?_
  intro elapsed
  -- what follows the choice of the pulse before
  have hsend : Prints
      (do
        let _ ← send
        let o ← self
        onWorld (Readout.setPulseTime now.high now.low o.time.high o.time.low)
        onWorld Readout.newPacket
        onWorld (Readout.update fun o => { o with time := now }) : Session R FS Unit)
      (do
        let _ ← Readout.send
        let o ← Readout.self
        Readout.setPulseTime now.high now.low o.time.high o.time.low
        Readout.newPacket
        Readout.update fun o => { o with time := now }) := by
    refine prints_bind prints_send ?_
    intro _
    refine prints_self ?_
    intro o level
    refine prints_bind (prints_update fun _ _ => rfl) ?_
    intro _
    exact prints_bind prints_newPacket fun _ => prints_update fun _ _ => rfl
  refine prints_ite ?_ hsend
  refine prints_bind (prints_lift _) ?_
  intro prev
  exact prints_bind (prints_update fun _ _ => rfl) fun _ => hsend

section
variable [StdString] [HighFive R FS] [CDouble R] [Host]

omit [StdString] in
/-- **Every call does what it does without its printing.** -/
theorem prints_step (call : Call R) :
    Prints (step call : Session R FS Unit) (ReadoutMaster.step call) := by
  cases call with
  | add clock ring fen tof weight data =>
    exact prints_bind (prints_updateTime clock) fun _ => prints_addReadout ring fen data tof weight
  | setPulseTime clock => exact prints_updateTime clock
  | send => exact prints_bind prints_send fun _ => prints_pure ()
  | newPacket => exact prints_newPacket
  | enableNetwork => exact prints_update (f := fun o => { o with network := true }) fun _ _ => rfl
  | disableNetwork =>
    exact prints_update (f := fun o => { o with network := false }) fun _ _ => rfl
  | verbose v =>
    exact prints_onWorld (indifferent_update (f := fun o => o.withLevel v) fun _ _ => ⟨v, rfl⟩)
  | dumpTo filename =>
    refine prints_onWorld ?_
    unfold readoutDumpTo
    split_ifs
    · exact relates_pure rfl
    · exact indifferent_dumpTo filename "events"
  | destroy => exact prints_bind prints_send fun _ => prints_pure ()

theorem perform_call {remote : Remote} {c : Console R FS} {w : World R FS}
    (h : Shows remote c w) (limit : ℕ) (call : Call R) :
    (perform limit (.call call) c).1 ≠ .running ∧
      Shows remote (perform limit (.call call) c).2 (final (ReadoutMaster.step call) w) := by
  have h := prints_step call remote c w h
  simp only [perform, final]
  generalize step call c = u at h ⊢
  generalize ReadoutMaster.step call w = v at h ⊢
  cases h with
  | ok _ hs => exact ⟨by simp, hs⟩
  | error hs => exact ⟨by simp, hs⟩

/-- **Every run of calls goes through the worlds it goes through without
    printing.** -/
theorem shows_session {remote : Remote} {c : Console R FS} {w : World R FS}
    (h : Shows remote c w) (limit : ℕ) (calls : List (Call R)) :
    Shows remote (session limit c (calls.map .call)).2 (runCalls w calls) := by
  induction calls generalizing c w with
  | nil => exact h
  | cons call calls ih =>
    obtain ⟨hr, hs⟩ := perform_call h limit call
    rw [List.map_cons, session, if_neg hr]
    exact ih hs

end

end Console

end ReadoutMaster
