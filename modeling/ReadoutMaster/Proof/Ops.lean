/-
  What each method of `Readout` does to the world, as an equation.

  The methods are composed of two steps, `World.fresh` (a new packet) and
  `World.sentOut` (a datagram handed to the socket); later proofs use these
  equations and do not unfold the methods.
-/
import ReadoutMaster.Interface

namespace ReadoutMaster

open Readout Packed Machine

variable {R FS : Type}

namespace World

/-- The world with a new packet. -/
def fresh (w : World R FS) : World R FS :=
  { w with
    obj := { w.obj with
      buffer := w.obj.headerBuffer
      seqNum := w.obj.seqNum + 1
      dataSize := 30 }
    trace := { w.trace with pending := [] } }

/-- The bytes of the packet under construction. -/
def bytes (w : World R FS) : List UInt8 := w.obj.buffer.load 0 w.obj.dataSize

/-- The world with the packet under construction handed to the socket. -/
def sentOut (w : World R FS) : World R FS :=
  { w with
    socket := fun n => w.socket (n + 1)
    trace := { w.trace with sent := w.trace.sent ++ [⟨w.bytes, w.trace.pending⟩] } }

/-- The world after `send`. -/
def flushed (w : World R FS) : World R FS :=
  if w.obj.network = false then w else w.sentOut.fresh

/-- The world after `check_size_and_send`. -/
def room (w : World R FS) : World R FS :=
  if w.obj.dataSize ≥ MaxDataSize then w.flushed.fresh else w

/-- The world with a record written. -/
def written (w : World R FS) (assign : Memory → ℕ → Memory) (length : ℕ) (r : Record) :
    World R FS :=
  { w with
    obj := { w.obj with
      buffer := (assign w.obj.buffer w.obj.dataSize).set 0 PacketHeaderV0.At.totalLength
        (UInt16.ofNat (w.obj.dataSize + length))
      dataSize := w.obj.dataSize + length }
    trace := { w.trace with pending := w.trace.pending ++ [⟨w.trace.tof, r⟩] } }

/-- The world with a record added after room was made for it. -/
def recorded (assign : Memory → ℕ → Memory) (r : Record) (w : World R FS) : World R FS :=
  w.room.written assign r.size r

/-- The world `n` draws of the random engine later. -/
def drawn (n : ℕ) (w : World R FS) : World R FS :=
  { w with obj := { w.obj with randomEngine := fun i => w.obj.randomEngine (i + n) } }

/-- The world with an `addReadout` call for time of flight `tof` under way, its
    event saved. -/
def noted [CDouble R] (w : World R FS) (fs : FS) (tof : R) : World R FS :=
  let t := CDouble.toEfu tof + w.obj.time
  { w with
    fs
    obj := { w.obj with lasthi := t.high, lastlo := t.low }
    trace := { w.trace with tof := some tof } }

/-- The world with the reference time `t`. -/
def timed (w : World R FS) (t : EfuTime) : World R FS :=
  { w with obj := { w.obj with time := t } }

/-- The world with the pulse times of the object set. -/
def pulsed (w : World R FS) (now prev : EfuTime) : World R FS :=
  { w with obj := { w.obj with
    phi := now.high, plo := now.low, pphi := prev.high, pplo := prev.low } }

/-- The world with its pulse at `now` and the pulse before at `prev`. -/
def advanced (w : World R FS) (now prev : EfuTime) : World R FS :=
  ((w.timed prev).flushed.pulsed now prev).fresh.timed now

end World

/-- The members that building and sending packets leaves alone. -/
def Readout.settings (o : Readout) : Readout :=
  { o with buffer := fun _ => 0, seqNum := 0, dataSize := 0, randomEngine := fun _ => 0 }

section
variable {o o' : Readout} (h : o.settings = o'.settings)
include h

theorem type_of_settings : o.type = o'.type := by injection h

theorem time_of_settings : o.time = o'.time := by injection h

theorem period_of_settings : o.period = o'.period := by injection h

theorem pulses_of_settings :
    o.lastPulseTime = o'.lastPulseTime ∧ o.prevPulseTime = o'.prevPulseTime := by
  injection h with h1 h2 h3 h4
  simp only [lastPulseTime, prevPulseTime, h1, h2, h3, h4, and_self]

theorem network_of_settings : o.network = o'.network := by injection h

theorem writer_of_settings : o.writer = o'.writer := by injection h

end

namespace World

theorem settings_flushed (w : World R FS) : w.flushed.obj.settings = w.obj.settings := by
  rw [flushed]; split_ifs <;> rfl

theorem flushed_time (w : World R FS) : w.flushed.obj.time = w.obj.time :=
  time_of_settings (settings_flushed w)

theorem settings_room (w : World R FS) : w.room.obj.settings = w.obj.settings := by
  rw [room]
  split_ifs
  · exact settings_flushed w
  · rfl

theorem settings_recorded (assign : Memory → ℕ → Memory) (r : Record) (w : World R FS) :
    (w.recorded assign r).obj.settings = w.obj.settings := settings_room w

theorem tof_recorded (assign : Memory → ℕ → Memory) (r : Record) (w : World R FS) :
    (w.recorded assign r).trace.tof = w.trace.tof := by
  show w.room.trace.tof = _
  simp only [room, flushed]
  split_ifs <;> rfl

theorem fs_recorded (assign : Memory → ℕ → Memory) (r : Record) (w : World R FS) :
    (w.recorded assign r).fs = w.fs := by
  show w.room.fs = _
  simp only [room, flushed]
  split_ifs <;> rfl

theorem flushed_of_disabled {w : World R FS} (h : w.obj.network = false) : w.flushed = w := if_pos h

theorem flushed_of_enabled {w : World R FS} (h : w.obj.network = true) :
    w.flushed = w.sentOut.fresh := if_neg (by simp [h])

theorem room_of_full {w : World R FS} (h : w.obj.dataSize ≥ MaxDataSize) :
    w.room = w.flushed.fresh := if_pos h

theorem room_of_space {w : World R FS} (h : w.obj.dataSize < MaxDataSize) : w.room = w :=
  if_neg (Nat.not_le.2 h)

theorem flushed_drawn (n : ℕ) (w : World R FS) : (w.drawn n).flushed = w.flushed.drawn n := by
  cases h : w.obj.network with
  | false => rw [flushed_of_disabled h, flushed_of_disabled (w := w.drawn n) h]
  | true => rw [flushed_of_enabled h, flushed_of_enabled (w := w.drawn n) h]; rfl

theorem randomEngine_flushed (w : World R FS) :
    w.flushed.obj.randomEngine = w.obj.randomEngine := by
  rw [flushed]; split_ifs <;> rfl

theorem randomEngine_recorded (assign : Memory → ℕ → Memory) (r : Record) (w : World R FS) :
    (w.recorded assign r).obj.randomEngine = w.obj.randomEngine := by
  show w.room.obj.randomEngine = _
  rw [room]
  split_ifs
  · exact randomEngine_flushed w
  · rfl

theorem drawn_drawn (m n : ℕ) (w : World R FS) : (w.drawn m).drawn n = w.drawn (n + m) := by
  simp only [drawn, Nat.add_assoc]

theorem recorded_drawn (assign : Memory → ℕ → Memory) (r : Record) (n : ℕ) (w : World R FS) :
    (w.drawn n).recorded assign r = (w.recorded assign r).drawn n := by
  have h : (w.drawn n).room = w.room.drawn n := by
    rcases Nat.lt_or_ge w.obj.dataSize MaxDataSize with hs | hs
    · rw [room_of_space hs, room_of_space (w := w.drawn n) hs]
    · rw [room_of_full hs, room_of_full (w := w.drawn n) hs, flushed_drawn]; rfl
  rw [recorded, h]; rfl

theorem settings_copies (assign : Memory → ℕ → Memory) (r : Record) (k : ℕ) (w : World R FS) :
    ((recorded assign r)^[k] w).obj.settings = w.obj.settings := by
  induction k with
  | zero => rfl
  | succ k ih =>
    rw [Function.iterate_succ_apply']
    exact (settings_recorded assign r _).trans ih

theorem randomEngine_copies (assign : Memory → ℕ → Memory) (r : Record) (k : ℕ) (w : World R FS) :
    ((recorded assign r)^[k] w).obj.randomEngine = w.obj.randomEngine := by
  induction k with
  | zero => rfl
  | succ k ih =>
    rw [Function.iterate_succ_apply']
    exact (randomEngine_recorded assign r _).trans ih

end World

open World

theorem self_bind {α : Type} (f : Readout → Prog R FS α) (w : World R FS) :
    (self >>= f) w = f w.obj w := rfl

theorem update_bind {α : Type} (g : Readout → Readout) (f : Unit → Prog R FS α) (w : World R FS) :
    (update g >>= f) w = f () { w with obj := g w.obj } := rfl

theorem randomPoisson_bind {α : Type} (mean : R) (f : Draw → Prog R FS α) (w : World R FS) :
    (randomPoisson mean >>= f) w = f (w.obj.randomEngine 0) (w.drawn 1) := rfl

theorem send_eq (w : World R FS) : ∃ code, send w = .ok code w.flushed := by
  rw [send, self_bind, flushed]
  split_ifs
  · exact ⟨0, rfl⟩
  · exact ⟨(w.socket 0).errorCode, rfl⟩

theorem checkSizeAndSend_eq (w : World R FS) : checkSizeAndSend w = .ok () w.room := by
  obtain ⟨code, hs⟩ := send_eq w
  rw [checkSizeAndSend, self_bind, room]
  split_ifs
  · rw [bind_of_ok hs]; rfl
  · rfl

/-- What the overload for a readout type writes: its assignments and the
    record they make. -/
def writes (t : ReadoutType) (ring fen : UInt8) (time : EfuTime) (data : VoidPtr) :
    Option ((Memory → ℕ → Memory) × Record) :=
  match t with
  | .CAEN => some (assignCaen ring fen time data.toCAEN, caenOf ring fen time data.toCAEN)
  | .TTLMonitor => some (assignTTLMonitor ring fen time data.toTTLMonitor,
      ttlMonitorOf ring fen time data.toTTLMonitor)
  | .DREAM => some (assignDream ring fen time data.toDREAM, dreamOf ring fen time data.toDREAM)
  | .VMM3 => some (assignVMM3 ring fen time data.toVMM3, vmm3Of ring fen time data.toVMM3)
  | .MAGIC => none

theorem writes_isSome {t : ReadoutType} (ht : t ≠ .MAGIC) (ring fen : UInt8) (time : EfuTime)
    (data : VoidPtr) : ∃ assign r, writes t ring fen time data = some (assign, r) := by
  cases t with
  | MAGIC => exact absurd rfl ht
  | _ => exact ⟨_, _, rfl⟩

/-- The record the dispatching overload writes for a detector, if its readout
    type is implemented. -/
def recordOf (d : DetectorType) (ring fen : UInt8) (time : EfuTime) (data : VoidPtr) :
    Option Record :=
  match readoutTypeFromDetectorType d with
  | .ok t => (writes t ring fen time data).map Prod.snd
  | .error _ => none

theorem recordOf_eq_some {d : DetectorType} {ring fen : UInt8} {time : EfuTime} {data : VoidPtr}
    {r : Record} : recordOf d ring fen time data = some r ↔
      ∃ t assign, readoutTypeFromDetectorType d = .ok t ∧
        writes t ring fen time data = some (assign, r) := by
  unfold recordOf
  cases readoutTypeFromDetectorType d with
  | error e => simp
  | ok t => simp

theorem recordOf_eq_none {d : DetectorType} {ring fen : UInt8} {time : EfuTime} {data : VoidPtr}
    (h : recordOf d ring fen time data = none) :
    ∀ t, readoutTypeFromDetectorType d = .ok t → t = .MAGIC := by
  intro t ht
  simp only [recordOf, ht, Option.map_eq_none_iff] at h
  cases t with
  | MAGIC => rfl
  | _ => cases h

/-- A single readout is written after room was made for it. -/
theorem addReadoutAt_eq {w : World R FS} {t : ReadoutType} {ring fen : UInt8} {time : EfuTime}
    {data : VoidPtr} {assign : Memory → ℕ → Memory} {r : Record}
    (ht : readoutTypeFromDetectorType w.obj.type = .ok t)
    (hw : writes t ring fen time data = some (assign, r)) :
    addReadoutAt ring fen time data w = .ok () (w.recorded assign r) := by
  rw [addReadoutAt, self_bind, ht]
  cases t with
  | MAGIC => cases hw
  | _ =>
    obtain ⟨rfl, rfl⟩ := Prod.mk.inj (Option.some.inj hw)
    exact bind_of_ok (checkSizeAndSend_eq w)

/-- Without an implemented readout type a single readout throws, and nothing
    happens. -/
theorem addReadoutAt_error {w : World R FS} {ring fen : UInt8} {time : EfuTime} {data : VoidPtr}
    (h : ∀ t, readoutTypeFromDetectorType w.obj.type = .ok t → t = .MAGIC) :
    ∃ e, addReadoutAt ring fen time data w = .error e w := by
  rw [addReadoutAt, self_bind]
  cases ht : readoutTypeFromDetectorType w.obj.type with
  | error e => exact ⟨e, rfl⟩
  | ok t =>
    obtain rfl := h t ht
    exact ⟨_, rfl⟩

/-- `addCopies` adds the readout as often as the draws exceed the count of the
    copies before. -/
theorem addCopies_eq {t : ReadoutType} {ring fen : UInt8} {time : EfuTime} {weight : R}
    {data : VoidPtr} {assign : Memory → ℕ → Memory} {r : Record}
    (hw : writes t ring fen time data = some (assign, r)) {k n i : ℕ} {w : World R FS}
    (ht : readoutTypeFromDetectorType w.obj.type = .ok t) (hn : k < n)
    (hlt : ∀ j < k, i + j < (w.obj.randomEngine j).val)
    (hk : (w.obj.randomEngine k).val ≤ i + k) :
    addCopies ring fen time weight data n i w =
      .ok () ((World.recorded assign r)^[k] (w.drawn (k + 1))) := by
  induction k generalizing n i w with
  | zero =>
    obtain ⟨n, rfl⟩ := Nat.exists_eq_succ_of_ne_zero (Nat.pos_iff_ne_zero.1 hn)
    rw [addCopies, randomPoisson_bind, if_neg (by simpa using hk)]
    rfl
  | succ k ih =>
    obtain ⟨n, rfl⟩ := Nat.exists_eq_succ_of_ne_zero (Nat.pos_iff_ne_zero.1 (Nat.zero_lt_of_lt hn))
    have hs := type_of_settings (settings_recorded assign r (w.drawn 1))
    have he := randomEngine_recorded assign r (w.drawn 1)
    have h0 : i < (w.obj.randomEngine 0).val := hlt 0 (Nat.succ_pos k)
    rw [addCopies, randomPoisson_bind, if_pos h0,
      bind_of_ok (addReadoutAt_eq (w := w.drawn 1) ht hw), ih]
    · rw [Function.iterate_succ_apply, ← recorded_drawn, drawn_drawn]
    · rw [hs]; exact ht
    · omega
    · intro j hj
      have := hlt (j + 1) (by omega)
      rw [he]
      show i + 1 + j < (w.obj.randomEngine (j + 1)).val
      omega
    · rw [he]
      show (w.obj.randomEngine (k + 1)).val ≤ _
      omega

theorem exists_copies (draws : ℕ → Draw) : ∃ k, (draws k).val ≤ k :=
  ⟨2147483647, by have := (draws 2147483647).isLt; omega⟩

/-- How often a weighted readout is added: the first count of copies that the
    draw made for it does not exceed. -/
def copies (draws : ℕ → Draw) : ℕ := Nat.find (exists_copies draws)

theorem copies_lt (draws : ℕ → Draw) : copies draws < 2147483648 := by
  have h1 := (draws 2147483647).isLt
  have h2 : copies draws ≤ 2147483647 := Nat.find_min' _ (by omega)
  omega

theorem onFiles_ok {α : Type} {x : EStateM Exn FS α} {w : World R FS} {a : α} {fs : FS}
    (h : x w.fs = .ok a fs) : onFiles x w = .ok a { w with fs } := by
  simp only [onFiles, h]

theorem onFiles_error {α : Type} {x : EStateM Exn FS α} {w : World R FS} {e : Exn} {fs : FS}
    (h : x w.fs = .error e fs) : onFiles x w = .error e { w with fs } := by
  simp only [onFiles, h]

section
variable [CDouble R] {ring fen : UInt8} {data : VoidPtr} {w : World R FS} {fs : FS}

/-- How often a readout of a weight is added. -/
def copiesOf (draws : ℕ → Draw) (weight : R) : ℕ :=
  if CDouble.truthy weight then copies draws else 1

/-- How many draws that takes. -/
def drawsOf (draws : ℕ → Draw) (weight : R) : ℕ :=
  if CDouble.truthy weight then copies draws + 1 else 0

theorem addWeighted_eq (weight : R) {t : ReadoutType} {assign : Memory → ℕ → Memory} {r : Record}
    {time : EfuTime} (ht : readoutTypeFromDetectorType w.obj.type = .ok t)
    (hw : writes t ring fen time data = some (assign, r)) :
    addWeighted ring fen time weight data w = .ok ()
      ((World.recorded assign r)^[copiesOf w.obj.randomEngine weight]
        (w.drawn (drawsOf w.obj.randomEngine weight))) := by
  rw [addWeighted, copiesOf, drawsOf]
  split_ifs
  · have h := Nat.find_spec (exists_copies w.obj.randomEngine)
    refine addCopies_eq hw ht (copies_lt _) (fun j hj => ?_) ?_
    · rw [Nat.zero_add]
      exact Nat.not_le.1 (Nat.find_min (exists_copies w.obj.randomEngine) hj)
    · rw [Nat.zero_add]; exact h
  · exact addReadoutAt_eq ht hw

variable [HighFive R FS]

theorem addReadout_error {e : Exn} (h : saved w.obj ring fen tof weight data w.fs = .error e fs) :
    addReadout ring fen tof weight data w = .error e { w with fs } := by
  rw [addReadout, self_bind, bind_of_error (onFiles_error h)]

theorem addReadout_disabled (hn : w.obj.network = false)
    (h : saved w.obj ring fen tof weight data w.fs = .ok () fs) :
    addReadout ring fen tof weight data w = .ok () { w with fs } := by
  rw [addReadout, self_bind, bind_of_ok (onFiles_ok h), if_pos hn]
  rfl

theorem addReadout_enabled (hn : w.obj.network = true)
    (h : saved w.obj ring fen tof weight data w.fs = .ok () fs) :
    addReadout ring fen tof weight data w =
      addWeighted ring fen (CDouble.toEfu tof + w.obj.time) weight data (w.noted fs tof) := by
  rw [addReadout, self_bind, bind_of_ok (onFiles_ok h), if_neg (by simp [hn])]
  rfl

end

/-- `time` as `update_time` leaves it before the packet is sent: the pulse
    before `now`. -/
def previousPulse (now time period : EfuTime) : Except Exn EfuTime := do
  let elapsed ← now.sub time
  if elapsed.gt (period * (5 : UInt32)) then now.sub period else return time

theorem updateTime_error {w : World R FS} {clock : UInt64} {e : Exn}
    (h : latestPulse (EfuTime.now clock) w.obj.time w.obj.period = .error e) :
    updateTime clock w = .error e w := by
  rw [updateTime, self_bind, h, lift_error_bind]

theorem updateTime_error' {w : World R FS} {clock : UInt64} {now : EfuTime} {e : Exn}
    (h : latestPulse (EfuTime.now clock) w.obj.time w.obj.period = .ok now)
    (hp : previousPulse now w.obj.time w.obj.period = .error e) :
    updateTime clock w = .error e w := by
  rw [updateTime, self_bind, h, lift_ok_bind]
  cases he : now.sub w.obj.time with
  | error e' =>
    rw [previousPulse, he] at hp
    obtain rfl : e' = e := Except.error.inj hp
    rfl
  | ok elapsed =>
    rw [previousPulse, he] at hp
    change (if _ then _ else _) = _ at hp
    split_ifs at hp with hg
    · rw [lift_ok_bind]
      simp only [hg, if_true, hp]
      rfl
    · cases hp

theorem updateTime_ok {w : World R FS} {clock : UInt64} {now prev : EfuTime}
    (h : latestPulse (EfuTime.now clock) w.obj.time w.obj.period = .ok now)
    (hp : previousPulse now w.obj.time w.obj.period = .ok prev) :
    updateTime clock w = .ok () (w.advanced now prev) := by
  rw [updateTime, self_bind, h, lift_ok_bind]
  cases he : now.sub w.obj.time with
  | error e => rw [previousPulse, he] at hp; cases hp
  | ok elapsed =>
    rw [previousPulse, he] at hp
    rw [lift_ok_bind]
    obtain ⟨code, hs⟩ := send_eq { w with obj := { w.obj with time := prev } }
    change (if _ then _ else _) = _ at hp
    split_ifs at hp with hg
    · simp only [hg, if_true, hp, lift_ok_bind, update_bind]
      rw [bind_of_ok hs, self_bind, flushed_time]
      rfl
    · obtain rfl : w.obj.time = prev := Except.ok.inj hp
      simp only [hg]
      show (send >>= _) w = _
      rw [bind_of_ok hs, self_bind, flushed_time]
      rfl

/-- `update_time` throws and leaves the world as it was, or moves the pulse. -/
theorem updateTime_cases (w : World R FS) (clock : UInt64) :
    (∃ e, updateTime clock w = .error e w) ∨
      ∃ now prev, latestPulse (EfuTime.now clock) w.obj.time w.obj.period = .ok now ∧
        previousPulse now w.obj.time w.obj.period = .ok prev ∧
        updateTime clock w = .ok () (w.advanced now prev) := by
  cases h : latestPulse (EfuTime.now clock) w.obj.time w.obj.period with
  | error e => exact Or.inl ⟨e, updateTime_error h⟩
  | ok now =>
    cases hp : previousPulse now w.obj.time w.obj.period with
    | error e => exact Or.inl ⟨e, updateTime_error' h hp⟩
    | ok prev => exact Or.inr ⟨now, prev, rfl, hp, updateTime_ok h hp⟩

/-! ## Calls -/

section
variable [HighFive R FS] [CDouble R] [Host] {w : World R FS} {clock : UInt64}

theorem step_send (w : World R FS) : step (.send : Call R) w = .ok () w.flushed := by
  obtain ⟨code, hs⟩ := send_eq w
  exact bind_of_ok hs

theorem step_destroy (w : World R FS) : step (.destroy : Call R) w = .ok () w.flushed :=
  step_send w

/-- A `readout_add` throws if its `update_time` does. -/
theorem step_add_error {e : Exn} (h : updateTime clock w = .error e w) (ring fen : UInt8)
    (tof weight : R) (data : VoidPtr) :
    step (.add clock ring fen tof weight data) w = .error e w := bind_of_error h

/-- Otherwise it adds the readout after it. -/
theorem step_add {v : World R FS} (h : updateTime clock w = .ok () v) (ring fen : UInt8)
    (tof weight : R) (data : VoidPtr) :
    step (.add clock ring fen tof weight data) w = addReadout ring fen tof weight data v :=
  bind_of_ok h

theorem final_add {v : World R FS} (h : updateTime clock w = .ok () v) (ring fen : UInt8)
    (tof weight : R) (data : VoidPtr) :
    final (step (.add clock ring fen tof weight data)) w =
      final (addReadout ring fen tof weight data) v := by
  simp only [final, step_add h]

end

/-! ## Construction -/

/-- What the constructor makes: an object with its first packet. -/
def World.created (d : DetectorType) (period time prev : EfuTime) (fs : FS)
    (socket : ℕ → SendResult) (draws : ℕ → Draw) : World R FS :=
  (World.pulsed ⟨{ type := d, period, time, randomEngine := draws }, fs, socket, {}⟩
    time prev).fresh

section
variable {type : Int} {d : DetectorType} {period time prev : EfuTime} {fs : FS}
  {socket : ℕ → SendResult} {draws : ℕ → Draw}

theorem make_eq (hd : detectorTypeFromInt type = .ok d) (hp : time.sub period = .ok prev) :
    Readout.make (R := R) type period time fs socket draws =
      .ok (World.created d period time prev fs socket draws) := by
  simp only [Readout.make, hd, hp]
  rfl

/-- The constructor needs a known type and a period no longer than the time. -/
theorem make_ok {w : World R FS} (h : Readout.make type period time fs socket draws = .ok w) :
    ∃ d prev, detectorTypeFromInt type = .ok d ∧ time.sub period = .ok prev ∧
      w = World.created d period time prev fs socket draws := by
  cases hd : detectorTypeFromInt type with
  | error e => rw [Readout.make, hd] at h; cases h
  | ok d =>
    cases hp : time.sub period with
    | error e => rw [Readout.make, hd, hp] at h; cases h
    | ok prev =>
      rw [make_eq hd hp] at h
      exact ⟨d, prev, rfl, rfl, (Except.ok.inj h).symm⟩

end

end ReadoutMaster
