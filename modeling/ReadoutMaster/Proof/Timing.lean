/-
  Every readout is timed relative to the pulse of its own packet.

  An entry is `Timed p` if its record carries the time of flight it was added
  with on top of the pulse `p`.  `Referenced` says that the pending entries are
  timed by the pulse of the object, and those of a datagram by the pulse in its
  header; the pulse only moves once the pending entries are sent.

  * `referenced_runCalls`: the invariant after every run;
  * `sent_timed`, `lastEventTime_sub_lastPulseTime`: the same in ticks, for the
    datagrams, and for the object after an `addReadout`.
-/
import ReadoutMaster.Proof.Clock

namespace ReadoutMaster

open Readout Machine

variable {R FS : Type} [CDouble R]

/-- The record carries the time of flight of its call on top of the pulse. -/
def Entry.Timed (p : EfuTime) (e : Entry R) : Prop :=
  ∃ tof, e.tof = some tof ∧ e.record.head.time = CDouble.toEfu tof + p

/-- The datagram carries a packet with a normal pulse that times its
    entries. -/
def Sent.Timed (d : DetectorType) (s : Sent R) : Prop :=
  ∃ p, s.Encodes d p ∧ p.header.pulse.Normal ∧ ∀ e ∈ s.entries, e.Timed p.header.pulse

/-- The invariant of the reference times, for an object with period `P`. -/
structure Referenced (P : EfuTime) (w : World R FS) : Prop where
  wire : Wire w
  clocked : Clocked P w
  pending : ∀ e ∈ w.trace.pending, e.Timed w.obj.lastPulseTime
  sent : ∀ s ∈ w.trace.sent, s.Timed w.obj.type

section
variable {P : EfuTime} {w : World R FS}

/-- Sending keeps the datagrams timed, and leaves the pending entries timed by
    the pulse of the object. -/
theorem timed_flushed (hw : Wire w) (hn : w.obj.lastPulseTime.Normal)
    (hp : ∀ e ∈ w.trace.pending, e.Timed w.obj.lastPulseTime)
    (hs : ∀ s ∈ w.trace.sent, s.Timed w.obj.type) :
    (∀ e ∈ w.flushed.trace.pending, e.Timed w.obj.lastPulseTime) ∧
      ∀ s ∈ w.flushed.trace.sent, s.Timed w.obj.type := by
  cases hnet : w.obj.network with
  | false => rw [World.flushed_of_disabled hnet]; exact ⟨hp, hs⟩
  | true =>
    rw [World.flushed_of_enabled hnet]
    refine ⟨fun e he => (by cases he), ?_⟩
    intro s h
    rcases List.mem_append.1 h with h | h
    · exact hs s h
    · obtain rfl := List.mem_singleton.1 h
      exact ⟨w.packet, hw.encodes, hn, hp⟩

theorem Referenced.normal (h : Referenced P w) : w.obj.lastPulseTime.Normal := by
  rw [h.clocked.pulse]; exact h.clocked.normal

theorem referenced_fresh (h : Referenced P w) : Referenced P w.fresh where
  wire := wire_fresh h.wire.sent
  clocked := ⟨h.clocked.period, h.clocked.normal, h.clocked.le_time, h.clocked.pulse⟩
  pending e he := by cases he
  sent := h.sent

theorem referenced_flushed (h : Referenced P w) : Referenced P w.flushed := by
  have hs := World.settings_flushed w
  obtain ⟨h1, h2⟩ := timed_flushed h.wire h.normal h.pending h.sent
  refine ⟨wire_flushed h.wire, h.clocked.of_settings hs, ?_, ?_⟩
  · rw [(pulses_of_settings hs).1]; exact h1
  · rw [type_of_settings hs]; exact h2

theorem referenced_room (h : Referenced P w) : Referenced P w.room := by
  rcases Nat.lt_or_ge w.obj.dataSize MaxDataSize with hs | hs
  · rwa [World.room_of_space hs]
  · rw [World.room_of_full hs]; exact referenced_fresh (referenced_flushed h)

theorem referenced_recorded {t : ReadoutType} {ring fen : UInt8} {tof : R} {data : VoidPtr}
    {assign : Packed.Memory → ℕ → Packed.Memory} {r : Record} (h : Referenced P w)
    (hf : w.trace.tof = some tof) (ht : readoutTypeFromDetectorType w.obj.type = .ok t)
    (hw : writes t ring fen (CDouble.toEfu tof + w.obj.time) data = some (assign, r)) :
    Referenced P (w.recorded assign r) := by
  have hs := World.settings_recorded assign r w
  have hr := referenced_room h
  refine ⟨wire_recorded h.wire ht hw, h.clocked.of_settings hs, ?_, hr.sent⟩
  intro e he
  rcases List.mem_append.1 he with he | he
  · exact hr.pending e he
  · obtain rfl := List.mem_singleton.1 he
    obtain ⟨-, htime, -, -⟩ := writes_spec w.obj.buffer 0 hw
    have hf' : (w.recorded assign r).trace.tof = some tof := by rw [World.tof_recorded, hf]
    refine ⟨tof, hf', ?_⟩
    rw [(pulses_of_settings hs).1, h.clocked.pulse]
    exact htime

theorem referenced_effect {w' : World R FS} (he : Effect w w') (h : Referenced P w) :
    Referenced P w' := by
  have hk := clocked_effect he h.clocked
  have hwire := wire_effect he h.wire
  cases he with
  | configured | noted => exact ⟨hwire, hk, h.pending, h.sent⟩
  | added ha =>
    cases ha with
    | drawn => exact ⟨hwire, hk, h.pending, h.sent⟩
    | recorded _ hf ht hw => exact referenced_recorded h hf ht hw
  | flushed => exact referenced_flushed h
  | fresh => exact referenced_fresh h

/-- The pulse moves after the packet timed by the old one is sent. -/
theorem referenced_advanced {clock : UInt64} {now prev : EfuTime} (hP : P.Canonical)
    (hl : latestPulse (EfuTime.now clock) w.obj.time w.obj.period = .ok now)
    (h : Referenced P w) : Referenced P (w.advanced now prev) := by
  have hs := type_of_settings (World.settings_flushed (w.timed prev))
  obtain ⟨-, h2⟩ := timed_flushed (wire_timed h.wire prev) h.normal h.pending h.sent
  refine ⟨wire_advanced h.wire now prev, clocked_advanced hP hl h.clocked,
    fun e he => (by cases he), ?_⟩
  have htype : (w.advanced now prev).obj.type = w.obj.type := hs
  rw [htype]; exact h2

end

section
variable [HighFive R FS] [Host] {clock₀ : UInt64} {frequency : R} {type : Int} {fs : FS}
  {socket : ℕ → SendResult} {draws : ℕ → Draw} {w₀ : World R FS}

theorem referenced_runCalls (hw : readoutCreate clock₀ frequency type fs socket draws = .ok w₀)
    (calls : List (Call R)) : Referenced w₀.obj.period (runCalls w₀ calls) := by
  obtain ⟨-, hPc, hk⟩ := clocked_create hw
  obtain ⟨d, prev, -, -, rfl⟩ := make_ok hw
  exact runCalls_keeps _ referenced_effect (fun hl _ => referenced_advanced hPc hl)
    ⟨wire_make hw, hk, fun e he => (by cases he), fun s hs => by cases hs⟩ calls

omit [Host] in
/-- What `addReadout` leaves of a world whose network is enabled: the settings,
    with the event time noted. -/
theorem settings_addReadout {ring fen : UInt8} {tof weight : R} {data : VoidPtr}
    {v w : World R FS} (hn : v.obj.network = true)
    (h : addReadout ring fen tof weight data v = .ok () w) :
    w.obj.settings = (v.noted v.fs tof).obj.settings := by
  cases hs : saved v.obj ring fen tof weight data v.fs with
  | error e fs => rw [addReadout_error hs] at h; cases h
  | ok _ fs => exact (settings_added (addReadout_added hn hs h)).trans rfl

omit [Host] in
theorem lastEventTime_sub_lastPulseTime {P : EfuTime} {ring fen : UInt8} {tof weight : R}
    {data : VoidPtr} {v w : World R FS} (hk : Clocked P v) (hn : v.obj.network = true)
    (h : addReadout ring fen tof weight data v = .ok () w)
    (hlt : w.obj.lastPulseTime.val + (CDouble.toEfu tof).val < 2 ^ 32 * 88052499) :
    w.obj.lastEventTime.sub w.obj.lastPulseTime = .ok (CDouble.toEfu tof) := by
  have hs := settings_addReadout hn h
  have h1 : w.obj.lastEventTime = CDouble.toEfu tof + v.obj.time := by
    injection hs with _ _ _ _ h5 h6
    rw [lastEventTime, h5, h6]
    rfl
  have h2 : w.obj.lastPulseTime = v.obj.time := (pulses_of_settings hs).1.trans hk.pulse
  rw [h2] at hlt
  rw [h1, h2]
  exact EfuTime.add_sub_cancel (CDouble.canonical_toEfu tof) hk.normal (by omega)

/-- **Every transmitted readout is timed relative to the pulse of its own
    packet.**  The bytes of a datagram are those of a packet with its records,
    and the time stamp of each, in ticks, is the pulse in the header plus the
    time of flight of its `addReadout` call.  After a call of `readout_add` the
    last event time less the last pulse time is the time of flight. -/
theorem sent_timed (hw : readoutCreate clock₀ frequency type fs socket draws = .ok w₀)
    (calls : List (Call R)) :
    (∀ s ∈ (runCalls w₀ calls).trace.sent, ∃ p : Packet, s.bytes = p.enc ∧
      p.records = s.entries.map Entry.record ∧ ∀ e ∈ s.entries, ∃ tof, e.tof = some tof ∧
        (p.header.pulse.val + (CDouble.toEfu tof).val < 2 ^ 32 * 88052499 →
          e.record.head.time.val = p.header.pulse.val + (CDouble.toEfu tof).val)) ∧
    ∀ clock ring fen tof weight data w, (runCalls w₀ calls).obj.network = true →
      step (.add clock ring fen tof weight data) (runCalls w₀ calls) = .ok () w →
      w.obj.lastPulseTime.val + (CDouble.toEfu tof).val < 2 ^ 32 * 88052499 →
      w.obj.lastEventTime.sub w.obj.lastPulseTime = .ok (CDouble.toEfu tof) := by
  have hr := referenced_runCalls hw calls
  constructor
  · intro s hs
    obtain ⟨p, hp, hn, ht⟩ := hr.sent s hs
    refine ⟨p, hp.bytes, hp.records, ?_⟩
    intro e he
    obtain ⟨tof, h1, h2⟩ := ht e he
    refine ⟨tof, h1, ?_⟩
    intro hlt
    rw [h2, EfuTime.val_add (CDouble.canonical_toEfu tof).normal hn (by omega)]
    omega
  · intro clock ring fen tof weight data w hn hadd hlt
    obtain ⟨⟨⟩, v, h1, h2⟩ := bind_eq_ok.1 hadd
    obtain ⟨-, hPc, -⟩ := clocked_create hw
    rcases updateTime_cases (runCalls w₀ calls) clock with ⟨e, he⟩ | ⟨now, prev, hl, -, h3⟩
    · change updateTime clock _ = _ at h1
      rw [he] at h1; cases h1
    · change updateTime clock _ = _ at h1
      rw [h3] at h1
      obtain rfl : (runCalls w₀ calls).advanced now prev = v := by injection h1
      have hnet := network_of_settings
        (World.settings_flushed ((runCalls w₀ calls).timed prev))
      exact lastEventTime_sub_lastPulseTime (clocked_advanced hPc hl hr.clocked)
        (hnet.trans hn) h2 hlt

end

/-- A datagram with one readout, added 0.1 s after the pulse. -/
theorem sent_timed_atTen :
    (∀ s ∈ (runCalls (atTen .BIFROST)
        [.add 11500000000 1 2 (1 / 10) 0 VoidPtr.blank, .send]).trace.sent,
      ∃ p : Packet, s.bytes = p.enc ∧ p.records = s.entries.map Entry.record ∧
        ∀ e ∈ s.entries, ∃ tof, e.tof = some tof ∧
          (p.header.pulse.val + (CDouble.toEfu tof).val < 2 ^ 32 * 88052499 →
            e.record.head.time.val = p.header.pulse.val + (CDouble.toEfu tof).val)) ∧
    (runCalls (atTen .BIFROST)
        [.add 11500000000 1 2 (1 / 10) 0 VoidPtr.blank, .send]).trace.sent.map
      (fun s => s.entries.map fun e => e.record.head.time) = [[], [⟨11, 8805249⟩]] :=
  ⟨(sent_timed (create_atTen .BIFROST) _).1, by decide +kernel⟩

end ReadoutMaster
