/-
  What the socket is handed is what was added.

  The history of a world is the list of the records sent so far, in the order
  of their datagrams, and of those of the packet under construction.  With the
  network enabled every path that sends a packet keeps it, and adding a readout
  appends one record (`history_step`).  Once the object is destroyed nothing is
  pending, and the datagrams decode to the history (`delivered`).
-/
import ReadoutMaster.Proof.Timing

namespace ReadoutMaster

open Readout Machine

variable {R FS : Type}

/-- The records sent in a datagram. -/
def Sent.records (s : Sent R) : List Record := s.entries.map Entry.record

/-- The records of the datagrams, and then those of the packet under
    construction. -/
def World.history (w : World R FS) : List Record :=
  (w.trace.sent.map Sent.records).flatten ++ w.records

/-! ## Steps -/

section
variable {w : World R FS}

theorem records_flushed (hn : w.obj.network = true) : w.flushed.records = [] := by
  rw [World.flushed_of_enabled hn]; rfl

theorem history_flushed (hn : w.obj.network = true) : w.flushed.history = w.history := by
  rw [World.flushed_of_enabled hn]
  simp [World.history, World.fresh, World.sentOut, World.records, Sent.records]

/-- A new packet loses nothing when none is pending. -/
theorem history_fresh (h : w.records = []) : w.fresh.history = w.history := by
  simp only [World.history, h]
  rfl

theorem history_room (hn : w.obj.network = true) : w.room.history = w.history := by
  rcases Nat.lt_or_ge w.obj.dataSize MaxDataSize with hs | hs
  · rw [World.room_of_space hs]
  · rw [World.room_of_full hs, history_fresh (records_flushed hn), history_flushed hn]

theorem history_recorded (hn : w.obj.network = true)
    (assign : Packed.Memory → ℕ → Packed.Memory) (r : Record) :
    (w.recorded assign r).history = w.history ++ [r] := by
  rw [← history_room hn]
  simp [World.history, World.recorded, World.written, World.records]

/-- Copies of a record are appended to the history. -/
theorem history_copies (hn : w.obj.network = true)
    (assign : Packed.Memory → ℕ → Packed.Memory) (r : Record) (k : ℕ) :
    ((World.recorded assign r)^[k] w).history = w.history ++ List.replicate k r := by
  induction k with
  | zero => exact (List.append_nil _).symm
  | succ k ih =>
    have hnk : ((World.recorded assign r)^[k] w).obj.network = true :=
      (network_of_settings (World.settings_copies assign r k w)).trans hn
    rw [Function.iterate_succ_apply', history_recorded hnk, ih, List.replicate_succ',
      List.append_assoc]

theorem history_advanced (hn : w.obj.network = true) (now prev : EfuTime) :
    (w.advanced now prev).history = w.history := by
  have h1 : (w.timed prev).flushed.history = w.history := history_flushed (w := w.timed prev) hn
  have h2 := history_fresh (w := (w.timed prev).flushed.pulsed now prev)
    (records_flushed (w := w.timed prev) hn)
  exact h2.trans h1

end

/-! ## Calls -/

variable [CDouble R]

/-- The calls that add one readout each, move the pulse or send. -/
def Call.Live : Call R → Prop
  | .add _ _ _ _ weight _ => CDouble.truthy weight = false
  | .setPulseTime _ | .send => True
  | _ => False

instance (call : Call R) : Decidable call.Live :=
  match call with
  | .add .. => inferInstanceAs (Decidable (_ = _))
  | .setPulseTime _ | .send => .isTrue trivial
  | .newPacket | .enableNetwork | .disableNetwork | .verbose _ | .dumpTo _ | .destroy => .isFalse id

/-- The record a call adds for a reference time. -/
def Call.record (t : ReadoutType) (time : EfuTime) : Call R → Option Record
  | .add _ ring fen tof _ data =>
    (writes t ring fen (CDouble.toEfu tof + time) data).map Prod.snd
  | _ => none

variable [HighFive R FS]

theorem addReadout_unweighted {ring fen : UInt8} {tof weight : R} {data : VoidPtr}
    {t : ReadoutType} {w w' : World R FS} {assign : Packed.Memory → ℕ → Packed.Memory} {r : Record}
    (hn : w.obj.network = true) (ht : readoutTypeFromDetectorType w.obj.type = .ok t)
    (hw : writes t ring fen (CDouble.toEfu tof + w.obj.time) data = some (assign, r))
    (hwt : CDouble.truthy weight = false) (h : addReadout ring fen tof weight data w = .ok () w') :
    ∃ fs, w' = (w.noted fs tof).recorded assign r := by
  cases hs : saved w.obj ring fen tof weight data w.fs with
  | error e fs => rw [addReadout_error hs] at h; cases h
  | ok _ fs =>
    rw [addReadout_enabled hn hs, addWeighted_eq weight (w := w.noted fs tof) ht hw, copiesOf,
      drawsOf, hwt] at h
    injection h with _ h
    exact ⟨fs, h.symm⟩

section
variable [Host]

/-- The records a run adds, each with the reference time its call left. -/
def added (t : ReadoutType) : World R FS → List (Call R) → List Record
  | _, [] => []
  | w, call :: calls =>
    let w' := final (step call) w
    (call.record t w'.obj.time).toList ++ added t w' calls

section
variable {t : ReadoutType} {w : World R FS}

/-- A call appends its record to the history, and keeps the network enabled. -/
theorem history_step {call : Call R} (hn : w.obj.network = true)
    (ht : readoutTypeFromDetectorType w.obj.type = .ok t) (hM : t ≠ .MAGIC) (hl : call.Live)
    (hr : Returns (step call) w) :
    (final (step call) w).history =
        w.history ++ (call.record t (final (step call) w).obj.time).toList ∧
      (final (step call) w).obj.network = true ∧
      (final (step call) w).obj.type = w.obj.type := by
  obtain ⟨⟨⟩, w', hw'⟩ := hr
  rw [final_of_ok hw']
  have hadv : ∀ {clock v}, updateTime clock w = .ok () v → v.history = w.history ∧
      v.obj.network = true ∧ v.obj.type = w.obj.type := by
    intro clock v hv
    rcases updateTime_cases w clock with ⟨e, he⟩ | ⟨now, prev, -, -, h⟩
    · rw [he] at hv; cases hv
    · rw [h] at hv
      obtain rfl : w.advanced now prev = v := by injection hv
      have hs := World.settings_flushed (w.timed prev)
      exact ⟨history_advanced hn now prev, (network_of_settings hs).trans hn,
        (type_of_settings hs).trans rfl⟩
  cases call with
  | add clock ring fen tof weight data =>
    obtain ⟨⟨⟩, v, h1, h2⟩ := bind_eq_ok.1 hw'
    obtain ⟨hv1, hv2, hv3⟩ := hadv h1
    obtain ⟨assign, r, hw⟩ := writes_isSome hM ring fen (CDouble.toEfu tof + v.obj.time) data
    obtain ⟨fs, rfl⟩ := addReadout_unweighted hv2 (hv3 ▸ ht) hw hl h2
    have hs := World.settings_recorded assign r (v.noted fs tof)
    refine ⟨?_, (network_of_settings hs).trans hv2, (type_of_settings hs).trans hv3⟩
    have htime : ((v.noted fs tof).recorded assign r).obj.time = v.obj.time :=
      (time_of_settings hs).trans rfl
    rw [history_recorded (w := v.noted fs tof) hv2, Call.record, htime, hw, ← hv1]
    rfl
  | setPulseTime clock =>
    obtain ⟨hv1, hv2, hv3⟩ := hadv hw'
    exact ⟨by rw [hv1]; exact (List.append_nil _).symm, hv2, hv3⟩
  | send =>
    rw [step_send] at hw'
    obtain rfl : w.flushed = w' := by injection hw'
    have hset := World.settings_flushed w
    refine ⟨?_, (network_of_settings hset).trans hn, type_of_settings hset⟩
    rw [history_flushed hn]; exact (List.append_nil _).symm
  | _ => exact hl.elim

theorem history_runCalls {calls : List (Call R)} (hn : w.obj.network = true)
    (ht : readoutTypeFromDetectorType w.obj.type = .ok t) (hM : t ≠ .MAGIC)
    (hl : ∀ call ∈ calls, call.Live) (hr : AllReturn step w calls) :
    (runCalls w calls).history = w.history ++ added t w calls ∧
      (runCalls w calls).obj.network = true ∧ (runCalls w calls).obj.type = w.obj.type := by
  induction calls generalizing w with
  | nil => exact ⟨(List.append_nil _).symm, hn, rfl⟩
  | cons call calls ih =>
    obtain ⟨h1, h2, h3⟩ := history_step hn ht hM (hl call List.mem_cons_self) hr.1
    obtain ⟨h4, h5, h6⟩ := ih h2 (h3 ▸ ht) (fun c hc => hl c (List.mem_cons_of_mem _ hc)) hr.2
    refine ⟨?_, h5, h6.trans h3⟩
    rw [runCalls, run_cons, h4, h1, added, List.append_assoc]

end

/-! ## Decoding -/

/-- A header of the detector, as it was configured. -/
structure PacketHeaderV0.Proper (type : Int) (h : PacketHeaderV0) : Prop where
  padding0 : h.padding0 = 0
  version : h.version = 0
  cookie : h.cookie = 0x535345
  detector : (h.detector.toNat : Int) = type

omit [CDouble R] [HighFive R FS] [Host] in
theorem proper_of_encodes {d : DetectorType} {s : Sent R} {p : Packet} (h : s.Encodes d p) :
    p.header.Proper d.code.toNat := by
  refine ⟨h.padding0, h.version, ?_, ?_⟩
  · rw [PacketHeaderV0.cookie, PacketHeaderV0.detector, h.cookieAndType]
    cases d <;> decide
  · rw [PacketHeaderV0.detector, h.cookieAndType]
    cases d <;> decide

omit [CDouble R] [HighFive R FS] [Host] in
/-- Datagrams that encode packets decode to them. -/
theorem mapM_decode {P : Packet → Prop} {d : DetectorType} {t : ReadoutType}
    (ht : readoutTypeFromDetectorType d = .ok t) (hM : t ≠ .MAGIC) :
    ∀ {sent : List (Sent R)}, (∀ s ∈ sent, ∃ p, s.Encodes d p ∧ P p) →
      ∃ packets : List Packet, (sent.map Sent.bytes).mapM (Packet.decode t) = some packets ∧
        packets.map Packet.records = sent.map Sent.records ∧ ∀ p ∈ packets, P p
  | [], _ => ⟨[], rfl, rfl, by simp⟩
  | s :: sent, h => by
    obtain ⟨p, hp, hP⟩ := h s List.mem_cons_self
    obtain ⟨ps, h1, h2, h3⟩ := mapM_decode ht hM fun s hs => h s (List.mem_cons_of_mem _ hs)
    have htypes : ∀ r ∈ p.records, r.type = t := fun r hr => by
      have := hp.types r hr
      rw [ht] at this
      exact (Except.ok.inj this).symm
    have hd : Packet.decode t s.bytes = some p := by
      rw [hp.bytes]
      exact Packet.decode_enc hM htypes (hp.bytes ▸ hp.totalLength)
    refine ⟨p :: ps, ?_, ?_, ?_⟩
    · simp only [List.map_cons, List.mapM_cons, hd, h1]; rfl
    · simp only [List.map_cons, h2, hp.records, Sent.records]
    · intro q hq
      rcases List.mem_cons.1 hq with rfl | hq
      · exact hP
      · exact h3 q hq

/-- **Delivery.**  The datagrams of a run that creates an object, adds
    readouts, moves the pulse and sends, and destroys the object, decode to
    packets of the configured detector whose records are the readouts added,
    each once and in order. -/
theorem delivered {clock₀ : UInt64} {frequency : R} {type : Int} {fs : FS}
    {socket : ℕ → SendResult} {draws : ℕ → Draw} {w₀ : World R FS} {t : ReadoutType}
    {calls : List (Call R)}
    (hw : readoutCreate clock₀ frequency type fs socket draws = .ok w₀)
    (ht : readoutTypeFromDetectorType w₀.obj.type = .ok t) (hM : t ≠ .MAGIC)
    (hl : ∀ call ∈ calls, call.Live) (hr : AllReturn step w₀ calls) :
    ∃ packets : List Packet,
      (runCalls w₀ (calls ++ [.destroy])).datagrams.mapM (Packet.decode t) = some packets ∧
      (packets.map Packet.records).flatten = added t w₀ calls ∧
      ∀ p ∈ packets, p.header.Proper type := by
  obtain ⟨d, prev, hd, -, rfl⟩ := make_ok hw
  set w₀ := World.created (R := R) d (CDouble.toEfu (CDouble.recip frequency))
    (EfuTime.now clock₀) prev fs socket draws with hw₀
  obtain ⟨hh, hn, htype⟩ := history_runCalls (w := w₀) rfl ht hM hl hr
  set w := runCalls w₀ calls with hwdef
  have hend : runCalls w₀ (calls ++ [.destroy]) = w.flushed := by
    rw [runCalls, run_append]
    exact final_of_ok (step_destroy w)
  have hwire : Wire w := wire_runCalls (wire_make hw) calls
  have hsent : ∀ s ∈ w.flushed.trace.sent, ∃ p, s.Encodes d p ∧ p.header.Proper d.code.toNat := by
    intro s hs
    obtain ⟨p, hp⟩ := (wire_flushed hwire).sent s hs
    rw [type_of_settings (World.settings_flushed w), htype] at hp
    exact ⟨p, hp, proper_of_encodes hp⟩
  obtain ⟨packets, h1, h2, h3⟩ := mapM_decode ht hM hsent
  refine ⟨packets, ?_, ?_, ?_⟩
  · rw [hend]; exact h1
  · have hhist := history_flushed hn
    rw [hh] at hhist
    rw [h2]
    have hrec := records_flushed hn
    rw [World.history, hrec, List.append_nil] at hhist
    rw [hhist]
    rfl
  · rw [detectorTypeFromInt_ok hd]; exact h3

end

/-- A run of two readouts in two packets. -/
theorem delivered_atTen :
    let calls : List (Call ℚ) := [.add 11500000000 1 2 (1 / 10) 0 VoidPtr.blank, .send,
      .add 11500000000 3 4 (1 / 5) 0 VoidPtr.blank]
    (∃ packets : List Packet,
      (runCalls (atTen .BIFROST) (calls ++ [.destroy])).datagrams.mapM (Packet.decode .CAEN) =
        some packets ∧
      (packets.map Packet.records).flatten = added .CAEN (atTen .BIFROST) calls ∧
      ∀ p ∈ packets, p.header.Proper 0x34) ∧
    (added .CAEN (atTen .BIFROST) calls).map (fun r => (r.head.ring, r.head.time)) =
      [(1, ⟨11, 8805249⟩), (3, ⟨11, 61636748⟩)] :=
  ⟨delivered (create_atTen .BIFROST) rfl (by decide) (by decide +kernel) (by decide +kernel),
    by decide +kernel⟩

end ReadoutMaster
