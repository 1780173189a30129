/-
  What stands in the buffer, and what the socket was handed.

  `World.packet` is the packet under construction as a receiver would decode
  it: its header is determined by the members of the object, its records are
  those of the trace.  `Wire w` says that the buffer holds its encoding, and
  that every datagram sent so far encodes the records it was sent with.

  * `writes_spec`: each overload of `addReadout` writes the encoding of its
    record, and nothing outside it;
  * `wire_fresh`, `wire_flushed`, `wire_room`, `wire_recorded`,
    `wire_advanced`: the steps of the methods keep the invariant.
-/
import ReadoutMaster.Proof.Ops

namespace ReadoutMaster

open Readout Packed

variable {R FS : Type}

/-! ## Record encoders -/

section
variable (ring fen : UInt8) (t : EfuTime) {m : Memory} {dp : ℕ}

theorem assignCaen_apply (data : CAENReadout) {i : ℕ} (h : i < dp ∨ dp + 24 ≤ i) :
    assignCaen ring fen t data m dp i = m i := by
  simp (disch := first | decide | assumption) only [assignCaen, assignHead,
    Memory.set_apply_outside 24]

theorem assignTTLMonitor_apply (data : TTLMonitorReadout) {i : ℕ} (h : i < dp ∨ dp + 16 ≤ i) :
    assignTTLMonitor ring fen t data m dp i = m i := by
  simp (disch := first | decide | assumption) only [assignTTLMonitor, assignHead,
    Memory.set_apply_outside 16]

theorem assignDream_apply (data : DREAMReadout) {i : ℕ} (h : i < dp ∨ dp + 16 ≤ i) :
    assignDream ring fen t data m dp i = m i := by
  simp (disch := first | decide | assumption) only [assignDream, assignHead,
    Memory.set_apply_outside 16]

theorem assignVMM3_apply (data : VMM3Readout) {i : ℕ} (h : i < dp ∨ dp + 20 ≤ i) :
    assignVMM3 ring fen t data m dp i = m i := by
  simp (disch := first | decide | assumption) only [assignVMM3, assignHead,
    Memory.set_apply_outside 20]

theorem has_assignCaen (data : CAENReadout) (hz : ∀ i, dp ≤ i → i < dp + 24 → m i = 0) :
    (assignCaen ring fen t data m dp).Has dp CaenData.codec
      ⟨headOf ring fen t 24, 0, data.channel, 0, data.a, data.b, data.c, data.d⟩ := by
  simp (disch := decide) only [CaenData.has_iff, ReadoutHead.has_iff, assignCaen, assignHead,
    headOf, Memory.holds_set, Memory.holds_set_of_apart, true_and, and_true]
  exact ⟨Memory.holds_of_zero 24 hz (by decide) rfl, Memory.holds_of_zero 24 hz (by decide) rfl⟩

theorem has_assignTTLMonitor (data : TTLMonitorReadout) :
    (assignTTLMonitor ring fen t data m dp).Has dp TTLMonitorData.codec
      ⟨headOf ring fen t 16, data.pos, data.channel, data.adc⟩ := by
  simp (disch := decide) only [TTLMonitorData.has_iff, ReadoutHead.has_iff, assignTTLMonitor,
    assignHead, headOf, Memory.holds_set, Memory.holds_set_of_apart, and_true]

theorem has_assignDream (data : DREAMReadout) (hz : ∀ i, dp ≤ i → i < dp + 16 → m i = 0) :
    (assignDream ring fen t data m dp).Has dp DreamData.codec
      ⟨headOf ring fen t 16, data.om, 0, data.cathode, data.anode⟩ := by
  simp (disch := decide) only [DreamData.has_iff, ReadoutHead.has_iff, assignDream, assignHead,
    headOf, Memory.holds_set, Memory.holds_set_of_apart, true_and, and_true]
  exact Memory.holds_of_zero 16 hz (by decide) rfl

theorem has_assignVMM3 (data : VMM3Readout) :
    (assignVMM3 ring fen t data m dp).Has dp VMM3Data.codec
      ⟨headOf ring fen t 20, data.bc, data.otadc, data.geo, data.tdc, data.vmm, data.channel⟩ := by
  simp (disch := decide) only [VMM3Data.has_iff, ReadoutHead.has_iff, assignVMM3, assignHead,
    headOf, Memory.holds_set, Memory.holds_set_of_apart, and_true]

end

/-- What the overload for a readout type writes: a record of the type with the
    given time, encoded in zeroed memory, and nothing around it. -/
theorem writes_spec {t : ReadoutType} {ring fen : UInt8} {time : EfuTime} {data : VoidPtr}
    {assign : Memory → ℕ → Memory} {r : Record} (m : Memory) (dp : ℕ)
    (hw : writes t ring fen time data = some (assign, r)) :
    r.type = t ∧ r.head.time = time ∧
      ((∀ i, dp ≤ i → i < dp + r.size → m i = 0) → (assign m dp).load dp r.size = r.enc) ∧
      ∀ i, i < dp ∨ dp + r.size ≤ i → assign m dp i = m i := by
  cases t with
  | CAEN =>
    obtain ⟨rfl, rfl⟩ := Prod.mk.inj (Option.some.inj hw)
    exact ⟨rfl, rfl, has_assignCaen ring fen time _, fun i => assignCaen_apply ring fen time _⟩
  | TTLMonitor =>
    obtain ⟨rfl, rfl⟩ := Prod.mk.inj (Option.some.inj hw)
    exact ⟨rfl, rfl, fun _ => has_assignTTLMonitor ring fen time _,
      fun i => assignTTLMonitor_apply ring fen time _⟩
  | DREAM =>
    obtain ⟨rfl, rfl⟩ := Prod.mk.inj (Option.some.inj hw)
    exact ⟨rfl, rfl, has_assignDream ring fen time _, fun i => assignDream_apply ring fen time _⟩
  | VMM3 =>
    obtain ⟨rfl, rfl⟩ := Prod.mk.inj (Option.some.inj hw)
    exact ⟨rfl, rfl, fun _ => has_assignVMM3 ring fen time _,
      fun i => assignVMM3_apply ring fen time _⟩
  | MAGIC => cases hw

/-! ## The packet under construction -/

namespace World

/-- The header of the packet under construction. -/
def header (w : World R FS) : PacketHeaderV0 where
  padding0 := 0
  version := 0
  cookieAndType := (w.obj.type.code <<< 24) + 0x535345
  totalLength := UInt16.ofNat w.obj.dataSize
  outputQueue := w.obj.outputQueue
  timeSource := 0
  pulseHigh := w.obj.phi
  pulseLow := w.obj.plo
  prevPulseHigh := w.obj.pphi
  prevPulseLow := w.obj.pplo
  seqNum := w.obj.seqNum - 1

/-- The records of the packet under construction. -/
def records (w : World R FS) : List Record := w.trace.pending.map Entry.record

def packet (w : World R FS) : Packet := ⟨w.header, w.records⟩

end World

/-- The datagram encodes a packet of the detector with the records it was sent
    with. -/
structure Sent.Encodes (d : DetectorType) (s : Sent R) (p : Packet) : Prop where
  bytes : s.bytes = p.enc
  records : p.records = s.entries.map Entry.record
  totalLength : p.header.totalLength.toNat = s.bytes.length
  padding0 : p.header.padding0 = 0
  version : p.header.version = 0
  cookieAndType : p.header.cookieAndType = (d.code <<< 24) + 0x535345
  types : ∀ r ∈ p.records, readoutTypeFromDetectorType d = .ok r.type

/-- The buffer holds the records of the packet back to back, between the header
    and zeros, and the header their length. -/
structure Framed (w : World R FS) : Prop where
  totalLength : w.obj.buffer.Holds 0 PacketHeaderV0.At.totalLength (UInt16.ofNat w.obj.dataSize)
  body : w.obj.buffer.load 30 (w.obj.dataSize - 30) = Record.encAll w.records
  dataSize : w.obj.dataSize = 30 + (Record.encAll w.records).length
  room : w.obj.dataSize < MaxDataSize + 24
  blank : ∀ i, w.obj.dataSize ≤ i → i < 9000 → w.obj.buffer i = 0

/-- The invariant of the buffer. -/
structure Wire (w : World R FS) : Prop where
  header : w.obj.buffer.Has 0 PacketHeaderV0.codec w.header
  body : w.obj.buffer.load 30 (w.obj.dataSize - 30) = Record.encAll w.records
  dataSize : w.obj.dataSize = 30 + (Record.encAll w.records).length
  room : w.obj.dataSize < MaxDataSize + 24
  blank : ∀ i, w.obj.dataSize ≤ i → i < 9000 → w.obj.buffer i = 0
  types : ∀ r ∈ w.records, readoutTypeFromDetectorType w.obj.type = .ok r.type
  sent : ∀ s ∈ w.trace.sent, ∃ p, s.Encodes w.obj.type p

theorem has_headerBuffer (w : World R FS) :
    w.obj.headerBuffer.Has 0 PacketHeaderV0.codec w.fresh.header := by
  have h : w.obj.seqNum + 1 - 1 = w.obj.seqNum := by simp
  simp (disch := decide) only [PacketHeaderV0.has_iff, headerBuffer, World.header, World.fresh, h,
    Memory.holds_set, Memory.holds_set_of_apart, and_true, true_and]
  exact Memory.holds_set

theorem headerBuffer_blank (o : Readout) {i : ℕ} (h1 : 30 ≤ i) (h2 : i < 9000) :
    o.headerBuffer i = 0 := by
  have h : i < 0 ∨ 0 + 30 ≤ i := by omega
  simp (disch := first | decide | assumption) only [headerBuffer, Memory.set_apply_outside 30]
  exact if_pos (by omega)

theorem framed_fresh (w : World R FS) : Framed w.fresh where
  totalLength := (PacketHeaderV0.has_iff.1 (has_headerBuffer w)).2.2.2.1
  body := rfl
  dataSize := rfl
  room := show 30 < MaxDataSize + 24 by decide
  blank _ h1 h2 := headerBuffer_blank w.obj h1 h2

theorem Wire.framed {w : World R FS} (h : Wire w) : Framed w :=
  ⟨(PacketHeaderV0.has_iff.1 h.header).2.2.2.1, h.body, h.dataSize, h.room, h.blank⟩

/-- A new packet is in order whatever stood in the buffer. -/
theorem wire_fresh {w : World R FS} (h : ∀ s ∈ w.trace.sent, ∃ p, s.Encodes w.obj.type p) :
    Wire w.fresh where
  header := has_headerBuffer w
  body := rfl
  dataSize := rfl
  room := (framed_fresh w).room
  blank := (framed_fresh w).blank
  types := by simp [World.records, World.fresh]
  sent := h

section
variable {w : World R FS}

/-- The bytes to be sent encode the packet under construction. -/
theorem Wire.bytes_eq (h : Wire w) : w.bytes = w.packet.enc := by
  have hd : w.obj.dataSize = 30 + (w.obj.dataSize - 30) := by have := h.dataSize; omega
  have hh : w.obj.buffer.load 0 30 = PacketHeaderV0.codec.enc w.header := h.header
  rw [World.bytes, hd, Memory.load_add, hh, Nat.zero_add, h.body]
  rfl

theorem Wire.dec_bytes (h : Wire w) :
    PacketHeaderV0.codec.dec w.bytes = some (w.header, Record.encAll w.records) := by
  rw [h.bytes_eq]
  exact Packed.Codec.dec_enc _ _ _

theorem Wire.length_bytes (h : Wire w) : w.header.totalLength.toNat = w.bytes.length := by
  have hr := h.room
  rw [World.bytes, Memory.length_load]
  have hlt : w.obj.dataSize < 65536 := by simp only [MaxDataSize] at hr; omega
  exact UInt16.toNat_ofNat_of_lt' hlt

theorem Wire.encodes (h : Wire w) :
    Sent.Encodes w.obj.type ⟨w.bytes, w.trace.pending⟩ w.packet where
  bytes := h.bytes_eq
  records := rfl
  totalLength := h.length_bytes
  padding0 := rfl
  version := rfl
  cookieAndType := rfl
  types := h.types

theorem wire_flushed (h : Wire w) : Wire w.flushed := by
  cases hn : w.obj.network with
  | false => rwa [World.flushed_of_disabled hn]
  | true =>
    rw [World.flushed_of_enabled hn]
    refine wire_fresh ?_
    intro s hs
    rcases List.mem_append.1 hs with hs | hs
    · exact h.sent s hs
    · obtain rfl := List.mem_singleton.1 hs
      exact ⟨_, h.encodes⟩

theorem wire_room (h : Wire w) : Wire w.room := by
  rcases Nat.lt_or_ge w.obj.dataSize MaxDataSize with hs | hs
  · rwa [World.room_of_space hs]
  · rw [World.room_of_full hs]
    exact wire_fresh (wire_flushed h).sent

theorem dataSize_room (w : World R FS) : w.room.obj.dataSize < MaxDataSize := by
  rcases Nat.lt_or_ge w.obj.dataSize MaxDataSize with hs | hs
  · rwa [World.room_of_space hs]
  · rw [World.room_of_full hs]
    show 30 < MaxDataSize
    decide

variable {t : ReadoutType} {ring fen : UInt8} {time : EfuTime} {data : VoidPtr}
  {assign : Memory → ℕ → Memory} {r : Record}

theorem records_written (assign : Memory → ℕ → Memory) (n : ℕ) (r : Record) :
    (w.written assign n r).records = w.records ++ [r] := by
  simp [World.records, World.written]

/-- Writing a record where there is room appends it to the packet. -/
theorem framed_written (h : Framed w) (hs : w.obj.dataSize < MaxDataSize)
    (hw : writes t ring fen time data = some (assign, r)) :
    Framed (w.written assign r.size r) := by
  obtain ⟨-, -, hload, happly⟩ := writes_spec w.obj.buffer w.obj.dataSize hw
  have hsz : r.size ≤ 24 := Record.sizeOf_le _
  have hd := h.dataSize
  simp only [MaxDataSize] at hs
  have hrec := records_written (w := w) assign r.size r
  set m := assign w.obj.buffer w.obj.dataSize with hm
  have hbody : m.load 30 (w.obj.dataSize + r.size - 30) = Record.encAll (w.records ++ [r]) := by
    have hsplit : w.obj.dataSize + r.size - 30 = (w.obj.dataSize - 30) + r.size := by omega
    have hat : 30 + (w.obj.dataSize - 30) = w.obj.dataSize := by omega
    rw [hsplit, Memory.load_add, hat, hload fun i h1 h2 => h.blank i h1 (by omega),
      Record.encAll_append, Record.encAll_singleton, ← h.body]
    congr 1
    exact Memory.load_congr fun i hi => happly _ (by omega)
  refine ⟨Memory.holds_set, ?_, ?_, ?_, ?_⟩
  · rw [hrec, ← hbody]
    exact Memory.load_set_of_disjoint (Or.inr (by decide))
  · rw [hrec, Record.encAll_append, Record.encAll_singleton, List.length_append, Record.length_enc]
    show w.obj.dataSize + r.size = _
    omega
  · show w.obj.dataSize + r.size < _
    simp only [MaxDataSize]; omega
  · intro i h1 h2
    have h1' : w.obj.dataSize + r.size ≤ i := h1
    show (m.set 0 _ _) i = 0
    rw [Memory.set_apply_outside 30 (by decide) (Or.inr (by omega)), happly i (Or.inr h1')]
    exact h.blank i (by omega) h2

theorem wire_written (h : Wire w) (hs : w.obj.dataSize < MaxDataSize)
    (ht : readoutTypeFromDetectorType w.obj.type = .ok t)
    (hw : writes t ring fen time data = some (assign, r)) : Wire (w.written assign r.size r) := by
  obtain ⟨htype, -, -, happly⟩ := writes_spec w.obj.buffer w.obj.dataSize hw
  have hd := h.dataSize
  have hhead : (assign w.obj.buffer w.obj.dataSize).Has 0 PacketHeaderV0.codec w.header := by
    have h1 : (assign w.obj.buffer w.obj.dataSize).load 0 30 = w.obj.buffer.load 0 30 :=
      Memory.load_congr fun i hi => happly _ (by omega)
    exact h1.trans h.header
  have hf := framed_written h.framed hs hw
  refine ⟨?_, hf.body, hf.dataSize, hf.room, hf.blank, ?_, h.sent⟩
  · rw [PacketHeaderV0.has_iff] at hhead
    obtain ⟨h1, h2, h3, -, h5, h6, h7, h8, h9, h10, h11⟩ := hhead
    show (Memory.set _ 0 _ _).Has 0 _ _
    simp (disch := decide) only [PacketHeaderV0.has_iff, Memory.holds_set_of_apart]
    exact ⟨h1, h2, h3, Memory.holds_set, h5, h6, h7, h8, h9, h10, h11⟩
  · rw [records_written]
    intro r' hr'
    rcases List.mem_append.1 hr' with hr' | hr'
    · exact h.types r' hr'
    · obtain rfl := List.mem_singleton.1 hr'
      rw [htype]; exact ht

theorem wire_recorded (h : Wire w) (ht : readoutTypeFromDetectorType w.obj.type = .ok t)
    (hw : writes t ring fen time data = some (assign, r)) : Wire (w.recorded assign r) := by
  refine wire_written (wire_room h) (dataSize_room w) ?_ hw
  rw [type_of_settings (World.settings_room w)]; exact ht

theorem wire_timed (h : Wire w) (t : EfuTime) : Wire (w.timed t) :=
  ⟨h.header, h.body, h.dataSize, h.room, h.blank, h.types, h.sent⟩

theorem wire_advanced (h : Wire w) (now prev : EfuTime) : Wire (w.advanced now prev) :=
  wire_timed (wire_fresh (w := (w.timed prev).flushed.pulsed now prev)
    (wire_flushed (wire_timed h prev)).sent) now

end

end ReadoutMaster
