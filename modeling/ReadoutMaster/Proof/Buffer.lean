/-
  The packet buffer under the methods of the class, in any order.

  * `InOrder`: the buffer is framed, nothing was ever written behind it, and
    every record of the packet says its own size;
  * `SendsFull`: a method hands over no datagram but full ones;
  * `buffer_inOrder`: what a reader of the buffer sees after any methods.
-/
import ReadoutMaster.Methods
import ReadoutMaster.Proof.Effects
import ReadoutMaster.Concrete

namespace ReadoutMaster

open Readout Packed Machine Relation

variable {R FS : Type}

/-! ## The datagrams of the add path -/

/-- The datagrams of `w'` are those of `w`, and then full ones. -/
def SendsFull (w w' : World R FS) : Prop :=
  ∃ new, w'.trace.sent = w.trace.sent ++ new ∧ ∀ s ∈ new, MaxDataSize ≤ s.bytes.length

theorem SendsFull.of_eq {w w' : World R FS} (h : w'.trace.sent = w.trace.sent) : SendsFull w w' :=
  ⟨[], by rw [h, List.append_nil], by simp⟩

theorem SendsFull.trans {w w' w'' : World R FS} (h : SendsFull w w') (h' : SendsFull w' w'') :
    SendsFull w w'' := by
  obtain ⟨new, h1, h2⟩ := h
  obtain ⟨new', h3, h4⟩ := h'
  refine ⟨new ++ new', by rw [h3, h1, List.append_assoc], ?_⟩
  intro s hs
  rcases List.mem_append.1 hs with hs | hs
  · exact h2 s hs
  · exact h4 s hs

theorem sendsFull_room (w : World R FS) : SendsFull w w.room := by
  rcases Nat.lt_or_ge w.obj.dataSize MaxDataSize with hs | hs
  · rw [World.room_of_space hs]
    exact .of_eq rfl
  · rw [World.room_of_full hs]
    cases hn : w.obj.network with
    | false =>
      rw [World.flushed_of_disabled hn]
      exact .of_eq rfl
    | true =>
      rw [World.flushed_of_enabled hn]
      refine ⟨[⟨w.bytes, w.trace.pending⟩], rfl, ?_⟩
      intro s hmem
      obtain rfl := List.mem_singleton.1 hmem
      rwa [World.bytes, Memory.length_load]

theorem sendsFull_recorded (assign : Memory → ℕ → Memory) (r : Record) (w : World R FS) :
    SendsFull w (w.recorded assign r) :=
  (sendsFull_room w).trans (.of_eq rfl)

theorem sendsFull_added [CDouble R] {w w' : World R FS} (h : ReflTransGen Added w w') :
    SendsFull w w' := by
  induction h with
  | refl => exact .of_eq rfl
  | tail _ ha ih =>
    cases ha with
    | drawn => exact ih.trans (.of_eq rfl)
    | recorded => exact ih.trans (sendsFull_recorded _ _ _)

theorem sendsFull_addReadout [CDouble R] [HighFive R FS] (ring fen : UInt8) (tof weight : R)
    (data : VoidPtr) (w : World R FS) :
    SendsFull w (final (addReadout ring fen tof weight data) w) := by
  obtain ⟨fs, hfin | ⟨-, hadd⟩⟩ := addReadout_cases ring fen tof weight data w
  · rw [hfin]
    exact .of_eq rfl
  · have hnoted : SendsFull w (w.noted fs tof) := .of_eq rfl
    exact hnoted.trans (sendsFull_added hadd)

/-! ## The invariant -/

/-- The buffer is framed, memory behind it is as the constructor found it, and
    every record of the packet says its own size. -/
structure InOrder (w : World R FS) : Prop where
  framed : Framed w
  behind : ∀ i, 9000 ≤ i → w.obj.buffer i = 0
  lengths : ∀ r ∈ w.records, r.head.length.toNat = r.size

theorem writes_length {t : ReadoutType} {ring fen : UInt8} {time : EfuTime} {data : VoidPtr}
    {assign : Memory → ℕ → Memory} {r : Record}
    (hw : writes t ring fen time data = some (assign, r)) : r.head.length.toNat = r.size := by
  cases t with
  | MAGIC => cases hw
  | _ =>
    obtain ⟨-, rfl⟩ := Prod.mk.inj (Option.some.inj hw)
    rfl

section
variable {w : World R FS}

/-- The invariant is about the buffer and the packet in it alone. -/
theorem InOrder.of_same {v : World R FS} (h : InOrder w) (h1 : v.obj.buffer = w.obj.buffer)
    (h2 : v.obj.dataSize = w.obj.dataSize) (h3 : v.records = w.records) : InOrder v := by
  refine ⟨⟨?_, ?_, ?_, ?_, ?_⟩, ?_, ?_⟩ <;> simp only [h1, h2, h3]
  · exact h.framed.totalLength
  · exact h.framed.body
  · exact h.framed.dataSize
  · exact h.framed.room
  · exact h.framed.blank
  · exact h.behind
  · exact h.lengths

theorem inOrder_fresh (h : ∀ i, 9000 ≤ i → w.obj.buffer i = 0) : InOrder w.fresh where
  framed := framed_fresh w
  behind i hi := by
    have h1 : i < 0 ∨ 0 + 30 ≤ i := by omega
    show w.obj.headerBuffer i = 0
    simp (disch := first | decide | assumption) only [headerBuffer, Memory.set_apply_outside 30]
    exact (if_neg (by omega)).trans (h i hi)
  lengths := by simp [World.records, World.fresh]

theorem inOrder_flushed (h : InOrder w) : InOrder w.flushed := by
  cases hn : w.obj.network with
  | false => rwa [World.flushed_of_disabled hn]
  | true =>
    rw [World.flushed_of_enabled hn]
    exact inOrder_fresh (w := w.sentOut) h.behind

theorem inOrder_room (h : InOrder w) : InOrder w.room := by
  rcases Nat.lt_or_ge w.obj.dataSize MaxDataSize with hs | hs
  · rwa [World.room_of_space hs]
  · rw [World.room_of_full hs]
    exact inOrder_fresh (inOrder_flushed h).behind

theorem inOrder_recorded {t : ReadoutType} {ring fen : UInt8} {time : EfuTime} {data : VoidPtr}
    {assign : Memory → ℕ → Memory} {r : Record} (h : InOrder w)
    (hw : writes t ring fen time data = some (assign, r)) : InOrder (w.recorded assign r) := by
  obtain ⟨hf, hb, hl⟩ := inOrder_room h
  have hs := dataSize_room w
  have hsz : r.size ≤ 24 := Record.sizeOf_le _
  refine ⟨framed_written hf hs hw, ?_, ?_⟩
  · intro i hi
    obtain ⟨-, -, -, happly⟩ := writes_spec w.room.obj.buffer w.room.obj.dataSize hw
    simp only [MaxDataSize] at hs
    show Memory.set _ 0 _ _ i = 0
    rw [Memory.set_apply_outside 30 (by decide) (Or.inr (by omega)), happly i (Or.inr (by omega))]
    exact hb i hi
  · rw [World.recorded, records_written]
    intro r' hr'
    rcases List.mem_append.1 hr' with hr' | hr'
    · exact hl r' hr'
    · obtain rfl := List.mem_singleton.1 hr'
      exact writes_length hw

theorem inOrder_advanced (h : InOrder w) (now prev : EfuTime) : InOrder (w.advanced now prev) := by
  have h1 : InOrder (w.timed prev) := h.of_same rfl rfl rfl
  have h2 := inOrder_fresh (w := (w.timed prev).flushed.pulsed now prev) (inOrder_flushed h1).behind
  exact h2.of_same rfl rfl rfl

theorem inOrder_effect [CDouble R] {w' : World R FS} (he : Effect w w') (h : InOrder w) :
    InOrder w' := by
  cases he with
  | configured | noted => exact h.of_same rfl rfl rfl
  | added ha =>
    cases ha with
    | drawn => exact h.of_same rfl rfl rfl
    | recorded _ _ _ hw => exact inOrder_recorded h hw
  | flushed => exact inOrder_flushed h
  | fresh => exact inOrder_fresh h.behind

/-- What a receiver finds in a buffer that is in order. -/
theorem InOrder.reads (h : InOrder w) :
    (30 ≤ w.obj.dataSize ∧ w.obj.dataSize ≤ 8973) ∧
      (w.obj.buffer.u16 PacketHeaderV0.At.totalLength.offset).toNat = w.obj.dataSize ∧
      Record.walk (w.obj.buffer.load 30 (w.obj.dataSize - 30)) =
        some (w.records.map Record.enc) := by
  have hd := h.framed.dataSize
  have hr := h.framed.room
  simp only [MaxDataSize] at hr
  refine ⟨by omega, ?_, ?_⟩
  · have hu : w.obj.buffer.u16 PacketHeaderV0.At.totalLength.offset = UInt16.ofNat w.obj.dataSize :=
      Memory.u16_of_has h.framed.totalLength
    have hlt : w.obj.dataSize < 65536 := by omega
    rw [hu]
    exact UInt16.toNat_ofNat_of_lt' hlt
  · rw [h.framed.body]
    exact Record.walk_encAll h.lengths

end

/-! ## Methods -/

section
variable [CDouble R] [HighFive R FS] [Host]

/-- A method that writes one record. -/
theorem inOrder_writes {w : World R FS} (h : InOrder w) {m : Method R} {t : ReadoutType}
    {ring fen : UInt8} {time : EfuTime} {data : VoidPtr} {assign : Memory → ℕ → Memory}
    {r : Record} (hw : writes t ring fen time data = some (assign, r))
    (hx : m.invoke w = .ok () (w.recorded assign r)) :
    InOrder (final m.invoke w) ∧ (m.Adds → SendsFull w (final m.invoke w)) := by
  rw [final_of_ok hx]
  exact ⟨inOrder_recorded h hw, fun _ => sendsFull_recorded assign r w⟩

/-- A method keeps the buffer in order, and an add method hands over full
    datagrams only. -/
theorem inOrder_invoke {w : World R FS} (h : InOrder w) (m : Method R) :
    InOrder (final m.invoke w) ∧ (m.Adds → SendsFull w (final m.invoke w)) := by
  cases m with
  | addReadoutCAEN ring fen t data =>
    have hw : writes .CAEN ring fen t (VoidPtr.ofCAEN data) =
        some (assignCaen ring fen t data, caenOf ring fen t data) := by
      rw [writes, VoidPtr.toCAEN_ofCAEN]
    exact inOrder_writes h hw (bind_of_ok (checkSizeAndSend_eq w))
  | addReadoutTTLMonitor ring fen t data =>
    have hw : writes .TTLMonitor ring fen t (VoidPtr.ofTTLMonitor data) =
        some (assignTTLMonitor ring fen t data, ttlMonitorOf ring fen t data) := by
      rw [writes, VoidPtr.toTTLMonitor_ofTTLMonitor]
    exact inOrder_writes h hw (bind_of_ok (checkSizeAndSend_eq w))
  | addReadoutDREAM ring fen t data =>
    have hw : writes .DREAM ring fen t (VoidPtr.ofDREAM data) =
        some (assignDream ring fen t data, dreamOf ring fen t data) := by
      rw [writes, VoidPtr.toDREAM_ofDREAM]
    exact inOrder_writes h hw (bind_of_ok (checkSizeAndSend_eq w))
  | addReadoutVMM3 ring fen t data =>
    have hw : writes .VMM3 ring fen t (VoidPtr.ofVMM3 data) =
        some (assignVMM3 ring fen t data, vmm3Of ring fen t data) := by
      rw [writes, VoidPtr.toVMM3_ofVMM3]
    exact inOrder_writes h hw (bind_of_ok (checkSizeAndSend_eq w))
  | addReadoutAt ring fen t data =>
    rcases addReadoutAt_cases ring fen t data w with ⟨e, he⟩ | ⟨t', assign, r, -, hw, hx⟩
    · have hfin : final (Method.addReadoutAt ring fen t data).invoke w = w := final_of_error he
      rw [hfin]
      exact ⟨h, fun _ => .of_eq rfl⟩
    · exact inOrder_writes h hw hx
  | addReadout ring fen tof weight data =>
    exact ⟨(addReadout_effects w).keeps _ inOrder_effect h,
      fun _ => sendsFull_addReadout ring fen tof weight data w⟩
  | send =>
    obtain ⟨code, hs⟩ := send_eq w
    have hfin : final (Method.send (R := R)).invoke w = w.flushed := final_of_ok (bind_of_ok hs)
    exact ⟨hfin ▸ inOrder_flushed h, False.elim⟩
  | newPacket => exact ⟨inOrder_fresh h.behind, False.elim⟩
  | updateTime clock =>
    refine ⟨?_, False.elim⟩
    show InOrder (final (Readout.updateTime clock) w)
    rcases updateTime_cases w clock with ⟨e, he⟩ | ⟨now, prev, -, -, he⟩
    · rwa [final_of_error he]
    · rw [final_of_ok he]
      exact inOrder_advanced h now prev
  | dumpTo filename datasetName =>
    exact ⟨(dumpTo_effects w filename datasetName).keeps _ inOrder_effect h, False.elim⟩
  | setPulseTime | verbose | enableNetwork | disableNetwork =>
    exact ⟨h.of_same rfl rfl rfl, False.elim⟩

/-- **The packet buffer.**  After any methods the packet stays inside the
    buffer, its header tells its length, its body is the records added since it
    was begun, and room for the next record is made only when it is full; the
    add methods hand over full datagrams only. -/
theorem buffer_inOrder {type : Int} {period time : EfuTime} {fs : FS} {socket : ℕ → SendResult}
    {draws : ℕ → Draw} {w₀ : World R FS}
    (hw : Readout.make type period time fs socket draws = .ok w₀) (methods : List (Method R)) :
    let w := run Method.invoke w₀ methods
    (30 ≤ w.obj.dataSize ∧ w.obj.dataSize ≤ 8973) ∧
      (w.obj.buffer.u16 PacketHeaderV0.At.totalLength.offset).toNat = w.obj.dataSize ∧
      Record.walk (w.obj.buffer.load 30 (w.obj.dataSize - 30)) =
        some (w.records.map Record.enc) ∧
      (∀ i, 9000 ≤ i → w.obj.buffer i = 0) ∧
      (∃ w', checkSizeAndSend w = .ok () w' ∧ (w.obj.dataSize < MaxDataSize → w' = w) ∧
        ∀ t, w'.obj.dataSize + Record.sizeOf t ≤ 9000) ∧
      ∀ m : Method R, m.Adds → SendsFull w (final m.invoke w) := by
  intro w
  obtain ⟨d, prev, -, -, rfl⟩ := make_ok hw
  have h : InOrder w :=
    run_inv (inOrder_fresh fun _ _ => rfl) fun m _ v hv => (inOrder_invoke hv m).1
  obtain ⟨h1, h2, h3⟩ := h.reads
  refine ⟨h1, h2, h3, h.behind, ⟨w.room, checkSizeAndSend_eq w, World.room_of_space, ?_⟩, ?_⟩
  · intro t
    have hs := dataSize_room w
    have hsz := Record.sizeOf_le t
    simp only [MaxDataSize] at hs
    omega
  · intro m hm
    exact (inOrder_invoke h m).2 hm

end

/-- Two records of different kinds, the first added while the network is
    disabled. -/
theorem buffer_inOrder_mixed :
    let w := run Method.invoke (atTen .BIFROST) [.disableNetwork, .send,
      .addReadoutVMM3 1 2 ⟨10, 5⟩ ⟨1, 2, 3, 4, 5, 6⟩, .enableNetwork,
      .addReadoutDREAM 3 4 ⟨10, 6⟩ ⟨7, 8, 9⟩]
    w.obj.dataSize = 66 ∧ (w.obj.buffer.u16 6).toNat = w.obj.dataSize ∧
      Record.walk (w.obj.buffer.load 30 (w.obj.dataSize - 30)) =
        some (w.records.map Record.enc) := by
  intro w
  have hw : Readout.make DetectorType.BIFROST.code.toNat ⟨1, 0⟩ ⟨10, 0⟩ Disk.blank openSocket ones =
      .ok (atTen .BIFROST) := make_eq (detectorTypeFromInt_code .BIFROST) (by decide)
  obtain ⟨-, h2, h3, -⟩ := buffer_inOrder hw [.disableNetwork, .send,
      .addReadoutVMM3 1 2 ⟨10, 5⟩ ⟨1, 2, 3, 4, 5, 6⟩, .enableNetwork,
      .addReadoutDREAM 3 4 ⟨10, 6⟩ ⟨7, 8, 9⟩]
  exact ⟨rfl, h2, h3⟩

end ReadoutMaster
