/-
  When `readout_add` hands over a datagram.

  `update_time`, which `readout_add` calls first, sends the packet under
  construction whatever the clock says.  `batches_iff`: every datagram of a run
  of `readout_add` calls is full, or begun a pulse period or more before the
  pulse that ends it, iff every call whose reading is not earlier than the
  reference time finds a full packet, or is a period or more ahead.
-/
import ReadoutMaster.Proof.Buffer
import ReadoutMaster.Proof.Clock

namespace ReadoutMaster

open Readout Machine Relation

variable {R FS : Type}

/-- The reference pulse in the header of a datagram. -/
def pulseOf (bytes : List UInt8) : Option EfuTime :=
  (PacketHeaderV0.codec.dec bytes).map fun (header, _) => header.pulse

/-- The packet is full, or the pulse is a period `P` or more ahead of the one
    it was begun with. -/
def Sent.Due (P : ℕ) (pulse : EfuTime) (s : Sent R) : Prop :=
  MaxDataSize ≤ s.bytes.length ∨ ∃ p ∈ pulseOf s.bytes, p.val + P ≤ pulse.val

instance (P : ℕ) (pulse : EfuTime) (s : Sent R) : Decidable (s.Due P pulse) :=
  inferInstanceAs (Decidable (_ ∨ _))

/-- The call is a `readout_add`. -/
def Call.IsAdd : Call R → Prop
  | .add .. => True
  | _ => False

instance (call : Call R) : Decidable call.IsAdd :=
  match call with
  | .add .. => .isTrue trivial
  | .setPulseTime _ | .send | .newPacket | .enableNetwork | .disableNetwork | .verbose _
  | .dumpTo _ | .destroy => .isFalse id

/-- The reading of the call is too early, or it finds a full packet, or it is a
    period or more ahead of the reference time, by a number of periods that is
    not a multiple of `2 ^ 32`. -/
def Call.Spaced (w : World R FS) : Call R → Prop
  | .add clock .. =>
    let c := (EfuTime.now clock).val
    c < w.obj.time.val ∨ MaxDataSize ≤ w.obj.dataSize ∨
      w.obj.time.val + w.obj.period.val ≤ c ∧
        (c - w.obj.time.val) / w.obj.period.val % 2 ^ 32 ≠ 0
  | _ => True

instance (w : World R FS) (call : Call R) : Decidable (call.Spaced w) :=
  match call with
  | .add .. => inferInstanceAs (Decidable (_ ∨ _))
  | .setPulseTime _ | .send | .newPacket | .enableNetwork | .disableNetwork | .verbose _
  | .dumpTo _ | .destroy => .isTrue trivial

section
variable [CDouble R] [HighFive R FS] [Host]

/-- Every datagram the call hands over is due. -/
def SendsDue (w : World R FS) (call : Call R) : Prop :=
  let w' := final (step call) w
  ∀ s ∈ w'.trace.sent.drop w.trace.sent.length, s.Due w.obj.period.val w'.obj.lastPulseTime

instance (w : World R FS) (call : Call R) : Decidable (SendsDue w call) :=
  inferInstanceAs (Decidable (∀ _ ∈ _, _))

/-- What the calls of a run keep. -/
structure Batching (P : EfuTime) (w : World R FS) : Prop where
  wire : Wire w
  clocked : Clocked P w
  network : w.obj.network = true

variable {P : EfuTime} {w : World R FS}

omit [CDouble R] [HighFive R FS] [Host] in
theorem pulseOf_bytes (h : Wire w) : pulseOf w.bytes = some w.obj.lastPulseTime := by
  rw [pulseOf, h.dec_bytes]
  rfl

omit [CDouble R] [HighFive R FS] [Host] in
/-- The packet under construction, handed over as the pulse moves. -/
theorem due_bytes (h : Batching P w) {pulse : EfuTime} :
    Sent.Due P.val pulse ⟨w.bytes, w.trace.pending⟩ ↔
      MaxDataSize ≤ w.obj.dataSize ∨ w.obj.time.val + P.val ≤ pulse.val := by
  rw [Sent.Due, pulseOf_bytes h.wire, World.bytes, Packed.Memory.length_load, h.clocked.pulse]
  simp only [Option.mem_def, Option.some.injEq, exists_eq_left']

omit [Host] in
/-- A `readout_add` throws and leaves the world as it was if its reading is too
    early.  Otherwise it hands over the packet under construction, moves the
    pulse, and hands over full packets. -/
theorem readoutAdd_cases (h : Batching P w) (hP : P.Canonical) (clock : UInt64) (ring fen : UInt8)
    (tof weight : R) (data : VoidPtr) :
    let w' := final (readoutAdd clock ring fen tof weight data) w
    ((EfuTime.now clock).val < w.obj.time.val ∧ w' = w) ∨
      w.obj.time.val ≤ (EfuTime.now clock).val ∧ w'.obj.network = true ∧
        w'.obj.lastPulseTime.val =
          PulseClock.next P.val w.obj.time.val (EfuTime.now clock).val ∧
        ∃ new, w'.trace.sent = w.trace.sent ++ ⟨w.bytes, w.trace.pending⟩ :: new ∧
          ∀ s ∈ new, MaxDataSize ≤ s.bytes.length := by
  intro w'
  rcases updateTime_spec h.clocked hP clock with ⟨h1, he⟩ | ⟨h1, now, prev, hl, he, -, hnow, -, -⟩
  · exact Or.inl ⟨h1, final_of_error (step_add_error he ring fen tof weight data)⟩
  · set v := w.advanced now prev with hv
    have hw' : w' = final (addReadout ring fen tof weight data) v :=
      final_add he ring fen tof weight data
    have hvn : v.obj.network = true :=
      (network_of_settings (World.settings_flushed (w.timed prev))).trans h.network
    have hvs : v.trace.sent = w.trace.sent ++ [⟨w.bytes, w.trace.pending⟩] := by
      have hf : (w.timed prev).flushed = (w.timed prev).sentOut.fresh :=
        World.flushed_of_enabled h.network
      rw [hv, World.advanced, hf]
      rfl
    obtain ⟨hn, -, hpulse⟩ := addReadout_leaves ring fen tof weight data v
    have hfull : SendsFull v w' := by
      rw [hw']
      exact sendsFull_addReadout ring fen tof weight data v
    obtain ⟨new, hnew, hfull⟩ := hfull
    rw [← hw'] at hn hpulse
    have hpulse' : w'.obj.lastPulseTime = now := hpulse
    refine Or.inr ⟨h1, hn.trans hvn, by rw [hpulse', hnow], new, ?_, hfull⟩
    rw [hnew, hvs, List.append_assoc, List.singleton_append]

theorem batching_step (h : Batching P w) (hP : P.Canonical) {call : Call R} (hc : call.IsAdd) :
    Batching P (final (step call) w) := by
  refine ⟨wire_runCalls h.wire [call], clocked_runCalls hP h.clocked [call], ?_⟩
  cases call with
  | add clock ring fen tof weight data =>
    rcases readoutAdd_cases h hP clock ring fen tof weight data with ⟨-, h1⟩ | ⟨-, h1, -⟩
    · exact (congrArg (fun v => v.obj.network) h1).trans h.network
    · exact h1
  | _ => exact hc.elim

/-- A call hands over due datagrams alone iff it is spaced. -/
theorem sendsDue_iff (h : Batching P w) (hP : P.Canonical) (hpos : 0 < P.val) {call : Call R}
    (hc : call.IsAdd) : SendsDue w call ↔ call.Spaced w := by
  cases call with
  | add clock ring fen tof weight data =>
    rw [SendsDue, h.clocked.period, Call.Spaced, h.clocked.period]
    show (∀ s ∈ (final (readoutAdd clock ring fen tof weight data) w).trace.sent.drop _,
      s.Due _ (final (readoutAdd clock ring fen tof weight data) w).obj.lastPulseTime) ↔ _
    rcases readoutAdd_cases h hP clock ring fen tof weight data with
      ⟨h1, h2⟩ | ⟨h1, -, h3, new, h4, h5⟩
    · rw [h2, List.drop_length]
      exact iff_of_true (by simp) (Or.inl h1)
    · rw [h4, List.drop_left, List.forall_mem_cons, due_bytes h, h3,
        PulseClock.add_le_next_iff hpos h1]
      constructor
      · rintro ⟨hd, -⟩
        exact Or.inr hd
      · rintro (hlt | hd)
        · omega
        · exact ⟨hd, fun s hs => Or.inl (h5 s hs)⟩
  | _ => exact hc.elim

/-- **Batching.**  Every datagram of a run of `readout_add` calls is full, or
    begun a period or more before the pulse that ends it, iff every call whose
    reading is not too early finds a full packet or is a period or more
    ahead. -/
theorem batches_iff {clock₀ : UInt64} {frequency : R} {type : Int} {fs : FS}
    {socket : ℕ → SendResult} {draws : ℕ → Draw} {w₀ : World R FS} {calls : List (Call R)}
    (hw : readoutCreate clock₀ frequency type fs socket draws = .ok w₀)
    (hP : 0 < w₀.obj.period.val) (hc : ∀ call ∈ calls, call.IsAdd) :
    Along step SendsDue w₀ calls ↔ Along step (fun w call => call.Spaced w) w₀ calls := by
  obtain ⟨-, hPc, hk⟩ := clocked_create hw
  have h0 : Batching w₀.obj.period w₀ := by
    refine ⟨wire_make hw, hk, ?_⟩
    obtain ⟨d, prev, -, -, rfl⟩ := make_ok hw
    rfl
  exact along_congr h0 (fun call hcall v hv => batching_step hv hPc (hc call hcall))
    (fun call hcall v hv => sendsDue_iff hv hPc hP (hc call hcall))

end

/-- Readings a period apart. -/
theorem batches_iff_atTen : Along step SendsDue (atTen .BIFROST)
    ([.add 11000000000 1 2 (1 / 10) 0 VoidPtr.blank, .add 12500000000 3 4 (1 / 5) 0 VoidPtr.blank] :
      List (Call ℚ)) :=
  (batches_iff (create_atTen .BIFROST) (by decide) (by decide +kernel)).2 (by decide +kernel)

/-- Three readouts added at the same time, half a period after the creation,
    end up in a packet each. -/
theorem packet_each : ∃ (w₀ : World ℚ (Disk ℚ)) (calls : List (Call ℚ)),
    readoutCreate 10000000000 (1 : ℚ) 0x34 Disk.blank openSocket ones = .ok w₀ ∧
    0 < w₀.obj.period.val ∧ (∀ call ∈ calls, call.IsAdd) ∧
    ((EfuTime.now 10000000000).val :: readings calls).IsChain (· ≤ ·) ∧
    (runCalls w₀ calls).datagrams.map List.length = [30, 54, 54] ∧
    ¬ Along step SendsDue w₀ calls :=
  ⟨atTen .BIFROST, List.replicate 3 (.add 10500000000 1 2 (1 / 10) 0 VoidPtr.blank),
    create_atTen .BIFROST, by decide, by decide +kernel, by decide +kernel, by decide +kernel,
    by decide +kernel⟩

end ReadoutMaster
