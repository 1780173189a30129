/-
  Sequence numbers on the wire.

  `send` begins the next packet itself, and so does the code after the calls of
  `send` in `check_size_and_send` and `update_time`: each of these two skips a
  sequence number.  A run has no gap as long as the packet under construction
  `Continues` the datagrams sent so far; once a number is skipped the next
  datagram leaves a gap.

  * `noGap_iff`: a run has no gap iff at most one `update_time` of it
    completes, and nothing is sent after that (`Gapless`).
-/
import ReadoutMaster.Proof.Clock
import Mathlib.Data.List.Chain

namespace ReadoutMaster

open Readout Machine

variable {R FS : Type}

/-- The sequence number in the header of a datagram. -/
def seqNumOf (bytes : List UInt8) : Option UInt32 :=
  (PacketHeaderV0.codec.dec bytes).map fun (header, _) => header.seqNum

def Follows (a b : Option UInt32) : Prop := ∃ n, a = some n ∧ b = some (n + 1)

/-- The sequence numbers of successive datagrams differ by one. -/
def NoGap (w : World R FS) : Prop := (w.datagrams.map seqNumOf).IsChain Follows

/-- The packet under construction has the next sequence number. -/
def Continues (w : World R FS) : Prop :=
  (w.datagrams.map seqNumOf ++ [some (w.obj.seqNum - 1)]).IsChain Follows

theorem follows_iff {a b : UInt32} : Follows (some a) (some b) ↔ b = a + 1 := by
  simp only [Follows, Option.some.injEq, exists_eq_left']

instance : (a b : Option UInt32) → Decidable (Follows a b)
  | some _, some _ => decidable_of_iff _ follows_iff.symm
  | none, _ => .isFalse fun ⟨_, h, _⟩ => nomatch h
  | _, none => .isFalse fun ⟨_, _, h⟩ => nomatch h

instance (w : World R FS) : Decidable (NoGap w) := inferInstanceAs (Decidable (List.IsChain _ _))

/-! ## Steps -/

section
variable {w w' : World R FS}

theorem Continues.noGap (h : Continues w) : NoGap w := (List.isChain_append.1 h).1

theorem noGap_mono (h : w.datagrams <+: w'.datagrams) (hg : NoGap w') : NoGap w := by
  obtain ⟨rest, hr⟩ := h
  rw [NoGap, ← hr, List.map_append] at hg
  exact (List.isChain_append.1 hg).1

theorem seqNumOf_bytes (h : Wire w) : seqNumOf w.bytes = some (w.obj.seqNum - 1) := by
  rw [seqNumOf, h.dec_bytes]; rfl

theorem datagrams_flushed (hn : w.obj.network = true) :
    w.flushed.datagrams = w.datagrams ++ [w.bytes] := by
  rw [World.flushed_of_enabled hn]
  simp [World.datagrams, World.fresh, World.sentOut]

theorem seqNum_flushed (hn : w.obj.network = true) :
    w.flushed.obj.seqNum = w.obj.seqNum + 1 := by
  rw [World.flushed_of_enabled hn]; rfl

/-- Sending shows whether the packet continued the datagrams before. -/
theorem noGap_flushed (hw : Wire w) (hn : w.obj.network = true) :
    NoGap w.flushed ↔ Continues w := by
  rw [NoGap, Continues, datagrams_flushed hn, List.map_append, List.map_singleton,
    seqNumOf_bytes hw]

theorem isChain_two {α : Type} {r : α → α → Prop} {l : List α} {a b : α} :
    (l ++ [a] ++ [b]).IsChain r ↔ (l ++ [a]).IsChain r ∧ r a b := by
  rw [List.append_assoc, List.singleton_append, List.isChain_split, List.isChain_pair]

/-- After a plain send the next packet continues. -/
theorem continues_flushed (hw : Wire w) (hn : w.obj.network = true) (h : Continues w) :
    Continues w.flushed := by
  have hs : w.obj.seqNum + 1 - 1 = w.obj.seqNum - 1 + 1 := by simp
  rw [Continues, datagrams_flushed hn, seqNum_flushed hn, List.map_append, List.map_singleton,
    seqNumOf_bytes hw, isChain_two, hs]
  exact ⟨h, follows_iff.2 rfl⟩

/-- A second new packet after the send skips a number. -/
theorem not_continues_flushed_fresh (hw : Wire w) (hn : w.obj.network = true) :
    ¬ Continues w.flushed.fresh := by
  have hs : w.flushed.fresh.obj.seqNum = w.obj.seqNum + 1 + 1 := by
    rw [← seqNum_flushed hn]; rfl
  have hd : w.flushed.fresh.datagrams = w.datagrams ++ [w.bytes] := datagrams_flushed hn
  rw [Continues, hs, hd, List.map_append, List.map_singleton, seqNumOf_bytes hw, isChain_two,
    follows_iff]
  rintro ⟨-, h⟩
  have h0 : w.obj.seqNum + 1 + 1 - 1 = w.obj.seqNum + 1 := by simp
  have h1 : w.obj.seqNum - 1 + 1 = w.obj.seqNum := by simp
  rw [h0, h1] at h
  simp at h

/-! ## Moving the pulse -/

/-- The datagram an `update_time` sends continues iff the packet did, the next
    one never does. -/
theorem noGap_advanced (hw : Wire w) (hn : w.obj.network = true) (now prev : EfuTime) :
    (NoGap (w.advanced now prev) ↔ Continues w) ∧ ¬ Continues (w.advanced now prev) :=
  ⟨noGap_flushed (w := w.timed prev) (wire_timed hw prev) hn,
    not_continues_flushed_fresh (w := w.timed prev) (wire_timed hw prev) hn⟩

end

/-! ## Copies -/

/-- The size of the record of a detector type; without an implemented readout
    type nothing is written. -/
def recordSize (d : DetectorType) : ℕ :=
  match readoutTypeFromDetectorType d with
  | .ok t => Record.sizeOf t
  | .error _ => 0

/-- So many readouts of the type fit in a new packet. -/
def FitsPacket (d : DetectorType) (k : ℕ) : Prop :=
  k = 0 ∨ 30 + (k - 1) * recordSize d < MaxDataSize

/-- Nothing was sent or begun since `v`. -/
def Unsent (v w : World R FS) : Prop :=
  w.datagrams = v.datagrams ∧ w.obj.seqNum = v.obj.seqNum

theorem prefix_flushed (w : World R FS) : w.datagrams <+: w.flushed.datagrams := by
  cases hn : w.obj.network with
  | false => rw [World.flushed_of_disabled hn]
  | true => rw [datagrams_flushed hn]; exact List.prefix_append _ _

theorem prefix_recorded (assign : Packed.Memory → ℕ → Packed.Memory) (r : Record)
    (w : World R FS) : w.datagrams <+: (w.recorded assign r).datagrams := by
  show w.datagrams <+: w.room.datagrams
  rcases Nat.lt_or_ge w.obj.dataSize MaxDataSize with hs | hs
  · rw [World.room_of_space hs]
  · rw [World.room_of_full hs]; exact prefix_flushed w

section
variable {v : World R FS} {t : ReadoutType} {ring fen : UInt8} {time : EfuTime} {data : VoidPtr}
  {assign : Packed.Memory → ℕ → Packed.Memory} {r : Record}

theorem wire_copies (hv : Wire v) (ht : readoutTypeFromDetectorType v.obj.type = .ok t)
    (hw : writes t ring fen time data = some (assign, r)) (k : ℕ) :
    Wire ((World.recorded assign r)^[k] v) := by
  induction k with
  | zero => exact hv
  | succ k ih =>
    rw [Function.iterate_succ_apply']
    refine wire_recorded ih ?_ hw
    rw [type_of_settings (World.settings_copies assign r k v)]
    exact ht

/-- As long as the copies fit in the packet nothing is sent; once they do not,
    a packet that does not continue leaves a gap. -/
theorem copies_cases (hv : Wire v) (hn : v.obj.network = true) (hc : ¬ Continues v)
    (hd : v.obj.dataSize = 30) (ht : readoutTypeFromDetectorType v.obj.type = .ok t)
    (hw : writes t ring fen time data = some (assign, r)) (k : ℕ) :
    (FitsPacket v.obj.type k ∧ Unsent v ((World.recorded assign r)^[k] v) ∧
        ((World.recorded assign r)^[k] v).obj.dataSize = 30 + k * recordSize v.obj.type) ∨
      ¬ FitsPacket v.obj.type k ∧ ¬ NoGap ((World.recorded assign r)^[k] v) := by
  have hsize : r.size = recordSize v.obj.type := by
    obtain ⟨h1, -⟩ := writes_spec v.obj.buffer 0 hw
    rw [recordSize, ht, Record.size, h1]
  induction k with
  | zero => exact Or.inl ⟨Or.inl rfl, ⟨rfl, rfl⟩, by simpa using hd⟩
  | succ k ih =>
    have hwire := wire_copies hv ht hw k
    have hs := World.settings_copies assign r k v
    rw [Function.iterate_succ_apply']
    set w := (World.recorded assign r)^[k] v with hwdef
    have hfit : FitsPacket v.obj.type (k + 1) ↔ 30 + k * recordSize v.obj.type < MaxDataSize := by
      simp [FitsPacket]
    rw [hfit]
    rcases ih with ⟨-, ⟨h2, h3⟩, h4⟩ | ⟨h1, h2⟩
    · rcases Nat.lt_or_ge w.obj.dataSize MaxDataSize with hsp | hsp
      · refine Or.inl ⟨h4 ▸ hsp, ⟨?_, ?_⟩, ?_⟩
        · rw [← h2]
          show w.room.datagrams = _
          rw [World.room_of_space hsp]
        · rw [← h3]
          show w.room.obj.seqNum = _
          rw [World.room_of_space hsp]
        · show w.room.obj.dataSize + r.size = _
          rw [World.room_of_space hsp, h4, hsize, Nat.succ_mul, Nat.add_assoc]
      · -- the packet is full: it is sent, and did not continue
        refine Or.inr ⟨h4 ▸ Nat.not_lt.2 hsp, fun hg => hc ?_⟩
        have hg' : NoGap w.room := hg
        rw [World.room_of_full hsp] at hg'
        have hnw : w.obj.network = true := (network_of_settings hs).trans hn
        have hcont := (noGap_flushed hwire hnw).1 hg'
        rwa [Continues, h2, h3] at hcont
    · refine Or.inr ⟨fun hlt => h1 ?_, fun hg => h2 (noGap_mono (prefix_recorded assign r w) hg)⟩
      rcases Nat.eq_zero_or_pos k with rfl | hk
      · exact Or.inl rfl
      · have := Nat.mul_le_mul_right (recordSize v.obj.type) (Nat.sub_le k 1)
        exact Or.inr (by omega)

end

/-! ## Calls -/

section
variable [CDouble R]

theorem prefix_effect {w w' : World R FS} (he : Effect w w') : w.datagrams <+: w'.datagrams := by
  cases he with
  | configured | noted | fresh => exact List.prefix_rfl
  | added ha =>
    cases ha with
    | drawn => exact List.prefix_rfl
    | recorded => exact prefix_recorded _ _ w
  | flushed => exact prefix_flushed w

theorem prefix_effects {w w' : World R FS} (h : Effects w w') : w.datagrams <+: w'.datagrams :=
  h.keeps (fun v => w.datagrams <+: v.datagrams) (fun he h => h.trans (prefix_effect he))
    List.prefix_rfl

theorem unsent_of_not_writes {w w' : World R FS}
    (h : ∀ t, readoutTypeFromDetectorType w.obj.type = .ok t → t = .MAGIC)
    (ha : Relation.ReflTransGen Added w w') : Unsent w w' := by
  obtain ⟨n, rfl⟩ := drawn_of_added h ha
  exact ⟨rfl, rfl⟩

theorem recordSize_of_not_writes {d : DetectorType}
    (h : ∀ t, readoutTypeFromDetectorType d = .ok t → t = .MAGIC) : recordSize d = 0 := by
  rw [recordSize]
  cases ht : readoutTypeFromDetectorType d with
  | error e => rfl
  | ok t => rw [h t ht]; rfl

/-- Adding a readout to a new packet that does not continue. -/
theorem addWeighted_seq {v : World R FS} {ring fen : UInt8} {tof weight : R} {data : VoidPtr}
    (hv : Wire v) (hn : v.obj.network = true) (hf : v.trace.tof = some tof) (hc : ¬ Continues v)
    (hd : v.obj.dataSize = 30) :
    let w := final (addWeighted ring fen (CDouble.toEfu tof + v.obj.time) weight data) v
    (FitsPacket v.obj.type (copiesOf v.obj.randomEngine weight) ∧ Unsent v w) ∨
      ¬ FitsPacket v.obj.type (copiesOf v.obj.randomEngine weight) ∧ ¬ NoGap w := by
  intro w
  by_cases hM : ∀ t, readoutTypeFromDetectorType v.obj.type = .ok t → t = .MAGIC
  · refine Or.inl ⟨?_, unsent_of_not_writes hM (addWeighted_added ring fen weight data hn hf)⟩
    rw [FitsPacket, recordSize_of_not_writes hM]
    exact Or.inr (by rw [Nat.mul_zero]; decide)
  · push Not at hM
    obtain ⟨t, ht, hM⟩ := hM
    obtain ⟨assign, r, hw⟩ := writes_isSome hM ring fen (CDouble.toEfu tof + v.obj.time) data
    have hw' : w = (World.recorded assign r)^[copiesOf v.obj.randomEngine weight]
        (v.drawn (drawsOf v.obj.randomEngine weight)) := final_of_ok (addWeighted_eq weight ht hw)
    have hwire : Wire (v.drawn (drawsOf v.obj.randomEngine weight)) :=
      ⟨hv.header, hv.body, hv.dataSize, hv.room, hv.blank, hv.types, hv.sent⟩
    rw [hw']
    rcases copies_cases hwire hn hc hd ht hw (copiesOf v.obj.randomEngine weight) with
      ⟨h1, h2, -⟩ | ⟨h1, h2⟩
    · exact Or.inl ⟨h1, h2⟩
    · exact Or.inr ⟨h1, h2⟩

variable [HighFive R FS]

/-- Adding a readout without a writer to a new packet that does not
    continue. -/
theorem addReadout_seq {v : World R FS} (ring fen : UInt8) (tof weight : R) (data : VoidPtr)
    (hv : Wire v) (hn : v.obj.network = true) (hwr : v.obj.writer = none) (hc : ¬ Continues v)
    (hd : v.obj.dataSize = 30) :
    let w := final (addReadout ring fen tof weight data) v
    w.obj.settings = (v.noted v.fs tof).obj.settings ∧
      ((FitsPacket v.obj.type (copiesOf v.obj.randomEngine weight) ∧ Unsent v w) ∨
        ¬ FitsPacket v.obj.type (copiesOf v.obj.randomEngine weight) ∧ ¬ NoGap w) := by
  intro w
  have hs : saved v.obj ring fen tof weight data v.fs = .ok () v.fs := by rw [saved, hwr]; rfl
  have hw : w = final (addWeighted ring fen (CDouble.toEfu tof + (v.noted v.fs tof).obj.time)
      weight data) (v.noted v.fs tof) := by
    show final _ v = _
    simp only [final, addReadout_enabled hn hs]
    rfl
  have hv' : Wire (v.noted v.fs tof) :=
    ⟨hv.header, hv.body, hv.dataSize, hv.room, hv.blank, hv.types, hv.sent⟩
  rw [hw]
  exact ⟨settings_added (addWeighted_added ring fen weight data hn rfl),
    addWeighted_seq hv' hn rfl hc hd⟩

/-! ## Runs -/

variable [Host]

/-- The calls of the interface that use the network. -/
def Call.Basic : Call R → Prop
  | .add .. | .setPulseTime _ | .send | .destroy => True
  | _ => False

/-- The readouts a call adds fit in a new packet. -/
def Call.Fits (d : DetectorType) (draws : ℕ → Draw) : Call R → Prop
  | .add _ _ _ _ weight _ => FitsPacket d (copiesOf draws weight)
  | _ => True

/-- The call throws for reference time `T`: its reading is earlier. -/
def Call.Early (T : ℕ) (call : Call R) : Prop :=
  ∃ clock, call.clock = some clock ∧ (EfuTime.now clock).val < T

/-- At most one `update_time` completes, its readouts fit in one packet, and
    every call after it throws. -/
def Gapless (d : DetectorType) (draws : ℕ → Draw) (P T : ℕ) : List (Call R) → Prop
  | [] => True
  | call :: calls =>
    match call.clock with
    | none => Gapless d draws P T calls
    | some clock =>
      if (EfuTime.now clock).val < T then Gapless d draws P T calls
      else call.Fits d draws ∧
        ∀ call' ∈ calls, call'.Early (PulseClock.next P T (EfuTime.now clock).val)

/-- The invariant of an object whose network is enabled, as long as there is no
    gap. -/
structure Numbered (P : EfuTime) (w : World R FS) : Prop where
  wire : Wire w
  clocked : Clocked P w
  network : w.obj.network = true
  noGap : NoGap w

/-- The calls that do not read the clock send. -/
theorem final_unclocked {call : Call R} (hb : call.Basic) (hc : call.clock = none)
    (w : World R FS) : final (step call) w = w.flushed := by
  cases call with
  | add | setPulseTime => cases hc
  | send => exact final_of_ok (step_send w)
  | destroy => exact final_of_ok (step_destroy w)
  | _ => exact hb.elim

/-- A call that moved the pulse leaves the packet as it was if its readouts fit,
    and else a gap. -/
theorem final_clocked {call : Call R} {clock : UInt64} (hc : call.clock = some clock)
    {w : World R FS} {now prev : EfuTime} (hw : Wire w) (hn : w.obj.network = true)
    (hwr : w.obj.writer = none) (hu : updateTime clock w = .ok () (w.advanced now prev)) :
    (final (step call) w).obj.network = true ∧
      ((call.Fits w.obj.type w.obj.randomEngine ∧
          Unsent (w.advanced now prev) (final (step call) w)) ∨
        ¬ call.Fits w.obj.type w.obj.randomEngine ∧ ¬ NoGap (final (step call) w)) := by
  set v := w.advanced now prev with hv
  have hs := World.settings_flushed (w.timed prev)
  have hnv : v.obj.network = true := (network_of_settings hs).trans hn
  have hwv : v.obj.writer = none := (writer_of_settings hs).trans hwr
  have htv : v.obj.type = w.obj.type := (type_of_settings hs).trans rfl
  have hrv : v.obj.randomEngine = w.obj.randomEngine :=
    (World.randomEngine_flushed (w.timed prev)).trans rfl
  have hcv := (noGap_advanced hw hn now prev).2
  cases call with
  | add c ring fen tof weight data =>
    obtain rfl : c = clock := Option.some.inj hc
    obtain ⟨h1, h2⟩ := addReadout_seq ring fen tof weight data (wire_advanced hw now prev) hnv hwv
      hcv rfl
    rw [final_add hu, ← htv, ← hrv]
    exact ⟨(network_of_settings h1).trans hnv, h2⟩
  | setPulseTime c =>
    obtain rfl : c = clock := Option.some.inj hc
    have hstep : final (step (.setPulseTime c)) w = v := final_of_ok hu
    rw [hstep]
    exact ⟨hnv, Or.inl ⟨trivial, rfl, rfl⟩⟩
  | _ => cases hc

theorem prefix_runCalls (w : World R FS) (calls : List (Call R)) :
    w.datagrams <+: (runCalls w calls).datagrams :=
  runCalls_keeps (fun v => w.datagrams <+: v.datagrams)
    (fun he h => h.trans (prefix_effect he))
    (fun {v} _ _ prev _ _ h => h.trans (prefix_flushed (v.timed prev))) List.prefix_rfl calls

/-- Once a number is skipped, a run has no gap iff every call of it throws. -/
theorem noGap_skipped {P : EfuTime} (hP : P.Canonical) {calls : List (Call R)} {w : World R FS}
    (hw : Numbered P w) (hc : ¬ Continues w) (hb : ∀ call ∈ calls, call.Basic) :
    NoGap (runCalls w calls) ↔ ∀ call ∈ calls, call.Early w.obj.time.val := by
  induction calls with
  | nil => simpa using hw.noGap
  | cons call calls ih =>
    have ih := ih fun c h => hb c (List.mem_cons_of_mem _ h)
    rw [List.forall_mem_cons, runCalls, run_cons]
    have hgap : ¬ NoGap (final (step call) w) → ¬ call.Early w.obj.time.val →
        (NoGap (runCalls (final (step call) w) calls) ↔
          call.Early w.obj.time.val ∧ ∀ c ∈ calls, c.Early w.obj.time.val) := fun h1 h2 =>
      iff_of_false (fun h => h1 (noGap_mono (prefix_runCalls _ calls) h)) fun h => h2 h.1
    cases hcl : call.clock with
    | none =>
      have hf := final_unclocked (hb call List.mem_cons_self) hcl w
      refine hgap ?_ fun ⟨clock, h, _⟩ => by rw [hcl] at h; cases h
      rw [hf, noGap_flushed hw.wire hw.network]
      exact hc
    | some clock =>
      rcases step_clocked_spec hw.clocked hP hcl with ⟨h1, h2⟩ | ⟨h1, now, prev, -, -, -, h2⟩
      · rw [h2, ih, and_iff_right]
        exact ⟨clock, hcl, h1⟩
      · refine hgap (fun h => hc ?_) fun ⟨clock', h3, h4⟩ => ?_
        · exact (noGap_advanced hw.wire hw.network now prev).1.1
            (noGap_mono (prefix_effects h2) h)
        · rw [hcl] at h3
          obtain rfl := Option.some.inj h3
          omega

/-- As long as the packet under construction continues, a run has no gap iff it
    is gapless. -/
theorem noGap_continues {P : EfuTime} (hP : P.Canonical) {calls : List (Call R)} {w : World R FS}
    (hw : Numbered P w) (hwr : w.obj.writer = none) (hc : Continues w)
    (hb : ∀ call ∈ calls, call.Basic) :
    NoGap (runCalls w calls) ↔
      Gapless w.obj.type w.obj.randomEngine P.val w.obj.time.val calls := by
  induction calls generalizing w with
  | nil => exact iff_of_true hw.noGap trivial
  | cons call calls ih =>
    have hb' : ∀ c ∈ calls, c.Basic := fun c h => hb c (List.mem_cons_of_mem _ h)
    rw [runCalls, run_cons]
    cases hcl : call.clock with
    | none =>
      have hs := World.settings_flushed w
      have hc' := continues_flushed hw.wire hw.network hc
      have hw' : Numbered P w.flushed := ⟨wire_flushed hw.wire, hw.clocked.of_settings hs,
        (network_of_settings hs).trans hw.network, hc'.noGap⟩
      have ih := ih hw' ((writer_of_settings hs).trans hwr) hc' hb'
      rw [type_of_settings hs, time_of_settings hs, World.randomEngine_flushed] at ih
      rw [final_unclocked (hb call List.mem_cons_self) hcl, ih]
      simp only [Gapless, hcl]
    | some clock =>
      rcases step_clocked_spec hw.clocked hP hcl with
        ⟨h1, h2⟩ | ⟨h1, now, prev, hl, hnext, hu, h2⟩
      · rw [h2, ih hw hwr hc hb']
        simp only [Gapless, hcl, if_pos h1]
      · simp only [Gapless, hcl, if_neg (Nat.not_lt.2 h1)]
        have hadv := noGap_advanced hw.wire hw.network now prev
        obtain ⟨hn', h3⟩ := final_clocked hcl hw.wire hw.network hwr hu
        rcases h3 with ⟨hfit, hd, hq⟩ | ⟨hfit, hgap⟩
        · have hwire : Wire (final (step call) w) := wire_runCalls hw.wire [call]
          have hclk : Clocked P (final (step call) w) := clocked_runCalls hP hw.clocked [call]
          have hng : NoGap (final (step call) w) := by
            rw [NoGap, hd]; exact hadv.1.2 hc
          have hsk : ¬ Continues (final (step call) w) := by
            rw [Continues, hd, hq]; exact hadv.2
          have ht : (final (step call) w).obj.time.val =
              PulseClock.next P.val w.obj.time.val (EfuTime.now clock).val := by
            rw [time_effects h2]; exact hnext
          rw [noGap_skipped hP ⟨hwire, hclk, hn', hng⟩ hsk hb', ht, and_iff_right hfit]
        · exact iff_of_false (fun h => hgap (noGap_mono (prefix_runCalls _ calls) h))
            fun h => hfit h.1

/-- **Sequence numbers.**  A run of the interface has no gap in its sequence
    numbers iff at most one `update_time` of it completes, with readouts that
    fit in one packet, and every call after that throws. -/
theorem noGap_iff {clock₀ : UInt64} {frequency : R} {type : Int} {fs : FS}
    {socket : ℕ → SendResult} {draws : ℕ → Draw} {w₀ : World R FS} {calls : List (Call R)}
    (hw : readoutCreate clock₀ frequency type fs socket draws = .ok w₀)
    (hb : ∀ call ∈ calls, call.Basic) :
    NoGap (runCalls w₀ calls) ↔
      Gapless w₀.obj.type draws w₀.obj.period.val (EfuTime.now clock₀).val calls := by
  obtain ⟨-, hPc, hk⟩ := clocked_create hw
  have hwire := wire_make hw
  obtain ⟨d, prev, -, -, rfl⟩ := make_ok hw
  exact noGap_continues hPc ⟨hwire, hk, rfl, List.isChain_nil⟩ rfl (List.isChain_singleton _) hb

end

/-- One completed `update_time`, and an early one after it. -/
theorem noGap_iff_atTen : NoGap (runCalls (atTen .BIFROST)
    [.send, .setPulseTime 11500000000, .setPulseTime 10500000000]) := by
  refine (noGap_iff (create_atTen .BIFROST) (by simp [Call.Basic])).2 ?_
  simp only [Gapless, Call.clock]
  rw [if_neg (by decide +kernel)]
  refine ⟨trivial, ?_⟩
  intro call h
  obtain rfl := List.mem_singleton.1 h
  exact ⟨10500000000, rfl, by decide +kernel⟩

/-- Two completed calls of `update_time` skip a sequence number. -/
theorem seqNum_gap : ∃ (w₀ : World ℚ (Disk ℚ)) (calls : List (Call ℚ)),
    readoutCreate 10000000000 (1 : ℚ) 0x34 Disk.blank openSocket ones = .ok w₀ ∧
    (∀ call ∈ calls, call.Basic) ∧
    (runCalls w₀ calls).datagrams.map seqNumOf = [some 0, some 2] ∧ ¬ NoGap (runCalls w₀ calls) :=
  ⟨atTen .BIFROST, [.setPulseTime 11500000000, .setPulseTime 12500000000],
    create_atTen .BIFROST, by simp [Call.Basic], by decide +kernel, by decide +kernel⟩

end ReadoutMaster
