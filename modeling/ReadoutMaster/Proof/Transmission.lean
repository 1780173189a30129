/-
  What a run transmits does not depend on the clock.

  `Conveys d items w` says what a receiver makes of the datagrams sent so far
  and of the packet under construction: exactly the items, each at its offset
  from the pulse in the header of its own packet.  Moving the pulse sends the
  packet first, so it keeps this, and an accepted call appends its item.

  * `transmits_accepted`: after any run that ends with `readout_destroy`, a
    receiver decodes the items of the calls of `readout_add` that returned;
  * `retimed`: two runs that add the same readouts transmit the same items,
    whatever clock, period, sends and moves of the pulse each has.
-/
import ReadoutMaster.Proof.Record
import ReadoutMaster.Proof.Clock

namespace ReadoutMaster

open Readout Machine

variable {R FS : Type}

/-! ## Packets -/

/-- The records of a packet, each with the pulse in its header. -/
def Packet.seen (p : Packet) : List (EfuTime × Record) :=
  p.records.map fun r => (p.header.pulse, r)

/-- The record is the item at its offset from the pulse. -/
def Item.At (s : EfuTime × Record) (i : Item) : Prop := s.2 = i.sent s.1

/-- The datagrams sent and the packet under construction hold the items. -/
structure Conveys (d : DetectorType) (items : List Item) (w : World R FS) : Prop where
  wire : Wire w
  type : w.obj.type = d
  network : w.obj.network = true
  seen : ∃ packets : List Packet, List.Forall₂ (Sent.Encodes d) w.trace.sent packets ∧
    List.Forall₂ Item.At (packets.flatMap Packet.seen ++ w.packet.seen) items

section
variable {d : DetectorType} {items : List Item} {w : World R FS}

theorem seen_of_records {w : World R FS} (h : w.records = []) : w.packet.seen = [] := by
  show w.records.map _ = []
  rw [h]
  rfl

/-- With the packet sent, nothing of it is left. -/
theorem conveys_flushed (h : Conveys d items w) : Conveys d items w.flushed := by
  have hs := World.settings_flushed w
  refine ⟨wire_flushed h.wire, (type_of_settings hs).trans h.type,
    (network_of_settings hs).trans h.network, ?_⟩
  obtain ⟨packets, henc, hat⟩ := h.seen
  refine ⟨packets ++ [w.packet], ?_, ?_⟩
  · rw [World.flushed_of_enabled h.network]
    exact List.rel_append henc (.cons (h.type ▸ h.wire.encodes) .nil)
  · rwa [seen_of_records (records_flushed h.network), List.append_nil, List.flatMap_append,
      List.flatMap_singleton]

/-- A new packet loses nothing when none is pending. -/
theorem conveys_fresh (h : Conveys d items w) (hr : w.records = []) : Conveys d items w.fresh := by
  refine ⟨wire_fresh h.wire.sent, h.type, h.network, ?_⟩
  obtain ⟨packets, henc, hat⟩ := h.seen
  rw [seen_of_records hr] at hat
  exact ⟨packets, henc, by rwa [seen_of_records (w := w.fresh) rfl]⟩

theorem conveys_room (h : Conveys d items w) : Conveys d items w.room := by
  rcases Nat.lt_or_ge w.obj.dataSize MaxDataSize with hs | hs
  · rwa [World.room_of_space hs]
  · rw [World.room_of_full hs]
    exact conveys_fresh (conveys_flushed h) (records_flushed h.network)

theorem conveys_timed (h : Conveys d items w) (t : EfuTime) : Conveys d items (w.timed t) :=
  ⟨wire_timed h.wire t, h.type, h.network, h.seen⟩

/-- The packet under construction is sent before the pulse moves. -/
theorem conveys_advanced (h : Conveys d items w) (now prev : EfuTime) :
    Conveys d items (w.advanced now prev) := by
  have hf := conveys_flushed (conveys_timed h prev)
  refine ⟨wire_advanced h.wire now prev, hf.type, hf.network, ?_⟩
  obtain ⟨packets, henc, hat⟩ := hf.seen
  rw [seen_of_records (records_flushed (w := w.timed prev) h.network)] at hat
  exact ⟨packets, henc, by rwa [seen_of_records (w := w.advanced now prev) rfl]⟩

/-! ## Records -/

section
variable {t : ReadoutType} {ring fen : UInt8} {data : VoidPtr}

/-- What an item writes with the pulse as reference time. -/
def Item.Writes (t : ReadoutType) (ring fen : UInt8) (data : VoidPtr) (item : Item)
    (time : EfuTime) (assign : Packed.Memory → ℕ → Packed.Memory) : Prop :=
  writes t ring fen (item.offset + time) data = some (assign, item.sent time)

variable {assign : Packed.Memory → ℕ → Packed.Memory}

/-- A record is added at its offset from the pulse of the packet it ends up
    in. -/
theorem conveys_recorded (item : Item) (h : Conveys d items w)
    (hp : w.obj.lastPulseTime = w.obj.time) (ht : readoutTypeFromDetectorType d = .ok t)
    (hw : item.Writes t ring fen data w.obj.time assign) :
    Conveys d (items ++ [item]) (w.recorded assign (item.sent w.obj.time)) := by
  have hroom := conveys_room h
  have hs := World.settings_recorded assign (item.sent w.obj.time) w
  refine ⟨wire_recorded h.wire (h.type ▸ ht) hw, (type_of_settings hs).trans h.type,
    (network_of_settings hs).trans h.network, ?_⟩
  obtain ⟨packets, henc, hat⟩ := hroom.seen
  refine ⟨packets, henc, ?_⟩
  have hseen : (w.recorded assign (item.sent w.obj.time)).packet.seen =
      w.room.packet.seen ++ [(w.room.obj.lastPulseTime, item.sent w.obj.time)] := by
    show (World.records _).map _ = _
    rw [World.recorded, records_written, List.map_append]
    rfl
  rw [hseen, ← List.append_assoc]
  refine List.rel_append hat (.cons ?_ .nil)
  show item.sent w.obj.time = item.sent w.room.obj.lastPulseTime
  rw [(pulses_of_settings (World.settings_room w)).1, hp]

theorem conveys_copies (item : Item) (h : Conveys d items w) (hp : w.obj.lastPulseTime = w.obj.time)
    (ht : readoutTypeFromDetectorType d = .ok t)
    (hw : item.Writes t ring fen data w.obj.time assign) (k : ℕ) :
    Conveys d (items ++ List.replicate k item)
      ((World.recorded assign (item.sent w.obj.time))^[k] w) := by
  induction k with
  | zero => rwa [List.replicate_zero, List.append_nil]
  | succ k ih =>
    have hs := World.settings_copies assign (item.sent w.obj.time) k w
    have htime := time_of_settings hs
    rw [Function.iterate_succ_apply', List.replicate_succ', ← List.append_assoc]
    have hrec := conveys_recorded item ih
      (((pulses_of_settings hs).1.trans hp).trans htime.symm) ht (by rwa [htime])
    rwa [htime] at hrec

end

/-! ## Calls -/

section
variable [CDouble R] {t : ReadoutType}

/-- The item of a call, as often as the draws say. -/
def AddCall.copies (t : ReadoutType) (draws : ℕ → Draw) (c : AddCall R) : List Item :=
  (c.item t).toList.flatMap (List.replicate (copiesOf draws c.weight))

/-- The object conveys the items so far, and the pulse is the reference
    time. -/
structure Transmitting (d : DetectorType) (items : List Item) (draws : ℕ → Draw) (w : World R FS) :
    Prop where
  conveys : Conveys d items w
  pulse : w.obj.lastPulseTime = w.obj.time
  draws : w.obj.randomEngine = draws

section
omit [CDouble R]
variable {draws : ℕ → Draw}

/-- Files, verbosity and writer make no difference to the packets. -/
theorem Transmitting.configured (h : Transmitting d items draws w) (fs : FS) (verbosity : Int)
    (writer : Option Writer) :
    Transmitting d items draws { w with fs, obj := { w.obj with verbosity, writer } } :=
  ⟨⟨⟨h.conveys.wire.header, h.conveys.wire.body, h.conveys.wire.dataSize, h.conveys.wire.room,
    h.conveys.wire.blank, h.conveys.wire.types, h.conveys.wire.sent⟩, h.conveys.type,
    h.conveys.network, h.conveys.seen⟩, h.pulse, h.draws⟩

theorem Transmitting.of_files (h : Transmitting d items draws w) (fs : FS) :
    Transmitting d items draws { w with fs } :=
  h.configured fs w.obj.verbosity w.obj.writer

theorem transmitting_flushed (h : Transmitting d items draws w) :
    Transmitting d items draws w.flushed := by
  have hs := World.settings_flushed w
  refine ⟨conveys_flushed h.conveys, ?_, (World.randomEngine_flushed w).trans h.draws⟩
  exact ((pulses_of_settings hs).1.trans h.pulse).trans (time_of_settings hs).symm

theorem transmitting_advanced (h : Transmitting d items draws w) (now prev : EfuTime) :
    Transmitting d items draws (w.advanced now prev) :=
  ⟨conveys_advanced h.conveys now prev, rfl,
    (World.randomEngine_flushed (w.timed prev)).trans h.draws⟩

end

variable [HighFive R FS] {draws : ℕ → Draw}

/-- Once its event is saved, a call of `addReadout` conveys its item as often
    as the draws say. -/
theorem transmitting_saved (h : Transmitting d items draws w)
    (ht : readoutTypeFromDetectorType d = .ok t) (hM : t ≠ .MAGIC) (c : AddCall R) {fs : FS}
    (hs : saved w.obj c.ring c.fen c.tof c.weight c.data w.fs = .ok () fs) :
    ∃ w', c.perform addReadout w = .ok () w' ∧
      Transmitting d (items ++ c.copies t draws)
        (fun n => draws (n + drawsOf draws c.weight)) w' := by
  obtain ⟨hc, hp, rfl⟩ := h
  obtain ⟨assign, r, hw⟩ :=
    writes_isSome hM c.ring c.fen (CDouble.toEfu c.tof + w.obj.time) c.data
  obtain ⟨assign₀, r₀, hw₀, rfl⟩ := writes_stamped hw
  let item : Item := ⟨CDouble.toEfu c.tof, r₀⟩
  let v := (w.noted fs c.tof).drawn (drawsOf w.obj.randomEngine c.weight)
  have hv : Conveys d items v :=
    ⟨⟨hc.wire.header, hc.wire.body, hc.wire.dataSize, hc.wire.room, hc.wire.blank,
      hc.wire.types, hc.wire.sent⟩, hc.type, hc.network, hc.seen⟩
  have hadd : c.perform addReadout w = .ok () ((World.recorded assign (item.sent w.obj.time))^[
      copiesOf w.obj.randomEngine c.weight] v) := by
    rw [AddCall.perform, addReadout_enabled hc.network hs]
    exact addWeighted_eq c.weight (w := w.noted fs c.tof) (hc.type ▸ ht) hw
  have hset := World.settings_copies assign (item.sent w.obj.time)
    (copiesOf w.obj.randomEngine c.weight) v
  have hitems : c.copies t w.obj.randomEngine =
      List.replicate (copiesOf w.obj.randomEngine c.weight) item := by
    rw [AddCall.copies, AddCall.item, hw₀]
    exact List.flatMap_singleton ..
  refine ⟨_, hadd, ?_, ?_, (World.randomEngine_copies _ _ _ v).trans rfl⟩
  · rw [hitems]
    exact conveys_copies item hv hp ht hw _
  · exact ((pulses_of_settings hset).1.trans hp).trans (time_of_settings hset).symm

/-- A call of `addReadout` throws before it adds anything, or conveys its
    item. -/
theorem transmitting_add (h : Transmitting d items draws w)
    (ht : readoutTypeFromDetectorType d = .ok t) (hM : t ≠ .MAGIC) (c : AddCall R) :
    (∃ e fs, c.perform addReadout w = .error e { w with fs }) ∨
      ∃ w', c.perform addReadout w = .ok () w' ∧
        Transmitting d (items ++ c.copies t draws)
          (fun n => draws (n + drawsOf draws c.weight)) w' := by
  cases hs : saved w.obj c.ring c.fen c.tof c.weight c.data w.fs with
  | error e fs => exact Or.inl ⟨e, fs, addReadout_error hs⟩
  | ok u fs => exact Or.inr (transmitting_saved h ht hM c hs)

variable [Host]

omit [CDouble R] in
theorem dumpTo_configured (filename datasetName : String) (w : World R FS) :
    ∃ fs writer, final (dumpTo filename datasetName) w =
      { w with fs, obj := { w.obj with writer } } := by
  simp only [final, dumpTo, self_bind]
  cases readoutTypeFromDetectorType w.obj.type with
  | error e => exact ⟨w.fs, w.obj.writer, rfl⟩
  | ok t =>
    rw [lift_ok_bind]
    cases h : Writer.make filename w.obj.type t datasetName w.fs with
    | error e fs => exact ⟨fs, w.obj.writer, by rw [bind_of_error (onFiles_error h)]⟩
    | ok writer fs => exact ⟨fs, some writer, by rw [bind_of_ok (onFiles_ok h)]; rfl⟩

end

end

/-! ## Runs -/

/-- The call neither pauses the network, nor throws the packet away, nor
    destroys the object. -/
def Call.Flows : Call R → Prop
  | .newPacket | .disableNetwork | .destroy => False
  | _ => True

instance (call : Call R) : Decidable call.Flows :=
  match call with
  | .newPacket | .disableNetwork | .destroy => .isFalse id
  | .add .. | .setPulseTime _ | .send | .enableNetwork | .verbose _ | .dumpTo _ => .isTrue trivial

/-- The readout a call adds. -/
def Call.readout : Call R → Option (AddCall R)
  | .add _ ring fen tof weight data => some ⟨ring, fen, tof, weight, data⟩
  | _ => none

section
variable [CDouble R] [HighFive R FS] [Host] {d : DetectorType} {t : ReadoutType}
  {items : List Item} {draws : ℕ → Draw} {w : World R FS}

/-- The readout of a call that returns. -/
def acceptedBy (w : World R FS) (call : Call R) : List (AddCall R) :=
  if Returns (step call) w then call.readout.toList else []

/-- The readouts of the calls of a run that return. -/
def accepted : World R FS → List (Call R) → List (AddCall R)
  | _, [] => []
  | w, call :: calls => acceptedBy w call ++ accepted (final (step call) w) calls

theorem acceptedBy_of_none {call : Call R} (h : call.readout = none) : acceptedBy w call = [] := by
  rw [acceptedBy, h]
  split_ifs <;> rfl

/-- A call that is accepted conveys its items; any other one changes nothing
    for the receiver. -/
theorem transmitting_step (h : Transmitting d items draws w)
    (ht : readoutTypeFromDetectorType d = .ok t) (hM : t ≠ .MAGIC) {call : Call R}
    (hk : call.Flows) :
    (acceptedBy w call = [] ∧ Transmitting d items draws (final (step call) w)) ∨
      ∃ c, acceptedBy w call = [c] ∧ Transmitting d (items ++ c.copies t draws)
        (fun n => draws (n + drawsOf draws c.weight)) (final (step call) w) := by
  cases call with
  | newPacket | disableNetwork | destroy => exact hk.elim
  | add clock ring fen tof weight data =>
    have herror : ∀ {e v}, step (.add clock ring fen tof weight data) w = .error e v →
        acceptedBy w (.add clock ring fen tof weight data) = [] := fun he =>
      if_neg (not_returns_of_error he)
    rcases updateTime_cases w clock with ⟨e, he⟩ | ⟨now, prev, -, -, hu⟩
    · have hstep := step_add_error he ring fen tof weight data
      exact Or.inl ⟨herror hstep, by rwa [final_of_error hstep]⟩
    · have hadv := transmitting_advanced h now prev
      have hstep := step_add hu ring fen tof weight data
      rcases transmitting_add hadv ht hM ⟨ring, fen, tof, weight, data⟩ with
        ⟨e, fs, he⟩ | ⟨w', hok, hw'⟩
      · have he' := hstep.trans he
        exact Or.inl ⟨herror he', by rw [final_of_error he']; exact hadv.of_files fs⟩
      · have hok' := hstep.trans hok
        refine Or.inr ⟨⟨ring, fen, tof, weight, data⟩, if_pos ⟨(), w', hok'⟩, ?_⟩
        rwa [final_of_ok hok']
  | setPulseTime clock =>
    refine Or.inl ⟨acceptedBy_of_none rfl, ?_⟩
    rcases updateTime_cases w clock with ⟨e, he⟩ | ⟨now, prev, -, -, hu⟩
    · have hstep : step (.setPulseTime clock : Call R) w = .error e w := he
      rwa [final_of_error hstep]
    · have hstep : step (.setPulseTime clock : Call R) w = .ok () (w.advanced now prev) := hu
      rw [final_of_ok hstep]
      exact transmitting_advanced h now prev
  | send =>
    refine Or.inl ⟨acceptedBy_of_none rfl, ?_⟩
    rw [final_of_ok (step_send w)]
    exact transmitting_flushed h
  | enableNetwork =>
    refine Or.inl ⟨acceptedBy_of_none rfl, ?_⟩
    have hsame : final (step (.enableNetwork : Call R)) w = w := by
      show { w with obj := { w.obj with network := true } } = w
      rw [← h.conveys.network]
    rwa [hsame]
  | verbose v =>
    exact Or.inl ⟨acceptedBy_of_none rfl, h.configured w.fs v w.obj.writer⟩
  | dumpTo filename =>
    refine Or.inl ⟨acceptedBy_of_none rfl, ?_⟩
    show Transmitting d items draws (final (if _ then _ else _) w)
    split_ifs
    · exact h
    · obtain ⟨fs, writer, hw⟩ := dumpTo_configured filename "events" w
      rw [hw]
      exact h.configured fs w.obj.verbosity writer

/-- **What a run conveys.** -/
theorem transmitting_run (ht : readoutTypeFromDetectorType d = .ok t) (hM : t ≠ .MAGIC) :
    ∀ {calls : List (Call R)} {items : List Item} {draws : ℕ → Draw} {w : World R FS},
      (∀ call ∈ calls, call.Flows) → Transmitting d items draws w →
      ∃ draws', Transmitting d (items ++ itemsOf t draws (accepted w calls)) draws'
        (runCalls w calls)
  | [], items, draws, w, _, h => ⟨draws, by rwa [accepted, itemsOf, List.append_nil]⟩
  | call :: calls, items, draws, w, hk, h => by
    have hks : ∀ c ∈ calls, c.Flows := fun c hc => hk c (List.mem_cons_of_mem _ hc)
    rcases transmitting_step h ht hM (hk call List.mem_cons_self) with ⟨hnone, h'⟩ | ⟨c, hone, h'⟩
    · obtain ⟨draws', hrun⟩ := transmitting_run ht hM hks h'
      exact ⟨draws', by rwa [accepted, hnone, List.nil_append]⟩
    · obtain ⟨draws', hrun⟩ := transmitting_run ht hM hks h'
      refine ⟨draws', ?_⟩
      rwa [accepted, hone, List.singleton_append, itemsOf, ← AddCall.copies, ← List.append_assoc]

omit [HighFive R FS] [Host] in
theorem transmitting_create {clock₀ : UInt64} {frequency : R} {type : Int} {fs : FS}
    {socket : ℕ → SendResult} {draws : ℕ → Draw} {w₀ : World R FS}
    (hw : readoutCreate clock₀ frequency type fs socket draws = .ok w₀) :
    Transmitting w₀.obj.type [] draws w₀ := by
  have hwire := wire_make hw
  obtain ⟨d, prev, -, -, rfl⟩ := make_ok hw
  exact ⟨⟨hwire, rfl, rfl, [], .nil, .nil⟩, rfl, rfl⟩

omit [Host] in
theorem mapM_of_forall₂ {α β : Type} {f : α → Option β} {xs : List α} {ys : List β}
    (h : List.Forall₂ (fun a b => f a = some b) xs ys) : xs.mapM f = some ys := by
  induction h with
  | nil => rfl
  | cons hab _ ih =>
    rw [List.mapM_cons, hab, ih]
    rfl

omit [Host] in
theorem forall₂_comp {α β γ : Type} {r : α → β → Prop} {q : β → γ → Prop} {xs : List α}
    {ys : List β} {zs : List γ} (h : List.Forall₂ r xs ys) (h' : List.Forall₂ q ys zs) :
    List.Forall₂ (fun x z => ∃ y, r x y ∧ q y z) xs zs := by
  induction h generalizing zs with
  | nil =>
    cases h'
    exact .nil
  | cons hr _ ih =>
    cases h' with
    | cons hq hrest => exact .cons ⟨_, hr, hq⟩ (ih hrest)

omit [CDouble R] [HighFive R FS] [Host] in
theorem decode_of_encodes {s : Sent R} {p : Packet} (h : s.Encodes d p)
    (ht : readoutTypeFromDetectorType d = .ok t) (hM : t ≠ .MAGIC) :
    Packet.decode t s.bytes = some p := by
  have htypes : ∀ r ∈ p.records, r.type = t := fun r hr =>
    (Except.ok.inj (ht.symm.trans (h.types r hr))).symm
  rw [h.bytes]
  exact Packet.decode_enc hM htypes (h.bytes ▸ h.totalLength)

omit [CDouble R] [HighFive R FS] [Host] in
theorem received_of_encodes {packets : List Packet}
    (h : List.Forall₂ (Sent.Encodes d) w.trace.sent packets)
    (ht : readoutTypeFromDetectorType d = .ok t) (hM : t ≠ .MAGIC) :
    received t w = some (packets.flatMap Packet.seen) := by
  have hdec : (w.trace.sent.map Sent.bytes).mapM (Packet.decode t) = some packets :=
    mapM_of_forall₂ (List.forall₂_map_left_iff.2
      (h.imp fun s p hp => decode_of_encodes hp ht hM))
  rw [received, World.datagrams, hdec]
  rfl

omit [CDouble R] [HighFive R FS] [Host] in
/-- With nothing pending, a receiver of the datagrams decodes the items. -/
theorem transmits_of_conveys (h : Conveys d items w) (hr : w.records = [])
    (ht : readoutTypeFromDetectorType d = .ok t) (hM : t ≠ .MAGIC) : Transmits t w items := by
  obtain ⟨packets, henc, hat⟩ := h.seen
  rw [seen_of_records hr, List.append_nil] at hat
  exact ⟨packets.flatMap Packet.seen, received_of_encodes henc ht hM, hat⟩

/-- Once the object is destroyed nothing is pending. -/
theorem transmits_destroyed {draws' : ℕ → Draw} (h : Transmitting d items draws' w)
    (ht : readoutTypeFromDetectorType d = .ok t) (hM : t ≠ .MAGIC) :
    Transmits t (final (step (.destroy : Call R)) w) items := by
  rw [final_of_ok (step_destroy w)]
  exact transmits_of_conveys (conveys_flushed h.conveys) (records_flushed h.conveys.network) ht hM

/-- **Transmission.**  In a run that creates an object, makes any calls but
    those that pause the network, throw the packet away or destroy the object,
    and then destroys it, whatever the clock shows and whichever calls throw, a
    receiver decodes exactly the items of the calls of `readout_add` that
    return, in order, each as often as the draws say and at its time of flight
    after the pulse of its own packet. -/
theorem transmits_accepted {clock₀ : UInt64} {frequency : R} {type : Int} {fs : FS}
    {socket : ℕ → SendResult} {w₀ : World R FS} {calls : List (Call R)}
    (hw : readoutCreate clock₀ frequency type fs socket draws = .ok w₀)
    (ht : readoutTypeFromDetectorType w₀.obj.type = .ok t) (hM : t ≠ .MAGIC)
    (hk : ∀ call ∈ calls, call.Flows) :
    Transmits t (runCalls w₀ (calls ++ [.destroy])) (itemsOf t draws (accepted w₀ calls)) := by
  obtain ⟨draws', h⟩ := transmitting_run ht hM hk (transmitting_create hw)
  rw [runCalls, run_append]
  exact transmits_destroyed h ht hM

end

/-- A weighted readout, one that the clock rejects, and one after a move of the
    pulse. -/
theorem transmits_accepted_atTen :
    let calls : List (Call ℚ) := [.add 11500000000 1 2 (1 / 10) 1 VoidPtr.blank,
      .add 9000000000 5 6 (1 / 10) 0 VoidPtr.blank, .setPulseTime 12500000000,
      .add 12500000000 3 4 (1 / 5) 0 VoidPtr.blank]
    Transmits .CAEN (runCalls (atTen .BIFROST) (calls ++ [.destroy]))
        (itemsOf .CAEN ones (accepted (atTen .BIFROST) calls)) ∧
      (accepted (atTen .BIFROST) calls).map AddCall.ring = [1, 3] :=
  ⟨transmits_accepted (create_atTen .BIFROST) rfl (by decide) (by decide), by decide +kernel⟩

/-! ## Forward clocks -/

section
variable [CDouble R] [HighFive R FS] [Host] {d : DetectorType} {t : ReadoutType}
  {items : List Item} {draws : ℕ → Draw} {w : World R FS}

/-- Neither does it attach a file. -/
def Call.Unfiled : Call R → Prop
  | .dumpTo _ => False
  | call => call.Flows

instance (call : Call R) : Decidable call.Unfiled :=
  match call with
  | .newPacket | .disableNetwork | .destroy | .dumpTo _ => .isFalse id
  | .add .. | .setPulseTime _ | .send | .enableNetwork | .verbose _ => .isTrue trivial

omit [CDouble R] [HighFive R FS] [Host] in
theorem Call.Unfiled.flows {call : Call R} (h : call.Unfiled) : call.Flows := by
  cases call with
  | dumpTo => exact h.elim
  | _ => exact h

omit [CDouble R] [HighFive R FS] [Host] in
theorem writer_advanced (w : World R FS) (now prev : EfuTime) :
    (w.advanced now prev).obj.writer = w.obj.writer := by
  have h := writer_of_settings (World.settings_flushed (w.timed prev))
  exact h

theorem writer_step {call : Call R} (hu : call.Unfiled) (w : World R FS) :
    (final (step call) w).obj.writer = w.obj.writer := by
  cases call with
  | newPacket | disableNetwork | destroy | dumpTo => exact hu.elim
  | add clock ring fen tof weight data =>
    rcases updateTime_cases w clock with ⟨e, he⟩ | ⟨now, prev, -, -, hu⟩
    · rw [final_of_error (step_add_error he ring fen tof weight data)]
    · rw [final_add hu]
      exact (addReadout_leaves ring fen tof weight data _).2.1.trans (writer_advanced w now prev)
  | setPulseTime clock =>
    rcases updateTime_cases w clock with ⟨e, he⟩ | ⟨now, prev, -, -, hu⟩
    · have hstep : step (.setPulseTime clock : Call R) w = .error e w := he
      rw [final_of_error hstep]
    · have hstep : step (.setPulseTime clock : Call R) w = .ok () (w.advanced now prev) := hu
      rw [final_of_ok hstep]
      exact writer_advanced w now prev
  | send =>
    rw [final_of_ok (step_send w)]
    exact writer_of_settings (World.settings_flushed w)
  | enableNetwork | verbose => rfl

/-- The object has no writer, and its pulse is not after the reading `c`. -/
structure Forward (P : EfuTime) (d : DetectorType) (items : List Item) (draws : ℕ → Draw) (c : ℕ)
    (w : World R FS) : Prop where
  transmitting : Transmitting d items draws w
  clocked : Clocked P w
  writer : w.obj.writer = none
  time : w.obj.time.val ≤ c

variable {P : EfuTime} {c : ℕ}

/-- The reading of a call in ticks. -/
def Call.reading (call : Call R) : Option ℕ := call.clock.map fun clock => (EfuTime.now clock).val

omit [CDouble R] [HighFive R FS] [Host] in
/-- What a call adds to the readings of a run: the last one before it, and what
    that leaves of a chain. -/
theorem reading_isChain {call : Call R} {calls : List (Call R)} {c : ℕ}
    (h : (c :: readings (call :: calls)).IsChain (· ≤ ·)) :
    (∀ c' ∈ call.reading, c ≤ c') ∧ (call.reading.getD c :: readings calls).IsChain (· ≤ ·) := by
  have hcons : readings (call :: calls) = call.reading.toList ++ readings calls := by
    rw [readings, List.filterMap_cons]
    cases hr : call.reading with
    | none => rw [Call.reading] at hr; rw [hr]; rfl
    | some c' => rw [Call.reading] at hr; rw [hr]; rfl
  rw [hcons] at h
  cases hr : call.reading with
  | none =>
    rw [hr] at h
    exact ⟨fun c' hc' => (by cases hc'), h⟩
  | some c' =>
    rw [hr] at h
    obtain ⟨h1, h2⟩ := List.isChain_cons_cons.1 h
    refine ⟨fun k hk => ?_, h2⟩
    obtain rfl := Option.some.inj hk
    exact h1

/-- Without writer, a reading that is not earlier lets `readout_add` return. -/
theorem acceptedBy_forward (h : Forward P d items draws c w) (hP : P.Canonical)
    (ht : readoutTypeFromDetectorType d = .ok t) (hM : t ≠ .MAGIC) {call : Call R}
    (hc : ∀ c' ∈ call.reading, c ≤ c') :
    acceptedBy w call = call.readout.toList := by
  cases call with
  | add clock ring fen tof weight data =>
    have hle : w.obj.time.val ≤ (EfuTime.now clock).val := h.time.trans (hc _ rfl)
    rcases updateTime_spec h.clocked hP clock with ⟨hlt, -⟩ | ⟨-, now, prev, -, hu, -⟩
    · omega
    · have hwr : (w.advanced now prev).obj.writer = none :=
        (writer_advanced w now prev).trans h.writer
      have hsaved : saved (w.advanced now prev).obj ring fen tof weight data
          (w.advanced now prev).fs = .ok () (w.advanced now prev).fs := by
        rw [saved, hwr]
        rfl
      obtain ⟨w', hok, -⟩ := transmitting_saved (transmitting_advanced h.transmitting now prev)
        ht hM ⟨ring, fen, tof, weight, data⟩ hsaved
      exact if_pos ⟨(), w', (step_add hu ring fen tof weight data).trans hok⟩
  | _ => exact acceptedBy_of_none rfl

/-- The reference time after a call is not after its reading. -/
theorem time_step_le (h : Forward P d items draws c w) (hP : P.Canonical) {call : Call R}
    (hc : ∀ c' ∈ call.reading, c ≤ c') :
    (final (step call) w).obj.time.val ≤ call.reading.getD c := by
  cases hk : call.clock with
  | none =>
    have hr : call.reading = none := by rw [Call.reading, hk, Option.map_none]
    rw [time_effects (step_unclocked hk w), hr]
    exact h.time
  | some clock =>
    have hr : call.reading = some (EfuTime.now clock).val := by
      rw [Call.reading, hk, Option.map_some]
    rw [time_step h.clocked hP hk, hr, Option.getD_some]
    exact PulseClock.next_le (h.time.trans (hc _ hr))

/-- Over readings that never go back every call of `readout_add` returns. -/
theorem accepted_forward (hP : P.Canonical) (ht : readoutTypeFromDetectorType d = .ok t)
    (hM : t ≠ .MAGIC) :
    ∀ {calls : List (Call R)} {items : List Item} {draws : ℕ → Draw} {c : ℕ} {w : World R FS},
      Forward P d items draws c w → (∀ call ∈ calls, call.Unfiled) →
      (c :: readings calls).IsChain (· ≤ ·) → accepted w calls = calls.filterMap Call.readout
  | [], _, _, _, _, _, _, _ => rfl
  | call :: calls, items, draws, c, w, h, hu, hmono => by
    have hu1 := hu call List.mem_cons_self
    obtain ⟨hc, hnext⟩ := reading_isChain hmono
    have htime := time_step_le h hP hc
    have hclocked : Clocked P (final (step call) w) := clocked_runCalls hP h.clocked [call]
    have hwriter := (writer_step hu1 w).trans h.writer
    have hrest : accepted (final (step call) w) calls = calls.filterMap Call.readout := by
      have hus : ∀ k ∈ calls, k.Unfiled := fun k hk => hu k (List.mem_cons_of_mem _ hk)
      rcases transmitting_step h.transmitting ht hM hu1.flows with ⟨-, h'⟩ | ⟨k, -, h'⟩
      · exact accepted_forward hP ht hM ⟨h', hclocked, hwriter, htime⟩ hus hnext
      · exact accepted_forward hP ht hM ⟨h', hclocked, hwriter, htime⟩ hus hnext
    rw [accepted, acceptedBy_forward h hP ht hM hc, hrest]
    cases hr : call.readout with
    | none => rw [List.filterMap_cons_none hr]; rfl
    | some k => rw [List.filterMap_cons_some hr]; rfl

theorem transmits_forward {clock₀ : UInt64} {frequency : R} {type : Int} {fs : FS}
    {socket : ℕ → SendResult} {w₀ : World R FS} {calls : List (Call R)}
    (hw : readoutCreate clock₀ frequency type fs socket draws = .ok w₀)
    (ht : readoutTypeFromDetectorType w₀.obj.type = .ok t) (hM : t ≠ .MAGIC)
    (hu : ∀ call ∈ calls, call.Unfiled)
    (hmono : ((EfuTime.now clock₀).val :: readings calls).IsChain (· ≤ ·)) :
    Transmits t (runCalls w₀ (calls ++ [.destroy]))
      (itemsOf t draws (calls.filterMap Call.readout)) := by
  obtain ⟨htime, hP, hclocked⟩ := clocked_create hw
  have hstart := transmitting_create hw
  have hwriter : w₀.obj.writer = none := by
    obtain ⟨d, prev, -, -, rfl⟩ := make_ok hw
    rfl
  obtain ⟨draws', h⟩ := transmitting_run ht hM (fun call hc => (hu call hc).flows) hstart
  rw [accepted_forward hP ht hM ⟨hstart, hclocked, hwriter, by rw [htime]⟩ hu hmono] at h
  rw [runCalls, run_append]
  exact transmits_destroyed h ht hM

/-- **Timing independence.**  Two objects of one detector type and with the
    same draws are created, given calls that add readouts, send, move the pulse,
    enable the network or set the verbosity, and destroyed, each under a clock
    that never goes back.  If they are to add the same readouts, the receivers
    decode the same items, whatever the period of each source (by a zero one
    the division is undefined), the readings of its clock, and where the run
    sends or moves the pulse. -/
theorem retimed {clock clock' : UInt64} {frequency frequency' : R} {type : Int} {fs fs' : FS}
    {socket socket' : ℕ → SendResult} {w w' : World R FS} {calls calls' : List (Call R)}
    (hw : readoutCreate clock frequency type fs socket draws = .ok w)
    (hw' : readoutCreate clock' frequency' type fs' socket' draws = .ok w')
    (ht : readoutTypeFromDetectorType w.obj.type = .ok t) (hM : t ≠ .MAGIC)
    (hu : ∀ call ∈ calls, call.Unfiled) (hu' : ∀ call ∈ calls', call.Unfiled)
    (hmono : ((EfuTime.now clock).val :: readings calls).IsChain (· ≤ ·))
    (hmono' : ((EfuTime.now clock').val :: readings calls').IsChain (· ≤ ·))
    (hsame : calls.filterMap Call.readout = calls'.filterMap Call.readout) :
    ∃ items, items = itemsOf t draws (calls.filterMap Call.readout) ∧
      Transmits t (runCalls w (calls ++ [.destroy])) items ∧
      Transmits t (runCalls w' (calls' ++ [.destroy])) items := by
  have htype : w'.obj.type = w.obj.type := by
    obtain ⟨d, prev, hd, -, rfl⟩ := make_ok hw
    obtain ⟨d', prev', hd', -, rfl⟩ := make_ok hw'
    exact Except.ok.inj (hd'.symm.trans hd)
  refine ⟨_, rfl, transmits_forward hw ht hM hu hmono, ?_⟩
  rw [hsame]
  exact transmits_forward hw' (htype ▸ ht) hM hu' hmono'

end

/-- The same readout once in the second period and once, after an extra send,
    in the fifth. -/
theorem retimed_atTen : ∃ items : List Item, items.length = 1 ∧
    Transmits .CAEN (runCalls (atTen .BIFROST)
      ([.add 11500000000 1 2 (1 / 10) 0 VoidPtr.blank] ++ [.destroy])) items ∧
    Transmits .CAEN (runCalls (atTen .BIFROST)
      ([.setPulseTime 13500000000, .send, .add 14500000000 1 2 (1 / 10) 0 VoidPtr.blank] ++
        [.destroy])) items := by
  have hsame : [Call.add 11500000000 1 2 (1 / 10 : ℚ) 0 VoidPtr.blank].filterMap Call.readout =
      [Call.setPulseTime 13500000000, .send,
        .add 14500000000 1 2 (1 / 10) 0 VoidPtr.blank].filterMap Call.readout := rfl
  obtain ⟨items, rfl, h⟩ := retimed (create_atTen .BIFROST) (create_atTen .BIFROST) rfl
    (by decide) (by decide) (by decide) (by decide +kernel) (by decide +kernel) hsame
  exact ⟨_, by decide +kernel, h⟩

end ReadoutMaster
