/-
  Recording and then replaying is the same as sending live.

  An `Item` is what a call of `addReadout` asks to be sent: a record without
  time stamp, and the offset of its time from the pulse.  `itemsOf` lists the
  items of some calls, each as often as the draws say, and `Transmits` says
  that a receiver decodes exactly these items.

  * `transmits_run`: a new `Readout` transmits the items of its calls;
  * `recording_run`: a `Readout` with a writer stores a row for each call;
  * `replayAll_eq`: replaying a file performs the calls of its rows;
  * `record_replay`: the three together.
-/
import ReadoutMaster.Proof.Delivery
import ReadoutMaster.Proof.Loadable
import ReadoutMaster.Proof.Replay

namespace ReadoutMaster

open Readout Machine Replay

variable {R FS : Type}

/-! ## Items -/

/-- The record at another time. -/
def Record.stamped (t : EfuTime) : Record → Record
  | .caen d => .caen { d with timeHigh := t.high, timeLow := t.low }
  | .ttlMonitor d => .ttlMonitor { d with timeHigh := t.high, timeLow := t.low }
  | .dream d => .dream { d with timeHigh := t.high, timeLow := t.low }
  | .vmm3 d => .vmm3 { d with timeHigh := t.high, timeLow := t.low }

/-- A record whose own time is zero, and the time after the pulse to send it
    with. -/
structure Item where
  offset : EfuTime
  record : Record
  deriving DecidableEq

/-- The record of the item in a packet with the given pulse. -/
def Item.sent (i : Item) (pulse : EfuTime) : Record := i.record.stamped (i.offset + pulse)

/-- The records of the datagrams, each with the pulse in the header of its
    packet. -/
def received (t : ReadoutType) (w : World R FS) : Option (List (EfuTime × Record)) :=
  (w.datagrams.mapM (Packet.decode t)).map fun packets =>
    packets.flatMap fun p => p.records.map fun r => (p.header.pulse, r)

/-- A receiver decodes exactly the items, in order. -/
def Transmits (t : ReadoutType) (w : World R FS) (items : List Item) : Prop :=
  ∃ seen, received t w = some seen ∧ List.Forall₂ (fun s i => s.2 = Item.sent i s.1) seen items

section
variable [CDouble R]

/-- The item of a call, if it adds a record. -/
def AddCall.item (t : ReadoutType) (c : AddCall R) : Option Item :=
  (writes t c.ring c.fen ⟨0, 0⟩ c.data).map fun (_, r) => ⟨CDouble.toEfu c.tof, r⟩

/-- The items of calls on a `Readout` with the given draws. -/
def itemsOf (t : ReadoutType) : (ℕ → Draw) → List (AddCall R) → List Item
  | _, [] => []
  | draws, c :: calls =>
    (c.item t).toList.flatMap (List.replicate (copiesOf draws c.weight)) ++
      itemsOf t (fun n => draws (n + drawsOf draws c.weight)) calls

end

/-- A record differs from one at another time in its time stamp. -/
theorem writes_stamped {t : ReadoutType} {ring fen : UInt8} {time : EfuTime} {data : VoidPtr}
    {assign : Packed.Memory → ℕ → Packed.Memory} {r : Record}
    (hw : writes t ring fen time data = some (assign, r)) :
    ∃ assign₀ r₀, writes t ring fen ⟨0, 0⟩ data = some (assign₀, r₀) ∧ r = r₀.stamped time := by
  cases t with
  | MAGIC => cases hw
  | _ =>
    obtain ⟨-, rfl⟩ := Prod.mk.inj (Option.some.inj hw)
    exact ⟨_, _, rfl, rfl⟩

/-! ## Sending -/

/-- The network is enabled, there is no writer, the pulse is the reference
    time, and all packets carry it. -/
structure Sending (d : DetectorType) (w : World R FS) : Prop where
  wire : Wire w
  type : w.obj.type = d
  network : w.obj.network = true
  writer : w.obj.writer = none
  pulse : w.obj.lastPulseTime = w.obj.time
  sent : ∀ s ∈ w.trace.sent, ∃ p, s.Encodes d p ∧ p.header.pulse = w.obj.time

section
variable {d : DetectorType} {w : World R FS}

theorem Sending.of_settings {w' : World R FS} (h : Sending d w) (hw : Wire w')
    (hs : w'.obj.settings = w.obj.settings)
    (hsent : ∀ s ∈ w'.trace.sent, ∃ p, s.Encodes d p ∧ p.header.pulse = w.obj.time) :
    Sending d w' where
  wire := hw
  type := (type_of_settings hs).trans h.type
  network := (network_of_settings hs).trans h.network
  writer := (writer_of_settings hs).trans h.writer
  pulse := by rw [(pulses_of_settings hs).1, time_of_settings hs, h.pulse]
  sent := by rwa [time_of_settings hs]

theorem sending_flushed (h : Sending d w) : Sending d w.flushed := by
  refine h.of_settings (wire_flushed h.wire) (World.settings_flushed w) ?_
  rw [World.flushed_of_enabled h.network]
  intro s hs
  rcases List.mem_append.1 hs with hs | hs
  · exact h.sent s hs
  · obtain rfl := List.mem_singleton.1 hs
    exact ⟨w.packet, h.type ▸ h.wire.encodes, h.pulse⟩

theorem sending_room (h : Sending d w) : Sending d w.room := by
  rcases Nat.lt_or_ge w.obj.dataSize MaxDataSize with hs | hs
  · rwa [World.room_of_space hs]
  · rw [World.room_of_full hs]
    exact (sending_flushed h).of_settings (wire_fresh (wire_flushed h.wire).sent) rfl
      (sending_flushed h).sent

variable {t : ReadoutType} {ring fen : UInt8} {time : EfuTime} {data : VoidPtr}
  {assign : Packed.Memory → ℕ → Packed.Memory} {r : Record}

theorem sending_recorded (h : Sending d w) (ht : readoutTypeFromDetectorType d = .ok t)
    (hw : writes t ring fen time data = some (assign, r)) : Sending d (w.recorded assign r) :=
  (sending_room h).of_settings (wire_recorded h.wire (h.type ▸ ht) hw) rfl (sending_room h).sent

theorem sending_copies (h : Sending d w) (ht : readoutTypeFromDetectorType d = .ok t)
    (hw : writes t ring fen time data = some (assign, r)) (k : ℕ) :
    Sending d ((World.recorded assign r)^[k] w) := by
  induction k with
  | zero => exact h
  | succ k ih =>
    rw [Function.iterate_succ_apply']
    exact sending_recorded ih ht hw

variable [CDouble R] [HighFive R FS]

/-- Without a writer a call adds its item, as often as the draws say. -/
theorem sending_call (h : Sending d w) (ht : readoutTypeFromDetectorType d = .ok t)
    (hM : t ≠ .MAGIC) (c : AddCall R) :
    ∃ w', c.perform addReadout w = .ok () w' ∧ Sending d w' ∧
      w'.history = w.history ++
        ((c.item t).toList.flatMap (List.replicate (copiesOf w.obj.randomEngine c.weight))).map
          (fun i => i.sent w.obj.time) ∧
      w'.obj.time = w.obj.time ∧
      w'.obj.randomEngine =
        fun n => w.obj.randomEngine (n + drawsOf w.obj.randomEngine c.weight) := by
  obtain ⟨assign, r, hw⟩ := writes_isSome hM c.ring c.fen (CDouble.toEfu c.tof + w.obj.time) c.data
  obtain ⟨assign₀, r₀, hw₀, rfl⟩ := writes_stamped hw
  have hsaved : saved w.obj c.ring c.fen c.tof c.weight c.data w.fs = .ok () w.fs := by
    rw [saved, h.writer]
    rfl
  let v := (w.noted w.fs c.tof).drawn (drawsOf w.obj.randomEngine c.weight)
  have hv : Sending d v :=
    ⟨⟨h.wire.header, h.wire.body, h.wire.dataSize, h.wire.room, h.wire.blank, h.wire.types,
      h.wire.sent⟩, h.type, h.network, h.writer, h.pulse, h.sent⟩
  have hadd : c.perform addReadout w = .ok ()
      ((World.recorded assign (r₀.stamped (CDouble.toEfu c.tof + w.obj.time)))^[
        copiesOf w.obj.randomEngine c.weight] v) := by
    rw [AddCall.perform, addReadout_enabled h.network hsaved]
    exact addWeighted_eq c.weight (w := w.noted w.fs c.tof) (h.type ▸ ht) hw
  have hs := World.settings_copies assign (r₀.stamped (CDouble.toEfu c.tof + w.obj.time))
    (copiesOf w.obj.randomEngine c.weight) v
  refine ⟨_, hadd, sending_copies hv ht hw _, ?_, (time_of_settings hs).trans rfl,
    (World.randomEngine_copies _ _ _ v).trans rfl⟩
  have hitem : c.item t = some ⟨CDouble.toEfu c.tof, r₀⟩ := by rw [AddCall.item, hw₀]; rfl
  rw [history_copies hv.network, hitem, Option.toList_some, List.flatMap_singleton,
    List.map_replicate]
  rfl

theorem sending_run (ht : readoutTypeFromDetectorType d = .ok t) (hM : t ≠ .MAGIC) :
    ∀ (calls : List (AddCall R)) {w : World R FS}, Sending d w →
      AllReturn (AddCall.perform addReadout) w calls ∧
      Sending d (run (AddCall.perform addReadout) w calls) ∧
      (run (AddCall.perform addReadout) w calls).history = w.history ++
        (itemsOf t w.obj.randomEngine calls).map (fun i => i.sent w.obj.time) ∧
      (run (AddCall.perform addReadout) w calls).obj.time = w.obj.time
  | [], w, h => ⟨trivial, h, (List.append_nil _).symm, rfl⟩
  | c :: calls, w, h => by
    obtain ⟨w', hc, h', hh, htime, hdraws⟩ := sending_call h ht hM c
    obtain ⟨h1, h2, h3, h4⟩ := sending_run ht hM calls h'
    rw [run_cons, AllReturn, final_of_ok hc]
    refine ⟨⟨⟨(), w', hc⟩, h1⟩, h2, ?_, h4.trans htime⟩
    rw [h3, hh, htime, hdraws, itemsOf, List.map_append, List.append_assoc]

/-- **Sending.**  A new `Readout` transmits the items of the calls made on it,
    the last of them when it is destroyed. -/
theorem transmits_run {period time : EfuTime} {fs : FS} {socket : ℕ → SendResult}
    {draws : ℕ → Draw} (ht : readoutTypeFromDetectorType d = .ok t) (hM : t ≠ .MAGIC)
    (hw : Readout.make d.code.toNat period time fs socket draws = .ok w)
    (calls : List (AddCall R)) :
    AllReturn (AddCall.perform addReadout) w calls ∧
      Transmits t (final destroy (run (AddCall.perform addReadout) w calls))
        (itemsOf t draws calls) := by
  have hwire := wire_make hw
  obtain ⟨d', prev, hd, -, rfl⟩ := make_ok hw
  obtain rfl := Except.ok.inj ((detectorTypeFromInt_code d).symm.trans hd)
  set w := World.created (R := R) d period time prev fs socket draws
  have hstart : Sending d w := ⟨hwire, rfl, rfl, rfl, rfl, fun s hs => (by cases hs)⟩
  obtain ⟨hall, hs, hh, htime⟩ := sending_run ht hM calls hstart
  refine ⟨hall, ?_⟩
  set v := run (AddCall.perform addReadout) w calls
  obtain ⟨code, hsend⟩ := send_eq v
  have hdestroy : destroy v = .ok () v.flushed := bind_of_ok hsend
  rw [final_of_ok hdestroy]
  obtain ⟨packets, h1, h2, h3⟩ := mapM_decode ht hM (sending_flushed hs).sent
  have hitems : (packets.map Packet.records).flatten =
      (itemsOf t draws calls).map (fun i => i.sent time) := by
    have hhist := history_flushed hs.network
    rw [World.history, records_flushed hs.network, List.append_nil, hh] at hhist
    rw [h2, hhist]
    rfl
  have hseen : packets.flatMap (fun p => p.records.map fun r => (p.header.pulse, r)) =
      (itemsOf t draws calls).map (fun i => (time, i.sent time)) := by
    have hpulse : ∀ p ∈ packets,
        (p.records.map fun r => (p.header.pulse, r)) = p.records.map (Prod.mk time) := by
      intro p hp
      have : p.header.pulse = time := (h3 p hp).trans ((World.flushed_time v).trans htime)
      rw [this]
    rw [List.flatMap_congr hpulse, ← List.map_flatMap, List.flatMap_def, hitems, List.map_map]
    rfl
  refine ⟨_, by rw [received, World.datagrams, h1, Option.map_some, hseen], ?_⟩
  rw [List.forall₂_map_left_iff]
  exact List.forall₂_same.2 fun i _ => rfl

end

/-! ## Recording -/

/-- The second call asks for the item of the first, with the same weight. -/
def AddCall.Same [CDouble R] (t : ReadoutType) (c c' : AddCall R) : Prop :=
  c'.item t = c.item t ∧ c'.weight = c.weight

theorem itemsOf_congr [CDouble R] {t : ReadoutType} {calls calls' : List (AddCall R)}
    (h : List.Forall₂ (AddCall.Same t) calls calls') :
    ∀ draws : ℕ → Draw, itemsOf t draws calls' = itemsOf t draws calls := by
  induction h with
  | nil => exact fun _ => rfl
  | cons hc _ ih =>
    intro draws
    rw [itemsOf, itemsOf, hc.1, hc.2, ih]

/-- The object of a detector with a writer for the dataset `name` in the file
    at `p`. -/
structure Recording (d : DetectorType) (t : ReadoutType) (p name : String) (w : World R FS) :
    Prop where
  type : w.obj.type = d
  writer : w.obj.writer = some ⟨p, true, some name, d, t, 0⟩

section
variable [HighFive R FS] [CDouble R] {d : DetectorType} {t : ReadoutType} {p name : String}
  {w : World R FS}

/-- An event is saved in a row that is replayed as a call for the same item. -/
theorem saved_row (h : Recording d t p name w) (ht : readoutTypeFromDetectorType d = .ok t)
    {c : AddCall R} {fs : FS}
    (hs : saved w.obj c.ring c.fen c.tof c.weight c.data w.fs = .ok () fs) :
    ∃ row, HighFive.edit w.fs p (.append name row) = some fs ∧
      c.Same t (asRow FS t row).call := by
  simp only [saved, h.writer, Writer.saveReadout, Option.isNone_some, ht] at hs
  cases t with
  | MAGIC => cases hs
  | CAEN =>
    refine ⟨_, edit_eq_ok.1 hs, ?_, by rw [asRow, HighFive.asCAEN_caen]; rfl⟩
    simp only [AddCall.item, asRow, HighFive.asCAEN_caen, Row.call, CAENEvent.add,
      CAENEvent.ofReadout, writes, VoidPtr.toCAEN_ofCAEN]
  | TTLMonitor =>
    refine ⟨_, edit_eq_ok.1 hs, ?_, by rw [asRow, HighFive.asTTLMonitor_ttlMonitor]; rfl⟩
    simp only [AddCall.item, asRow, HighFive.asTTLMonitor_ttlMonitor, Row.call, TTLMonitorEvent.add,
      TTLMonitorEvent.ofReadout, writes, VoidPtr.toTTLMonitor_ofTTLMonitor]
  | VMM3 =>
    refine ⟨_, edit_eq_ok.1 hs, ?_, by rw [asRow, HighFive.asVMM3_vmm3]; rfl⟩
    simp only [AddCall.item, asRow, HighFive.asVMM3_vmm3, Row.call, VMM3Event.add,
      VMM3Event.ofReadout, writes, VoidPtr.toVMM3_ofVMM3]
  | DREAM =>
    refine ⟨_, edit_eq_ok.1 hs, ?_, by rw [asRow, HighFive.asDREAM_dream]; rfl⟩
    simp only [AddCall.item, asRow, HighFive.asDREAM_dream, Row.call, DREAMEvent.add,
      DREAMEvent.ofReadout, writes, VoidPtr.toDREAM_ofDREAM]

/-- A call stores a row, whether or not the network is enabled. -/
theorem recording_call (h : Recording d t p name w) (ht : readoutTypeFromDetectorType d = .ok t)
    {rows : List (Row R)} (ho : OutputAt w.fs p name d t rows) {c : AddCall R} {w' : World R FS}
    (hc : c.perform addReadout w = .ok () w') :
    Recording d t p name w' ∧ ∃ row, OutputAt w'.fs p name d t (rows ++ [row]) ∧
      c.Same t (asRow FS t row).call := by
  cases hs : saved w.obj c.ring c.fen c.tof c.weight c.data w.fs with
  | error e fs => cases (addReadout_error hs).symm.trans hc
  | ok u fs =>
    obtain ⟨row, hedit, hrow⟩ := saved_row h ht hs
    have hout : OutputAt fs p name d t (rows ++ [row]) := output_append ho hedit
    cases hn : w.obj.network with
    | false =>
      obtain rfl : { w with fs } = w' := by
        injection (addReadout_disabled hn hs).symm.trans hc
      exact ⟨⟨h.type, h.writer⟩, row, hout, hrow⟩
    | true =>
      have ha := addReadout_added hn hs hc
      have hset := settings_added ha
      refine ⟨⟨(type_of_settings hset).trans h.type, (writer_of_settings hset).trans h.writer⟩,
        row, ?_, hrow⟩
      rw [fs_added ha]
      exact hout

theorem recording_run (ht : readoutTypeFromDetectorType d = .ok t) :
    ∀ {calls : List (AddCall R)} {w : World R FS} {rows : List (Row R)},
      Recording d t p name w → OutputAt w.fs p name d t rows →
      AllReturn (AddCall.perform addReadout) w calls →
      ∃ rows', OutputAt (run (AddCall.perform addReadout) w calls).fs p name d t (rows ++ rows') ∧
        List.Forall₂ (AddCall.Same t) calls (rows'.map fun row => (asRow FS t row).call)
  | [], w, rows, _, ho, _ => ⟨[], by rwa [List.append_nil], .nil⟩
  | c :: calls, w, rows, h, ho, ⟨⟨⟨⟩, w', hc⟩, hall⟩ => by
    obtain ⟨h', row, ho', hrow⟩ := recording_call h ht ho hc
    rw [final_of_ok hc] at hall
    obtain ⟨rows', hout, hsame⟩ := recording_run ht h' ho' hall
    refine ⟨row :: rows', ?_, .cons hrow hsame⟩
    rwa [run_cons, final_of_ok hc, List.append_cons]

omit [CDouble R] in
/-- `dump_to` attaches a writer for an empty dataset. -/
theorem recording_dumpTo [Host] {w' : World R FS} (htype : w.obj.type = d)
    (ht : readoutTypeFromDetectorType d = .ok t) (hopen : (HighFive.openOrCreate w.fs p).isSome)
    (h : dumpTo p name w = .ok () w') :
    Recording d t p name w' ∧ OutputAt w'.fs p name d t [] := by
  rw [dumpTo, self_bind, htype, ht, lift_ok_bind] at h
  obtain ⟨writer, v, hmake, hup⟩ := bind_eq_ok.1 h
  injection hup with _ hup
  subst hup
  cases hm : Writer.make p d t name w.fs with
  | error e fs => cases (onFiles_error hm).symm.trans hmake
  | ok wr fs =>
    obtain ⟨rfl, rfl⟩ : wr = writer ∧ { w with fs } = v := by
      injection (onFiles_ok hm).symm.trans hmake with h1 h2
      exact ⟨h1, h2⟩
    rcases make_spec hm with ⟨hnone, -, -⟩ | ⟨-, hwr, -, -, hout, -⟩
    · rw [hnone] at hopen
      cases hopen
    · exact ⟨⟨htype, congrArg some hwr⟩, hout⟩

end

/-! ## Replaying -/

section
variable [HighFive R FS] [Host] {reader : Reader R} {control : UInt32}

/-- In sequential mode the whole dataset is replayed in the order of its
    rows. -/
theorem chunkReplay_all {σ : Type} {add : AddReadout R (EStateM Exn σ Unit)}
    (hr : reader.readout ≠ .MAGIC) (hseq : control &&& RANDOM = 0)
    (hm : reader.rows.length * 8 ≤ Host.memory) :
    chunkReplay FS reader add 0 reader.size 1 control =
      (callsOf FS reader).forM (AddCall.perform add) := by
  have hsize := toNat_size reader
  have hlt := length_rows_lt reader
  have hpos : positions reader.size control =
      (List.range (callsOf FS reader).length).map UInt64.ofNat := by
    rw [positions, length_callsOf, hsize, if_neg (by simp [hseq])]
  rw [chunkReplay_eq hr (by rwa [hsize]), hpos, forM_map]
  refine forM_range_length ?_
  intro j hj
  have hjn : (0 + UInt64.ofNat j).toNat = j := by
    rw [length_callsOf] at hj
    rw [UInt64.zero_add, UInt64.toNat_ofNat', Nat.mod_eq_of_lt (by omega)]
  rw [hjn, fetch_of_lt hj]

variable [CDouble R] {fs : FS} {p name : String} {f : H5File R} {d : DetectorType}
  {t : ReadoutType} {ds : DataSet R} {clock : UInt64} {socket : ℕ → SendResult} {draws : ℕ → Draw}
  {w : World R FS}

/-- **Replaying** a file in sequential mode performs the calls of its rows on a
    new `Readout`, and destroys it. -/
theorem replayAll_eq (hf : HighFive.openReadOnly fs p = some f) (hs : f.Stores name d t ds)
    (hM : t ≠ .MAGIC) (hne : ds.rows ≠ []) (hm : ds.rows.length * 8 ≤ Host.memory)
    (hseq : control &&& RANDOM = 0)
    (hw : Readout.make d.code.toNat ⟨1, 0⟩ (EfuTime.now clock) fs socket draws = .ok w)
    (hall : AllReturn (AddCall.perform addReadout) w
      (ds.rows.map fun row => (asRow FS t row).call)) :
    replayAll p control clock fs socket draws = ⟨.ok (), some (final destroy
      (run (AddCall.perform addReadout) w (ds.rows.map fun row => (asRow FS t row).call)))⟩ := by
  have hread : Reader.make fs p = .ok ⟨some ds, d, t⟩ := by
    rw [Reader.make, hf]
    exact ofFile_of_stores hs
  have hsize : (Reader.size ⟨some ds, d, t⟩).toNat = ds.rows.length := toNat_size _
  have hload : loadable t (Reader.size ⟨some ds, d, t⟩) = .ok false :=
    loadable_false hM (by rw [hsize]; exact List.length_pos_iff.2 hne) (by rwa [hsize])
  have hbody : (do
      if ← lift (loadable t (Reader.size ⟨some ds, d, t⟩)) then
        loadReplay FS ⟨some ds, d, t⟩ addReadout 0 (Reader.size ⟨some ds, d, t⟩) control
      else
        chunkReplay FS ⟨some ds, d, t⟩ addReadout 0 (Reader.size ⟨some ds, d, t⟩) 1 control :
          Prog R FS Unit) w = .ok () (run (AddCall.perform addReadout) w
            (ds.rows.map fun row => (asRow FS t row).call)) := by
    have hchunk : chunkReplay FS ⟨some ds, d, t⟩ addReadout 0 (Reader.size ⟨some ds, d, t⟩) 1
        control =
        ((callsOf FS ⟨some ds, d, t⟩).forM (AddCall.perform addReadout) : Prog R FS Unit) :=
      chunkReplay_all hM hseq hm
    rw [hload, lift_ok_bind, if_neg (by decide), hchunk]
    exact forM_eq_ok.2 ⟨hall, rfl⟩
  simp only [replayAll, hread, withReadout, hw, hbody]

end

/-! ## The round trip -/

section
variable [HighFive R FS] [Host] [CDouble R]

/-- **Recording then replaying equals sending live.**  A `Readout` with a
    writer, its network enabled or not, is given some calls; replaying the file
    in sequential mode makes a new `Readout` of the detector transmit the same
    items as one that is given the calls and the same draws directly, if the
    vector of the indexes of the events can be allocated. -/
theorem record_replay {d : DetectorType} {t : ReadoutType} {p name : String}
    {calls : List (AddCall R)} {w w' live fresh : World R FS} {period time : EfuTime}
    {clock : UInt64} {control : UInt32} {fs : FS} {socket socket' : ℕ → SendResult}
    {draws : ℕ → Draw}
    (ht : readoutTypeFromDetectorType d = .ok t) (hM : t ≠ .MAGIC) (hne : calls ≠ [])
    (hm : calls.length * 8 ≤ Host.memory)
    (htype : w.obj.type = d) (hopen : (HighFive.openOrCreate w.fs p).isSome)
    (hdump : dumpTo p name w = .ok () w')
    (hrec : AllReturn (AddCall.perform addReadout) w' calls)
    (hlive : Readout.make d.code.toNat period time fs socket draws = .ok live)
    (hseq : control &&& RANDOM = 0)
    (hfresh : Readout.make d.code.toNat ⟨1, 0⟩ (EfuTime.now clock)
      (run (AddCall.perform addReadout) w' calls).fs socket' draws = .ok fresh) :
    (AllReturn (AddCall.perform addReadout) live calls ∧
      Transmits t (final destroy (run (AddCall.perform addReadout) live calls))
        (itemsOf t draws calls)) ∧
    ∃ replayed, replayAll p control clock (run (AddCall.perform addReadout) w' calls).fs socket'
        draws = ⟨.ok (), some replayed⟩ ∧
      Transmits t replayed (itemsOf t draws calls) := by
  refine ⟨transmits_run ht hM hlive calls, ?_⟩
  obtain ⟨hw', hout⟩ := recording_dumpTo htype ht hopen hdump
  obtain ⟨rows, ⟨f, ds, hf, hs, hrows⟩, hsame⟩ := recording_run ht hw' hout hrec
  rw [List.nil_append] at hrows
  subst hrows
  have hlen : calls.length = ds.rows.length := by
    rw [hsame.length_eq, List.length_map]
  have hne' : ds.rows ≠ [] := by
    rw [← List.length_pos_iff, ← hlen]
    exact List.length_pos_iff.2 hne
  obtain ⟨hall, htrans⟩ := transmits_run ht hM hfresh
    (ds.rows.map fun row => (asRow FS t row).call)
  rw [itemsOf_congr hsame] at htrans
  exact ⟨_, replayAll_eq hf hs hM hne' (hlen ▸ hm) hseq hfresh hall, htrans⟩

end

/-- Two readouts of a LOKI detector, recorded with the network disabled. -/
theorem record_replay_atTen :
    let calls : List (AddCall ℚ) :=
      [⟨1, 2, 1 / 10, 0, VoidPtr.blank⟩, ⟨3, 4, 1 / 5, 1, VoidPtr.blank⟩]
    let w := final (dumpTo "out.h5") (final readoutDisableNetwork (atTen .LOKI))
    ∃ replayed, replayAll "out.h5" SEQUENTIAL 10000000000
        (run (AddCall.perform addReadout) w calls).fs openSocket ones = ⟨.ok (), some replayed⟩ ∧
      Transmits .CAEN replayed (itemsOf .CAEN ones calls) := by
  intro calls w
  have hnow : (EfuTime.now 10000000000).sub ⟨1, 0⟩ = .ok ⟨9, 0⟩ := by decide +kernel
  have hmake : ∀ fs : Disk ℚ, ∃ w : World ℚ (Disk ℚ), Readout.make DetectorType.LOKI.code.toNat
      ⟨1, 0⟩ (EfuTime.now 10000000000) fs openSocket ones = .ok w := fun fs =>
    ⟨_, make_eq (detectorTypeFromInt_code .LOKI) hnow⟩
  obtain ⟨live, hlive⟩ := hmake Disk.blank
  obtain ⟨fresh, hfresh⟩ := hmake (run (AddCall.perform addReadout) w calls).fs
  have hdump : Returns (dumpTo "out.h5") (final readoutDisableNetwork (atTen .LOKI)) := by
    decide +kernel
  have hrec : AllReturn (AddCall.perform addReadout) w calls := by decide +kernel
  exact (record_replay rfl (by decide) (by decide) (by decide) rfl rfl (eq_ok_final hdump) hrec
    hlive rfl hfresh).2

/-! ## Too many events -/

/-- On the disk, calls are recorded as long as a dataset can grow. -/
theorem recording_returns {d : DetectorType} {t : ReadoutType} {p name : String}
    (ht : readoutTypeFromDetectorType d = .ok t) (hM : t ≠ .MAGIC) :
    ∀ {calls : List (AddCall ℚ)} {w : World ℚ (Disk ℚ)} {rows : List (Row ℚ)},
      Recording d t p name w → w.obj.network = false → (∃ f, w.fs p = .file f) →
      OutputAt w.fs p name d t rows → rows.length + calls.length < 2 ^ 64 →
      AllReturn (AddCall.perform addReadout) w calls
  | [], _, _, _, _, _, _, _ => trivial
  | c :: calls, w, rows, hrec, hn, ⟨f, hf⟩, ho, hlen => by
    rw [List.length_cons] at hlen
    obtain ⟨g, ds, hg, hs, hrows⟩ := ho
    have hgf : HighFive.openReadOnly w.fs p = some f := by
      show Disk.openReadOnly w.fs p = some f
      rw [Disk.openReadOnly, hf]
    obtain rfl := Option.some.inj (hgf.symm.trans hg)
    have hroom : ∀ row : Row ℚ, (ds.rows ++ [row]).length < 2 ^ 64 := fun row => by
      rw [List.length_append, List.length_singleton, hrows]
      omega
    have hedit : ∀ row : Row ℚ, ∃ f', Writer.edit p (.append name row) w.fs =
        .ok () (Function.update w.fs p (.file f')) := fun row => by
      obtain ⟨f', hf'⟩ : ∃ f', (Edit.append name row).apply f = some f' := by
        simp only [Edit.apply, hs.dataset, dif_pos (hroom row)]
        exact ⟨_, rfl⟩
      refine ⟨f', edit_eq_ok.2 ?_⟩
      show Disk.edit w.fs p (.append name row) = _
      simp only [Disk.edit, hf, hf', Option.map_some]
    have hsaved : ∃ f', saved w.obj c.ring c.fen c.tof c.weight c.data w.fs =
        .ok () (Function.update w.fs p (.file f')) := by
      simp only [saved, hrec.writer, Writer.saveReadout, Option.isNone_some, ht]
      cases t with
      | MAGIC => exact absurd rfl hM
      | CAEN | TTLMonitor | DREAM | VMM3 => exact hedit _
    obtain ⟨f', hsaved⟩ := hsaved
    have hc : c.perform addReadout w =
        .ok () { w with fs := Function.update w.fs p (.file f') } := addReadout_disabled hn hsaved
    obtain ⟨hrec', row, ho', -⟩ := recording_call hrec ht ⟨_, ds, hg, hs, hrows⟩ hc
    rw [AllReturn, final_of_ok hc]
    refine ⟨⟨(), _, hc⟩, recording_returns ht hM hrec' hn ⟨f', Function.update_self ..⟩ ho' ?_⟩
    rw [List.length_append, List.length_singleton]
    omega

/-- More events than a terabyte holds the indexes of are recorded, but their
    replay throws and has sent nothing, while each call transmits an item. -/
theorem recorded_unreplayed :
    let calls : List (AddCall ℚ) :=
      List.replicate 137438953473 ⟨1, 2, 1 / 10, 0, VoidPtr.blank⟩
    let w := final (dumpTo "out.h5") (final readoutDisableNetwork (atTen .LOKI))
    (calls ≠ [] ∧ Returns (dumpTo "out.h5") (final readoutDisableNetwork (atTen .LOKI)) ∧
        AllReturn (AddCall.perform addReadout) w calls) ∧
      (Transmits .CAEN (final destroy (run (AddCall.perform addReadout) (atTen .LOKI) calls))
          (itemsOf .CAEN ones calls) ∧
        itemsOf .CAEN ones calls ≠ []) ∧
      ∃ e world, replayAll "out.h5" SEQUENTIAL 10000000000
          (run (AddCall.perform addReadout) w calls).fs openSocket ones = ⟨.error e, world⟩ ∧
        ∀ v, world = some v → v.datagrams = [] := by
  intro calls w
  have hdump : Returns (dumpTo "out.h5") (final readoutDisableNetwork (atTen .LOKI)) := by
    decide +kernel
  have hlen : calls.length = 137438953473 := List.length_replicate
  have hmem : Host.memory = 1099511627776 := rfl
  have hcalls : calls = ⟨1, 2, 1 / 10, 0, VoidPtr.blank⟩ ::
      List.replicate 137438953472 ⟨1, 2, 1 / 10, 0, VoidPtr.blank⟩ := List.replicate_succ
  obtain ⟨hrec, hout⟩ := recording_dumpTo (d := .LOKI) (t := .CAEN) rfl rfl rfl
    (eq_ok_final hdump)
  have hfile : ∃ f, w.fs "out.h5" = .file f := ⟨_, rfl⟩
  have hall : AllReturn (AddCall.perform addReadout) w calls :=
    recording_returns rfl (by decide) hrec rfl hfile hout (by rw [hlen]; decide)
  obtain ⟨rows, ⟨f, ds, hf, hs, hrows⟩, hsame⟩ := recording_run rfl hrec hout hall
  rw [List.nil_append] at hrows
  have hlen' : ds.rows.length = 137438953473 := by
    rw [hrows, ← hlen, hsame.length_eq, List.length_map]
  have hlive : Readout.make (DetectorType.LOKI).code.toNat ⟨1, 0⟩ ⟨10, 0⟩ Disk.blank openSocket
      ones = .ok (atTen .LOKI) := make_eq (detectorTypeFromInt_code .LOKI) (by decide)
  clear_value calls
  have hreplay : ∃ e world, replayAll "out.h5" SEQUENTIAL 10000000000
      (run (AddCall.perform addReadout) w calls).fs openSocket ones = ⟨.error e, world⟩ ∧ _ :=
    replayAll_error hf hs (by omega)
  obtain ⟨e, world, hreplay, hworld⟩ := hreplay
  refine ⟨⟨?_, hdump, hall⟩, ⟨(transmits_run rfl (by decide) hlive calls).2, ?_⟩,
    e, world, hreplay, ?_⟩
  · rw [hcalls]
    exact List.cons_ne_nil _ _
  · rw [hcalls, itemsOf]
    exact fun h => absurd (List.append_eq_nil_iff.1 h).1 (by decide +kernel)
  · intro v hv
    obtain ⟨d', prev, -, -, rfl⟩ := make_ok (hworld v hv)
    rfl

end ReadoutMaster
