/-
  What becomes of the datagrams.

  A `Readout` hands its datagrams to a `UDPSender`, which hands them to the
  system, and the network may lose, repeat and reorder them.

  * `arrivals`: whichever datagrams arrive, how often and in which order, a
    receiver decodes from each the items that were sent in it;
  * `reaches_sendto`: the sender passes on every datagram as it is;
  * `unheard`: what the socket answers makes no difference to a run;
  * `failures_unreported`: no session reports a datagram that was not sent.
-/
import ReadoutMaster.Lib.Relate
import ReadoutMaster.Proof.Shutdown
import ReadoutMaster.Proof.Transmission
import ReadoutMaster.UDPSender

namespace ReadoutMaster

open Readout Machine

variable {R FS : Type}

/-! ## Arrivals -/

/-- What a receiver makes of some datagrams. -/
def decoded (t : ReadoutType) (datagrams : List (List UInt8)) : Option (List (EfuTime × Record)) :=
  (datagrams.mapM (Packet.decode t)).map fun packets => packets.flatMap Packet.seen

/-- The datagram carries the items. -/
def Carries (t : ReadoutType) (datagram : List UInt8) (items : List Item) : Prop :=
  ∃ p, Packet.decode t datagram = some p ∧ List.Forall₂ Item.At p.seen items

theorem decoded_of_carries {t : ReadoutType} {datagrams : List (List UInt8)}
    {groups : List (List Item)} (h : List.Forall₂ (Carries t) datagrams groups) :
    ∃ seen, decoded t datagrams = some seen ∧ List.Forall₂ Item.At seen groups.flatten := by
  induction h with
  | nil => exact ⟨[], rfl, .nil⟩
  | @cons datagram items datagrams groups hc _ ih =>
    obtain ⟨p, hp, hat⟩ := hc
    obtain ⟨seen, hseen, hrest⟩ := ih
    obtain ⟨packets, hpackets, rfl⟩ := Option.map_eq_some_iff.1 hseen
    refine ⟨p.seen ++ packets.flatMap Packet.seen, ?_, List.rel_append hat hrest⟩
    rw [decoded, List.mapM_cons, hp, hpackets]
    rfl

/-- Items that some packets hold, by packet. -/
theorem groups_of_seen : ∀ {packets : List Packet} {items : List Item},
    List.Forall₂ Item.At (packets.flatMap Packet.seen) items →
      ∃ groups, List.Forall₂ (fun p group => List.Forall₂ Item.At p.seen group) packets groups ∧
        groups.flatten = items
  | [], items, h => by
    cases h
    exact ⟨[], .nil, rfl⟩
  | p :: packets, items, h => by
    rw [List.flatMap_cons] at h
    have hp := List.forall₂_take p.seen.length h
    have hrest := List.forall₂_drop p.seen.length h
    rw [List.take_left] at hp
    rw [List.drop_left] at hrest
    obtain ⟨groups, hgroups, hflat⟩ := groups_of_seen hrest
    refine ⟨_ :: groups, .cons hp hgroups, ?_⟩
    rw [List.flatten_cons, hflat, List.take_append_drop]

theorem filterMap_getElem {α β : Type} {r : α → β → Prop} {xs : List α} {ys : List β}
    (h : List.Forall₂ r xs ys) (is : List ℕ) :
    List.Forall₂ r (is.filterMap (xs[·]?)) (is.filterMap (ys[·]?)) := by
  induction is with
  | nil => exact .nil
  | cons i is ih =>
    by_cases hi : i < xs.length
    · have hi' : i < ys.length := h.length_eq ▸ hi
      rw [List.filterMap_cons_some (List.getElem?_eq_getElem hi),
        List.filterMap_cons_some (List.getElem?_eq_getElem hi')]
      exact .cons (h.get hi hi') ih
    · have hi' : ¬ i < ys.length := h.length_eq ▸ hi
      rw [List.filterMap_cons_none (List.getElem?_eq_none (Nat.not_lt.1 hi)),
        List.filterMap_cons_none (List.getElem?_eq_none (Nat.not_lt.1 hi'))]
      exact ih

section
variable [CDouble R] [HighFive R FS] [Host] {d : DetectorType} {t : ReadoutType}
  {items : List Item} {draws : ℕ → Draw} {w : World R FS}

omit [CDouble R] [HighFive R FS] [Host] in
/-- Each datagram carries its own items. -/
theorem carries_of_conveys (h : Conveys d items w) (hr : w.records = [])
    (ht : readoutTypeFromDetectorType d = .ok t) (hM : t ≠ .MAGIC) :
    ∃ groups, List.Forall₂ (Carries t) w.datagrams groups ∧ groups.flatten = items := by
  obtain ⟨packets, henc, hat⟩ := h.seen
  rw [seen_of_records hr, List.append_nil] at hat
  obtain ⟨groups, hgroups, hflat⟩ := groups_of_seen hat
  refine ⟨groups, List.forall₂_map_left_iff.2 ?_, hflat⟩
  refine (forall₂_comp henc hgroups).imp ?_
  rintro s group ⟨p, hp, hg⟩
  exact ⟨p, decode_of_encodes hp ht hM, hg⟩

/-- **Arrivals.**  The items of a run come in groups, one for each datagram, and
    whichever datagrams arrive, in whatever order and however often, a receiver
    decodes exactly their groups, each item at its offset from the pulse in the
    header of its own datagram. -/
theorem arrivals {clock₀ : UInt64} {frequency : R} {type : Int} {fs : FS}
    {socket : ℕ → SendResult} {w₀ : World R FS} {calls : List (Call R)}
    (hw : readoutCreate clock₀ frequency type fs socket draws = .ok w₀)
    (ht : readoutTypeFromDetectorType w₀.obj.type = .ok t) (hM : t ≠ .MAGIC)
    (hk : ∀ call ∈ calls, call.Flows) :
    let datagrams := (runCalls w₀ (calls ++ [.destroy])).datagrams
    ∃ groups : List (List Item), groups.flatten = itemsOf t draws (accepted w₀ calls) ∧
      groups.length = datagrams.length ∧
      ∀ arrived : List ℕ, ∃ seen, decoded t (arrived.filterMap (datagrams[·]?)) = some seen ∧
        List.Forall₂ Item.At seen (arrived.filterMap (groups[·]?)).flatten := by
  intro datagrams
  obtain ⟨draws', h⟩ := transmitting_run ht hM hk (transmitting_create hw)
  have hend : runCalls w₀ (calls ++ [.destroy]) = (runCalls w₀ calls).flushed := by
    rw [runCalls, run_append]
    exact final_of_ok (step_destroy _)
  have hconveys : Conveys w₀.obj.type (itemsOf t draws (accepted w₀ calls))
      (runCalls w₀ (calls ++ [.destroy])) := hend ▸ conveys_flushed h.conveys
  have hr : (runCalls w₀ (calls ++ [.destroy])).records = [] :=
    hend ▸ records_flushed h.conveys.network
  obtain ⟨groups, hcarries, hflat⟩ := carries_of_conveys hconveys hr ht hM
  refine ⟨groups, hflat, hcarries.length_eq.symm, fun arrived => ?_⟩
  exact decoded_of_carries (filterMap_getElem hcarries arrived)

end

theorem arrivals_atTen :
    let calls : List (Call ℚ) := [.add 11500000000 1 2 (1 / 10) 1 VoidPtr.blank,
      .setPulseTime 12500000000, .add 12500000000 3 4 (1 / 5) 0 VoidPtr.blank]
    let datagrams := (runCalls (atTen .BIFROST) (calls ++ [.destroy])).datagrams
    ∃ groups : List (List Item),
      groups.flatten = itemsOf .CAEN ones (accepted (atTen .BIFROST) calls) ∧
      ∃ seen, decoded .CAEN ([3, 0, 1, 1].filterMap (datagrams[·]?)) = some seen ∧
        List.Forall₂ Item.At seen ([3, 0, 1, 1].filterMap (groups[·]?)).flatten := by
  intro calls datagrams
  have hflows : ∀ call ∈ calls, call.Flows := by decide
  obtain ⟨groups, hflat, -, h⟩ := arrivals (create_atTen .BIFROST) rfl (by decide) hflows
  exact ⟨groups, hflat, h [3, 0, 1, 1]⟩

/-! ## The sender -/

/-- The datagrams of a run, which all fit into UDP packets, have each had an
    answer of the socket. -/
structure Fitting (answers : ℕ → SendResult) (w : World R FS) : Prop where
  wire : Wire w
  sizes : ∀ bytes ∈ w.datagrams, 30 ≤ bytes.length ∧ bytes.length < MaxDataSize + 24
  socket : w.socket = fun n => answers (n + w.datagrams.length)

section
variable {answers : ℕ → SendResult} {w : World R FS}

theorem fitting_fresh (h : Fitting answers w) : Fitting answers w.fresh :=
  ⟨wire_fresh h.wire.sent, h.sizes, h.socket⟩

theorem fitting_flushed (h : Fitting answers w) : Fitting answers w.flushed := by
  cases hn : w.obj.network with
  | false => rwa [World.flushed_of_disabled hn]
  | true =>
    have hwire := wire_flushed h.wire
    have hsplit : w.sentOut.fresh.datagrams = w.datagrams ++ [w.bytes] := List.map_append
    rw [World.flushed_of_enabled hn] at hwire ⊢
    refine ⟨hwire, ?_, ?_⟩
    · intro bytes hb
      rw [hsplit, List.mem_append, List.mem_singleton] at hb
      rcases hb with hb | rfl
      · exact h.sizes bytes hb
      · have hsize := h.wire.dataSize
        have hlen : w.bytes.length = w.obj.dataSize := Packed.Memory.length_load
        exact ⟨by omega, hlen ▸ h.wire.room⟩
    · rw [hsplit, List.length_append, List.length_singleton]
      funext n
      show w.socket (n + 1) = _
      rw [h.socket]
      exact congrArg answers (by omega)

theorem fitting_room (h : Fitting answers w) : Fitting answers w.room := by
  rcases Nat.lt_or_ge w.obj.dataSize MaxDataSize with hs | hs
  · rwa [World.room_of_space hs]
  · rw [World.room_of_full hs]
    exact fitting_fresh (fitting_flushed h)

theorem fitting_timed (h : Fitting answers w) (t : EfuTime) : Fitting answers (w.timed t) :=
  ⟨wire_timed h.wire t, h.sizes, h.socket⟩

theorem fitting_effect [CDouble R] {w' : World R FS} (he : Effect w w') (h : Fitting answers w) :
    Fitting answers w' := by
  have hwire := wire_effect he h.wire
  cases he with
  | configured | noted => exact ⟨hwire, h.sizes, h.socket⟩
  | added ha =>
    cases ha with
    | drawn => exact ⟨hwire, h.sizes, h.socket⟩
    | recorded => exact ⟨hwire, (fitting_room h).sizes, (fitting_room h).socket⟩
  | flushed => exact fitting_flushed h
  | fresh => exact fitting_fresh h

theorem fitting_advanced (h : Fitting answers w) (now prev : EfuTime) :
    Fitting answers (w.advanced now prev) := by
  have hf := fitting_flushed (fitting_timed h prev)
  exact ⟨wire_advanced h.wire now prev, hf.sizes, hf.socket⟩

end

namespace UDPSender

/-- The datagrams handed to the sender one after the other: its answers, and
    the system after them. -/
def sendAll (s : UDPSender) : List (List UInt8) → Kernel → List SendResult × Kernel
  | [], k => ([], k)
  | datagram :: datagrams, k =>
    ((s.send datagram k).1 :: (s.sendAll datagrams (s.send datagram k).2).1,
      (s.sendAll datagrams (s.send datagram k).2).2)

end UDPSender

/-- What the sender makes of an answer of `::sendto`. -/
def Sendto.result (answer : Sendto) : SendResult :=
  ⟨answer.bytes, if 0 > answer.bytes then answer.errno else 0⟩

/-- A datagram that is not empty and not too long reaches `::sendto`. -/
theorem send_passes {s : UDPSender} {datagram : List UInt8} {k : Kernel} (hs : s.socket ≠ -1)
    (h0 : datagram ≠ []) (hlen : datagram.length ≤ UDPSender.MAX_LENGTH) :
    s.send datagram k = ((k.answers 0).result,
      ⟨fun n => k.answers (n + 1), k.received ++ [datagram]⟩) := by
  rw [UDPSender.send, if_neg hs, if_neg (by simpa using h0), if_neg (Nat.not_lt.2 hlen)]
  rfl

theorem sendAll_passes {s : UDPSender} (hs : s.socket ≠ -1) :
    ∀ {datagrams : List (List UInt8)} {k : Kernel},
      (∀ bytes ∈ datagrams, bytes ≠ [] ∧ bytes.length ≤ UDPSender.MAX_LENGTH) →
      s.sendAll datagrams k = ((List.range datagrams.length).map fun i => (k.answers i).result,
        ⟨fun n => k.answers (n + datagrams.length), k.received ++ datagrams⟩)
  | [], k, _ => by
    rw [UDPSender.sendAll, List.append_nil]
    rfl
  | datagram :: datagrams, k, h => by
    obtain ⟨⟨h0, hlen⟩, hrest⟩ := List.forall_mem_cons.1 h
    rw [UDPSender.sendAll, send_passes hs h0 hlen, sendAll_passes hs hrest, List.length_cons,
      List.range_succ_eq_map, List.map_cons, List.map_map, List.append_assoc,
      List.singleton_append]
    refine Prod.ext rfl ?_
    exact congrArg (Kernel.mk · _) (funext fun n => congrArg k.answers (Nat.add_assoc _ _ _))

theorem fitting_run [CDouble R] [HighFive R FS] [Host] {clock₀ : UInt64} {frequency : R}
    {type : Int} {fs : FS} {socket : ℕ → SendResult} {draws : ℕ → Draw} {w₀ : World R FS}
    (hw : readoutCreate clock₀ frequency type fs socket draws = .ok w₀) (calls : List (Call R)) :
    Fitting socket (runCalls w₀ calls) := by
  have hwire := wire_make hw
  have hfit : Fitting socket w₀ := by
    obtain ⟨d, prev, -, -, rfl⟩ := make_ok hw
    exact ⟨hwire, fun bytes hb => (by cases hb), rfl⟩
  exact runCalls_keeps _ fitting_effect (fun _ _ h => fitting_advanced h _ _) hfit calls

theorem Fitting.passable {answers : ℕ → SendResult} {w : World R FS} (h : Fitting answers w) :
    ∀ bytes ∈ w.datagrams, bytes ≠ [] ∧ bytes.length ≤ UDPSender.MAX_LENGTH := by
  intro bytes hb
  obtain ⟨hmin, hmax⟩ := h.sizes bytes hb
  exact ⟨List.ne_nil_of_length_pos (by omega), Nat.le_of_lt (Nat.lt_trans hmax (by decide))⟩

/-- **Every datagram reaches the system.**  In every run on a socket that
    answers what the sender makes of the answers of `::sendto`, handing the
    datagrams to the sender gives exactly the answers that the run had, leaves
    the answers that the run has left, and passes all of them on to `::sendto`,
    in order and as they are. -/
theorem reaches_sendto [CDouble R] [HighFive R FS] [Host] {clock₀ : UInt64} {frequency : R}
    {type : Int} {fs : FS} {draws : ℕ → Draw} {w₀ : World R FS} {s : UDPSender} {k : Kernel}
    (hw : readoutCreate clock₀ frequency type fs (fun i => (k.answers i).result) draws = .ok w₀)
    (hs : s.socket ≠ -1) (calls : List (Call R)) :
    let w := runCalls w₀ calls
    let after := s.sendAll w.datagrams k
    after.1 = (List.range w.datagrams.length).map w₀.socket ∧
      w.socket = (fun i => (after.2.answers i).result) ∧
      after.2.received = k.received ++ w.datagrams := by
  intro w after
  have hrun : Fitting (fun i => (k.answers i).result) w := fitting_run hw calls
  have hsocket : w₀.socket = fun i => (k.answers i).result := by
    obtain ⟨d, prev, -, -, rfl⟩ := make_ok hw
    rfl
  have hpass : after = _ := sendAll_passes hs hrun.passable
  rw [hpass, hrun.socket, hsocket]
  exact ⟨rfl, rfl, rfl⟩

/-- A system that takes all bytes of an empty packet. -/
def takesAll : Kernel := ⟨fun _ => ⟨30, 0, by decide⟩, []⟩

theorem reaches_sendto_atTen :
    let w := runCalls (World.created .BIFROST ⟨1, 0⟩ ⟨10, 0⟩ ⟨9, 0⟩ Disk.blank
      (fun i => (takesAll.answers i).result) ones) [(.send : Call ℚ), .setPulseTime 12500000000]
    (({ socket := 3 } : UDPSender).sendAll w.datagrams takesAll).2.received = w.datagrams ∧
      w.datagrams.length = 2 := by
  have hp : CDouble.toEfu (CDouble.recip (1 : ℚ)) = ⟨1, 0⟩ := by decide +kernel
  have ht : EfuTime.now 10000000000 = ⟨10, 0⟩ := by decide +kernel
  have hw : readoutCreate 10000000000 (1 : ℚ) DetectorType.BIFROST.code.toNat Disk.blank
      (fun i => (takesAll.answers i).result) ones = .ok (World.created .BIFROST ⟨1, 0⟩ ⟨10, 0⟩
        ⟨9, 0⟩ Disk.blank (fun i => (takesAll.answers i).result) ones) := by
    rw [readoutCreate, hp, ht]
    exact make_eq (detectorTypeFromInt_code .BIFROST) (by decide)
  exact ⟨(reaches_sendto hw (by decide) _).2.2, by decide +kernel⟩

/-! ## Answers -/

/-- The worlds are the same but for the answers of the socket. -/
def SameButSocket (w v : World R FS) : Prop := ∃ socket, v = { w with socket }

/-- The program does the same whatever the socket answers. -/
def Deaf {α : Type} (x : Prog R FS α) : Prop := Relates SameButSocket Eq x x

section
variable {α : Type}

theorem deaf_of_ok {x : Prog R FS α}
    (h : ∀ w socket, ∃ a v, x w = .ok a v ∧ x { w with socket } = .ok a { v with socket }) :
    Deaf x := by
  rintro w _ ⟨socket, rfl⟩
  obtain ⟨a, v, h1, h2⟩ := h w socket
  rw [h1, h2]
  exact .ok rfl ⟨socket, rfl⟩

theorem deaf_newPacket : Deaf (newPacket : Prog R FS Unit) :=
  deaf_of_ok fun _ _ => ⟨(), _, rfl, rfl⟩

theorem deaf_update (f : Readout → Readout) : Deaf (update f : Prog R FS Unit) :=
  deaf_of_ok fun _ _ => ⟨(), _, rfl, rfl⟩

theorem deaf_writeRecord (assign : Packed.Memory → ℕ → Packed.Memory) (length : ℕ) (r : Record) :
    Deaf (writeRecord assign length r : Prog R FS Unit) :=
  deaf_of_ok fun _ _ => ⟨(), _, rfl, rfl⟩

theorem deaf_onFiles (x : EStateM Exn FS α) : Deaf (R := R) (onFiles x) := by
  rintro w _ ⟨socket, rfl⟩
  cases h : x w.fs with
  | ok a fs =>
    rw [onFiles_ok h, onFiles_ok (w := { w with socket }) h]
    exact .ok rfl ⟨socket, rfl⟩
  | error e fs =>
    rw [onFiles_error h, onFiles_error (w := { w with socket }) h]
    exact .error ⟨socket, rfl⟩

theorem deaf_self {f : Readout → Prog R FS α} (h : ∀ o, Deaf (f o)) : Deaf (self >>= f) := by
  rintro w _ ⟨socket, rfl⟩
  exact h w.obj w _ ⟨socket, rfl⟩

/-- The code that `send` returns is not that of another socket. -/
theorem relates_send :
    Relates SameButSocket (fun _ _ => True) (send : Prog R FS Int) send := by
  rintro w _ ⟨socket, rfl⟩
  obtain ⟨code, h⟩ := send_eq w
  obtain ⟨code', h'⟩ := send_eq { w with socket }
  rw [h, h']
  refine .ok trivial ?_
  rw [World.flushed, World.flushed]
  split_ifs
  · exact ⟨socket, rfl⟩
  · exact ⟨fun n => socket (n + 1), rfl⟩

theorem deaf_send_bind {f : Prog R FS α} (h : Deaf f) :
    Deaf (do
      let _ ← (send : Prog R FS Int)
      f) := relates_bind relates_send fun _ _ _ => h

theorem deaf_checkSizeAndSend : Deaf (checkSizeAndSend : Prog R FS Unit) :=
  deaf_self fun _ => relates_ite Iff.rfl (deaf_send_bind deaf_newPacket) (relates_pure rfl)

theorem deaf_record (assign : Packed.Memory → ℕ → Packed.Memory) (length : ℕ) (r : Record) :
    Deaf (checkSizeAndSend >>= fun _ => writeRecord assign length r : Prog R FS Unit) :=
  relates_bind_eq deaf_checkSizeAndSend fun _ => deaf_writeRecord _ _ _

variable (ring fen : UInt8) (t : EfuTime) (data : VoidPtr)

theorem deaf_addReadoutAt : Deaf (addReadoutAt ring fen t data : Prog R FS Unit) := by
  refine deaf_self fun o => ?_
  cases readoutTypeFromDetectorType o.type with
  | error e => exact relates_throw e
  | ok readout =>
    cases readout with
    | CAEN | TTLMonitor | DREAM | VMM3 => exact deaf_record _ _ _
    | MAGIC => exact relates_throw _

theorem deaf_addCopies (weight : R) (n i : ℕ) :
    Deaf (addCopies ring fen t weight data n i : Prog R FS Unit) := by
  induction n generalizing i with
  | zero => exact relates_pure rfl
  | succ n ih =>
    refine relates_bind_eq (deaf_of_ok fun _ _ => ⟨_, _, rfl, rfl⟩) fun bound => ?_
    refine relates_ite Iff.rfl ?_ (relates_pure rfl)
    exact relates_bind_eq (deaf_addReadoutAt ring fen t data) fun _ => ih (i + 1)

variable [CDouble R] [HighFive R FS]

omit t in
theorem deaf_addReadout (tof weight : R) :
    Deaf (addReadout ring fen tof weight data : Prog R FS Unit) := by
  refine deaf_self fun o => relates_bind_eq (deaf_onFiles _) fun _ => ?_
  refine relates_ite Iff.rfl (relates_pure rfl) ?_
  refine relates_bind_eq (deaf_update _) fun _ => ?_
  refine relates_bind_eq (deaf_of_ok fun _ _ => ⟨(), _, rfl, rfl⟩) fun _ => ?_
  exact relates_ite Iff.rfl (deaf_addCopies ring fen _ data weight _ _)
    (deaf_addReadoutAt ring fen _ data)

end

theorem deaf_updateTime (clock : UInt64) : Deaf (updateTime clock : Prog R FS Unit) := by
  refine deaf_self fun o => relates_bind_eq (relates_lift _) fun now => ?_
  refine relates_bind_eq (relates_lift _) fun elapsed => ?_
  -- what follows the choice of the pulse before
  have hsend : Deaf
      (do
        let _ ← send
        let o ← self
        setPulseTime now.high now.low o.time.high o.time.low
        newPacket
        update fun o => { o with time := now } : Prog R FS Unit) := by
    refine deaf_send_bind (deaf_self fun o => ?_)
    refine relates_bind_eq (deaf_update _) fun _ => ?_
    exact relates_bind_eq deaf_newPacket fun _ => deaf_update _
  refine relates_ite Iff.rfl ?_ hsend
  refine relates_bind_eq (relates_lift _) fun prev => ?_
  exact relates_bind_eq (deaf_update _) fun _ => hsend

section
variable [HighFive R FS] [CDouble R] [Host]

theorem deaf_step (call : Call R) : Deaf (step call : Prog R FS Unit) := by
  cases call with
  | add clock ring fen tof weight data =>
    exact relates_bind_eq (deaf_updateTime clock) fun _ => deaf_addReadout ring fen data tof weight
  | setPulseTime clock => exact deaf_updateTime clock
  | send => exact deaf_send_bind (relates_pure rfl)
  | newPacket => exact deaf_newPacket
  | enableNetwork => exact deaf_update fun o => { o with network := true }
  | disableNetwork => exact deaf_update fun o => { o with network := false }
  | verbose v => exact deaf_update fun o => { o with verbosity := v }
  | dumpTo filename =>
    refine relates_ite Iff.rfl (relates_pure rfl) (deaf_self fun o => ?_)
    refine relates_bind_eq (relates_lift _) fun readout => ?_
    exact relates_bind_eq (deaf_onFiles _) fun writer => deaf_update _
  | destroy => exact deaf_send_bind (relates_pure rfl)

theorem sameButSocket_step {w v : World R FS} (h : SameButSocket w v) (call : Call R) :
    SameButSocket (final (step call) w) (final (step call) v) ∧
      (Returns (step call) w ↔ Returns (step call) v) := by
  have hout := deaf_step call w v h
  generalize hx : step call w = u at hout
  generalize hy : step call v = u' at hout
  cases hout with
  | ok _ hs =>
    rw [final_of_ok hx, final_of_ok hy]
    exact ⟨hs, fun _ => ⟨_, _, hy⟩, fun _ => ⟨_, _, hx⟩⟩
  | error hs =>
    rw [final_of_error hx, final_of_error hy]
    exact ⟨hs, fun hr => absurd hr (not_returns_of_error hx),
      fun hr => absurd hr (not_returns_of_error hy)⟩

theorem sameButSocket_run {w v : World R FS} (h : SameButSocket w v) (calls : List (Call R)) :
    SameButSocket (runCalls w calls) (runCalls v calls) := by
  induction calls generalizing w v with
  | nil => exact h
  | cons call calls ih => exact ih (sameButSocket_step h call).1

/-- **The socket is not listened to.**  Whatever it answers, the datagrams, the
    files, the object and all that is read are the same after a run, and the
    next call throws or not just the same. -/
theorem unheard (w : World R FS) (socket : ℕ → SendResult) (calls : List (Call R)) :
    (∃ socket', runCalls { w with socket } calls = { runCalls w calls with socket := socket' }) ∧
      ∀ call : Call R, Returns (step call) (runCalls w calls) ↔
        Returns (step call) (runCalls { w with socket } calls) := by
  have hsame : SameButSocket (runCalls w calls) (runCalls { w with socket } calls) :=
    sameButSocket_run ⟨socket, rfl⟩ calls
  exact ⟨hsame, fun call => (sameButSocket_step hsame call).2⟩

end

/-! ## Failures -/

/-- The line is the one with which `Readout::send` reports that a datagram was
    not sent.  What `check_and_send_tcp` says of a command is another one. -/
def ReportsUdpFailure (line : String) : Prop := "Sending UDP data failed".toList <+: line.toList

/-- The answers of the socket to come are no negative codes, and no datagram was
    reported to be lost. -/
structure Silent (c : Console R FS) : Prop where
  codes : ∀ n, 0 ≤ (c.world.socket n).errorCode
  lines : ∀ line ∈ c.stdout, ¬ ReportsUdpFailure line

/-- No answer of the sender is a negative code. -/
theorem errorCode_send (s : UDPSender) (datagram : List UInt8) (k : Kernel) :
    0 ≤ (s.send datagram k).1.errorCode := by
  rw [UDPSender.send]
  split_ifs with h1 h2 h3
  · show (0 : Int) ≤ 9
    decide
  · exact Int.le_refl 0
  · show (0 : Int) ≤ 7
    decide
  · dsimp only
    split_ifs with hneg
    · rcases (k.answers 0).contract with hb | ⟨-, he⟩
      · exact absurd hneg (Int.not_lt.2 hb)
      · exact Int.le_of_lt he
    · exact Int.le_refl 0

/-- A line with another first letter. -/
theorem not_reports {line : String} {c : Char} (h : line.toList.head? = some c) (hc : c ≠ 'S') :
    ¬ ReportsUdpFailure line := by
  rintro ⟨rest, hrest⟩
  rw [← hrest] at h
  exact hc (Option.some.inj h).symm

theorem head_append {text text' : String} {c : Char} (h : text.toList.head? = some c) :
    (text ++ text').toList.head? = some c := by
  rw [String.toList_append, List.head?_append, h]
  rfl

section
variable {α : Type}

theorem silent_print {text : String} (ht : ¬ ReportsUdpFailure text) (verbosity level : Int) :
    Keeps Silent (Console.print verbosity level text : Session R FS Unit) := by
  intro c h
  show Silent (if verbosity > level then { c with stdout := c.stdout ++ [text] } else c)
  split_ifs
  · refine ⟨h.codes, fun line hline => ?_⟩
    rcases List.mem_append.1 hline with hline | hline
    · exact h.lines line hline
    · obtain rfl := List.mem_singleton.1 hline
      exact ht
  · exact h

/-- The answers of the socket to come are no negative codes. -/
def Coded (w : World R FS) : Prop := ∀ n, 0 ≤ (w.socket n).errorCode

theorem silent_onWorld {x : Prog R FS α} (hx : Keeps Coded x) :
    Keeps Silent (Console.onWorld x) := by
  intro c h
  have hfinal : final (Console.onWorld x) c = { c with world := final x c.world } := by
    simp only [final, Console.onWorld]
    cases x c.world <;> rfl
  rw [hfinal]
  exact ⟨hx c.world h.codes, h.lines⟩

/-- A look at the object. -/
theorem silent_self {f : Readout → Session R FS α} (h : ∀ o, Keeps Silent (f o)) :
    Keeps Silent (Console.self >>= f) := fun c hc => h c.world.obj c hc

theorem coded_transmit (bytes : List UInt8) : Keeps Coded (transmit bytes : Prog R FS SendResult) :=
  fun _ h n => h (n + 1)

theorem coded_newPacket : Keeps Coded (newPacket : Prog R FS Unit) := fun _ h => h

theorem coded_update (f : Readout → Readout) : Keeps Coded (update f : Prog R FS Unit) :=
  fun _ h => h

theorem coded_onFiles (x : EStateM Exn FS α) : Keeps Coded (onFiles x : Prog R FS α) := by
  intro w h
  have hsocket : (final (onFiles x : Prog R FS α) w).socket = w.socket := by
    simp only [final, onFiles]
    cases x w.fs <;> rfl
  exact fun n => hsocket ▸ h n

/-- The error code of the socket is not negative, and so nothing is printed. -/
theorem silent_send : Keeps Silent (Console.send : Session R FS Int) := by
  refine silent_self fun o => ?_
  refine keeps_ite ?_ ?_
  · exact keeps_bind (silent_print (not_reports (by rfl) (by decide)) _ _) fun _ => keeps_pure 0
  · intro c h
    refine final_bind (silent_onWorld (coded_transmit _) c h) ?_
    intro result c' hc' h'
    obtain rfl : c.world.socket 0 = result := (EStateM.Result.ok.inj hc').1
    have hcode : ¬ (c.world.socket 0).errorCode < 0 := Int.not_lt.2 (h.codes 0)
    rw [if_neg hcode]
    exact keeps_bind (silent_onWorld coded_newPacket) (fun _ => keeps_pure _) c' h'

theorem silent_checkSizeAndSend :
    Keeps Silent (Console.checkSizeAndSend : Session R FS Unit) := by
  refine silent_self fun o => keeps_ite ?_ (keeps_pure ())
  exact keeps_bind silent_send fun _ => silent_onWorld coded_newPacket

theorem silent_record (assign : Packed.Memory → ℕ → Packed.Memory) (length : ℕ) (r : Record) :
    Keeps Silent (Console.checkSizeAndSend >>= fun _ =>
      Console.onWorld (writeRecord assign length r) : Session R FS Unit) :=
  keeps_bind silent_checkSizeAndSend fun _ => silent_onWorld fun _ h => h

theorem head_addedHead {ring fen : UInt8} {t : EfuTime} :
    (Console.addedHead ring fen t).toList.head? = some 'A' := by
  refine head_append (head_append (head_append (head_append (head_append (head_append
    (head_append ?_))))))
  rfl

/-- The line printed for a record. -/
theorem not_reports_added {ring fen : UInt8} {t : EfuTime} {a b c d e f g : String} :
    ¬ ReportsUdpFailure (Console.addedHead ring fen t ++ a ++ b ++ c ++ d ++ e ++ f ++ g) :=
  not_reports (head_append (head_append (head_append (head_append (head_append (head_append
    (head_append head_addedHead))))))) (by decide)

variable (ring fen : UInt8) (t : EfuTime) (data : VoidPtr)

theorem silent_addReadoutAt :
    Keeps Silent (Console.addReadoutAt ring fen t data : Session R FS Unit) := by
  refine silent_self fun o => ?_
  cases readoutTypeFromDetectorType o.type with
  | error e => exact keeps_throw e
  | ok readout =>
    cases readout with
    | CAEN =>
      refine keeps_bind silent_checkSizeAndSend fun _ => silent_self fun o => ?_
      exact keeps_bind (silent_print not_reports_added _ _) fun _ => silent_onWorld fun _ h => h
    | TTLMonitor =>
      refine silent_self fun o => keeps_bind (silent_print not_reports_added _ _) fun _ => ?_
      exact silent_record _ _ _
    | DREAM => exact silent_record _ _ _
    | VMM3 => exact silent_record _ _ _
    | MAGIC => exact keeps_throw _

theorem silent_addCopies (weight : R) (n i : ℕ) :
    Keeps Silent (Console.addCopies ring fen t weight data n i : Session R FS Unit) := by
  induction n generalizing i with
  | zero => exact keeps_pure ()
  | succ n ih =>
    refine keeps_bind (silent_onWorld fun _ h => h) fun bound => ?_
    refine keeps_ite ?_ (keeps_pure ())
    exact keeps_bind (silent_addReadoutAt ring fen t data) fun _ => ih (i + 1)

variable [CDouble R] [HighFive R FS]

omit t in
theorem silent_addReadout (tof weight : R) :
    Keeps Silent (Console.addReadout ring fen tof weight data : Session R FS Unit) := by
  refine silent_self fun o => keeps_bind (silent_onWorld (coded_onFiles _)) fun _ => ?_
  refine keeps_ite ?_ ?_
  · exact keeps_bind (silent_print (not_reports (by rfl) (by decide)) _ _) fun _ =>
      keeps_pure ()
  · refine keeps_bind (silent_onWorld (coded_update _)) fun _ => ?_
    refine keeps_bind (silent_onWorld fun _ h => h) fun _ => ?_
    exact keeps_ite (silent_addCopies ring fen _ data weight _ _)
      (silent_addReadoutAt ring fen _ data)

end

theorem silent_updateTime (clock : UInt64) :
    Keeps Silent (Console.updateTime clock : Session R FS Unit) := by
  refine silent_self fun o => keeps_bind (keeps_lift _) fun now => ?_
  refine keeps_bind (keeps_lift _) fun elapsed => ?_
  -- what follows the choice of the pulse before
  have hsend : Keeps Silent
      (do
        let _ ← Console.send
        let o ← Console.self
        Console.onWorld (setPulseTime now.high now.low o.time.high o.time.low)
        Console.onWorld newPacket
        Console.onWorld (update fun o => { o with time := now }) : Session R FS Unit) := by
    refine keeps_bind silent_send fun _ => silent_self fun o => ?_
    refine keeps_bind (silent_onWorld (coded_update _)) fun _ => ?_
    exact keeps_bind (silent_onWorld coded_newPacket) fun _ => silent_onWorld (coded_update _)
  refine keeps_ite ?_ hsend
  refine keeps_bind (keeps_lift _) fun prev => ?_
  exact keeps_bind (silent_onWorld (coded_update _)) fun _ => hsend

theorem coded_effect [CDouble R] {w w' : World R FS} (he : Effect w w') (h : Coded w) :
    Coded w' := by
  have hflushed : ∀ {v : World R FS}, Coded v → Coded v.flushed := fun {v} hv => by
    rw [World.flushed]
    split_ifs
    · exact hv
    · exact fun n => hv (n + 1)
  have hroom : Coded w.room := by
    rw [World.room]
    split_ifs
    · exact hflushed h
    · exact h
  cases he with
  | configured | noted | fresh => exact h
  | added ha =>
    cases ha with
    | drawn => exact h
    | recorded => exact hroom
  | flushed => exact hflushed h

theorem silent_step [HighFive R FS] [CDouble R] [Host] (call : Call R) :
    Keeps Silent (Console.step call : Session R FS Unit) := by
  have hupdate : ∀ f : Readout → Readout,
      Keeps Silent (Console.onWorld (update f) : Session R FS Unit) := fun f =>
    silent_onWorld (coded_update f)
  cases call with
  | add clock ring fen tof weight data =>
    exact keeps_bind (silent_updateTime clock) fun _ => silent_addReadout ring fen data tof weight
  | setPulseTime clock => exact silent_updateTime clock
  | send => exact keeps_bind silent_send fun _ => keeps_pure ()
  | newPacket => exact silent_onWorld coded_newPacket
  | enableNetwork => exact hupdate fun o => { o with network := true }
  | disableNetwork => exact hupdate fun o => { o with network := false }
  | verbose v => exact hupdate fun o => { o with verbosity := v }
  | dumpTo filename =>
    refine silent_onWorld (keeps_ite (keeps_pure ()) fun w h => ?_)
    exact (dumpTo_effects w filename "events").keeps Coded coded_effect h
  | destroy => exact keeps_bind silent_send fun _ => keeps_pure ()

/-! ## Failures in a shutdown -/

section
variable {α : Type}

theorem silent_get {f : Console R FS → Session R FS α} (h : ∀ c, Keeps Silent (f c)) :
    Keeps Silent (get >>= f) := fun c hc => h c c hc

theorem silent_checkAndSendTcp (addr : String) (port : UInt16) (message : Except Exn String)
    (verbosity : Int) :
    Keeps Silent (Console.checkAndSendTcp addr port message verbosity : Session R FS Int) := by
  refine keeps_bind (keeps_lift _) fun message => ?_
  refine keeps_bind (fun _ h => ⟨h.codes, h.lines⟩) fun result => ?_
  refine keeps_ite ?_ (keeps_pure _)
  refine keeps_bind (silent_print ?_ _ _) fun _ => keeps_pure _
  refine not_reports (head_append (head_append (head_append (head_append ?_)))) (c := 'F')
    (by decide)
  rfl

theorem silent_probing {probe : ℕ → Session R FS Int} (hp : ∀ i, Keeps Silent (probe i))
    (limit i : ℕ) (ok : Int) : Keeps Silent (Console.probing probe limit i ok) := by
  induction limit generalizing i ok with
  | zero => exact keeps_pure _
  | succ limit ih => exact keeps_ite (keeps_bind (hp i) fun ok => ih _ _) (keeps_pure _)

theorem silent_afterExit {probe : ℕ → Session R FS Int} (hp : ∀ i, Keeps Silent (probe i))
    (limit : ℕ) (ok : Int) : Keeps Silent (Console.afterExit probe limit ok) := by
  refine silent_get fun c => keeps_ite ?_ (keeps_ite ?_ ?_)
  · refine keeps_bind (silent_print ?_ _ _) fun _ => keeps_pure _
    refine not_reports (head_append (head_append (head_append (head_append ?_)))) (c := 'C')
      (by decide)
    rfl
  · exact keeps_bind (silent_print (not_reports (by rfl) (by decide)) _ _) fun _ => keeps_pure _
  · refine keeps_bind (silent_probing hp limit 0 _) fun ended => ?_
    cases ended with
    | none => exact keeps_pure _
    | some ok =>
      refine keeps_ite ?_ (keeps_pure _)
      exact keeps_bind (silent_print (not_reports (by rfl) (by decide)) _ _) fun _ =>
        keeps_pure _

variable [StdString]

theorem silent_shutdown (limit : ℕ) :
    Keeps Silent (Console.commandShutdown limit : Session R FS (Option Int)) := by
  refine silent_get fun c => keeps_ite ?_ ?_
  · exact keeps_bind (silent_print (not_reports (by rfl) (by decide)) _ _) fun _ => keeps_pure _
  · refine keeps_bind (silent_checkAndSendTcp _ _ _ _) fun ok => silent_afterExit (fun _ => ?_) _ _
    exact silent_get fun c => silent_checkAndSendTcp _ _ _ _

end

section
variable [StdString] [HighFive R FS] [CDouble R] [Host] {c : Console R FS}

theorem silent_perform (limit : ℕ) (command : Command R) (h : Silent c) :
    Silent (Console.perform limit command c).2 := by
  cases command with
  | call call =>
    have hstep := silent_step call c h
    rw [Console.perform]
    simp only [final] at hstep
    cases hc : Console.step call c with
    | ok a c' => rwa [hc] at hstep
    | error e c' => rwa [hc] at hstep
  | shutdown =>
    have hshut := silent_shutdown limit c h
    rw [Console.perform]
    simp only [final] at hshut
    cases hc : Console.commandShutdown limit c with
    | ok value c' =>
      rw [hc] at hshut
      cases value <;> exact hshut
    | error e c' => rwa [hc] at hshut

theorem silent_session (limit : ℕ) : ∀ {commands : List (Command R)} {c : Console R FS}, Silent c →
    Silent (Console.session limit c commands).2
  | [], _, h => h
  | command :: commands, c, h => by
    have hp := silent_perform limit command h
    rw [Console.session]
    dsimp only
    split_ifs
    · exact hp
    · exact silent_session limit hp
    · exact silent_session limit hp

/-- **Lost datagrams are not reported.**  In no session whose socket answers
    what a `UDPSender` can answer, however many datagrams are lost to a socket
    that was never made or to errors of the system, is the line printed that
    reports them. -/
theorem failures_unreported (limit : ℕ) (commands : List (Command R)) (hnew : c.stdout = [])
    (hs : ∀ n, ∃ (s : UDPSender) (datagram : List UInt8) (k : Kernel),
      c.world.socket n = (s.send datagram k).1) :
    ∀ line ∈ (Console.session limit c commands).2.stdout, ¬ ReportsUdpFailure line := by
  have hsilent : Silent c := by
    refine ⟨fun n => ?_, fun line hline => ?_⟩
    · obtain ⟨s, datagram, k, h⟩ := hs n
      rw [h]
      exact errorCode_send s datagram k
    · rw [hnew] at hline
      cases hline
  exact (silent_session limit hsilent).lines

end

/-- A sender without a socket. -/
def closedSocket : ℕ → SendResult := fun _ => ⟨-1, UDPSender.EBADF⟩

theorem failures_unreported_closed :
    let c : Console ℚ (Disk ℚ) :=
      { Console.atTenWith Console.refused with
        world := { atTen .BIFROST with socket := closedSocket } }
    let after := (Console.session 3 c [.call (.verbose 3), .call .send, .call .send]).2
    (∀ line ∈ after.stdout, ¬ ReportsUdpFailure line) ∧ after.world.datagrams.length = 2 := by
  intro c after
  have hs : ∀ n, ∃ (s : UDPSender) (datagram : List UInt8) (k : Kernel),
      c.world.socket n = (s.send datagram k).1 := fun n => ⟨{ socket := -1 }, [], takesAll, rfl⟩
  exact ⟨failures_unreported 3 _ rfl hs, by decide +kernel⟩

end ReadoutMaster
