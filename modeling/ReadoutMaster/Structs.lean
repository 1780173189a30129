/-
  The packed wire structures (lib/Structs.h), the C readout structures
  (lib/Readout.h), and the datagram a receiver decodes.

  The four readout structures start with the same five members, here
  `ReadoutHead`.  A `Record` is a readout of any of the four kinds; `Packet`
  is the content of a datagram, a header with its records, and
  `Packet.decode` reads it from bytes the way a receiver does: a header, then
  back-to-back records of one kind up to `TotalLength`.  `decode_enc` is the
  round trip.
-/
import ReadoutMaster.Enums
import ReadoutMaster.Lib.Packed

namespace ReadoutMaster

open Packed

/-! ## Packet header -/

structure PacketHeaderV0 where
  padding0 : UInt8
  version : UInt8
  cookieAndType : UInt32
  totalLength : UInt16
  outputQueue : UInt8
  timeSource : UInt8
  pulseHigh : UInt32
  pulseLow : UInt32
  prevPulseHigh : UInt32
  prevPulseLow : UInt32
  seqNum : UInt32
  deriving DecidableEq, Repr

namespace PacketHeaderV0

def codec : Codec PacketHeaderV0 :=
  (Codec.u8.prod <| Codec.u8.prod <| Codec.u32.prod <| Codec.u16.prod <| Codec.u8.prod <|
    Codec.u8.prod <| Codec.u32.prod <| Codec.u32.prod <| Codec.u32.prod <| Codec.u32.prod
      Codec.u32).iso
    ⟨fun h => (h.padding0, h.version, h.cookieAndType, h.totalLength, h.outputQueue, h.timeSource,
        h.pulseHigh, h.pulseLow, h.prevPulseHigh, h.prevPulseLow, h.seqNum),
      fun (a, b, c, d, e, f, g, h, i, j, k) => ⟨a, b, c, d, e, f, g, h, i, j, k⟩,
      fun _ => rfl, fun _ => rfl⟩

/-- `sizeof(struct PacketHeaderV0)` -/
@[simp] theorem size_codec : codec.size = 30 := rfl

namespace At
def padding0 : Member UInt8 := ⟨0, Codec.u8⟩
def version : Member UInt8 := ⟨1, Codec.u8⟩
def cookieAndType : Member UInt32 := ⟨2, Codec.u32⟩
def totalLength : Member UInt16 := ⟨6, Codec.u16⟩
def outputQueue : Member UInt8 := ⟨8, Codec.u8⟩
def timeSource : Member UInt8 := ⟨9, Codec.u8⟩
def pulseHigh : Member UInt32 := ⟨10, Codec.u32⟩
def pulseLow : Member UInt32 := ⟨14, Codec.u32⟩
def prevPulseHigh : Member UInt32 := ⟨18, Codec.u32⟩
def prevPulseLow : Member UInt32 := ⟨22, Codec.u32⟩
def seqNum : Member UInt32 := ⟨26, Codec.u32⟩
end At

theorem has_iff {m : Memory} {a : ℕ} {h : PacketHeaderV0} :
    m.Has a codec h ↔ m.Holds a At.padding0 h.padding0 ∧ m.Holds a At.version h.version ∧
      m.Holds a At.cookieAndType h.cookieAndType ∧ m.Holds a At.totalLength h.totalLength ∧
      m.Holds a At.outputQueue h.outputQueue ∧ m.Holds a At.timeSource h.timeSource ∧
      m.Holds a At.pulseHigh h.pulseHigh ∧ m.Holds a At.pulseLow h.pulseLow ∧
      m.Holds a At.prevPulseHigh h.prevPulseHigh ∧ m.Holds a At.prevPulseLow h.prevPulseLow ∧
      m.Holds a At.seqNum h.seqNum := by
  simp only [codec, Memory.has_iso, Memory.has_prod]; rfl

/-- The reference pulse of the packet. -/
def pulse (h : PacketHeaderV0) : EfuTime := ⟨h.pulseHigh, h.pulseLow⟩

def prevPulse (h : PacketHeaderV0) : EfuTime := ⟨h.prevPulseHigh, h.prevPulseLow⟩

/-- The detector type in the top byte of `CookieAndType`. -/
def detector (h : PacketHeaderV0) : UInt32 := h.cookieAndType >>> 24

/-- The cookie below the detector type. -/
def cookie (h : PacketHeaderV0) : UInt32 := h.cookieAndType - (h.detector <<< 24)

end PacketHeaderV0

/-! ## Readout records -/

/-- The members every readout structure starts with. -/
structure ReadoutHead where
  ring : UInt8
  fen : UInt8
  length : UInt16
  timeHigh : UInt32
  timeLow : UInt32
  deriving DecidableEq, Repr

structure CaenData extends ReadoutHead where
  omFlag : UInt8
  tube : UInt8
  seqNum : UInt16
  amplA : UInt16
  amplB : UInt16
  amplC : UInt16
  amplD : UInt16
  deriving DecidableEq, Repr

structure TTLMonitorData extends ReadoutHead where
  pos : UInt8
  channel : UInt8
  adc : UInt16
  deriving DecidableEq, Repr

structure DreamData extends ReadoutHead where
  om : UInt8
  unused : UInt8
  cathode : UInt8
  anode : UInt8
  deriving DecidableEq, Repr

structure VMM3Data extends ReadoutHead where
  bc : UInt16
  otadc : UInt16
  geo : UInt8
  tdc : UInt8
  vmm : UInt8
  channel : UInt8
  deriving DecidableEq, Repr

namespace ReadoutHead

def codec : Codec ReadoutHead :=
  (Codec.u8.prod <| Codec.u8.prod <| Codec.u16.prod <| Codec.u32.prod Codec.u32).iso
    ⟨fun h => (h.ring, h.fen, h.length, h.timeHigh, h.timeLow),
      fun (a, b, c, d, e) => ⟨a, b, c, d, e⟩, fun _ => rfl, fun _ => rfl⟩

@[simp] theorem size_codec : codec.size = 12 := rfl

namespace At
def ring : Member UInt8 := ⟨0, Codec.u8⟩
def fen : Member UInt8 := ⟨1, Codec.u8⟩
def length : Member UInt16 := ⟨2, Codec.u16⟩
def timeHigh : Member UInt32 := ⟨4, Codec.u32⟩
def timeLow : Member UInt32 := ⟨8, Codec.u32⟩
end At

theorem has_iff {m : Memory} {a : ℕ} {h : ReadoutHead} :
    m.Has a codec h ↔ m.Holds a At.ring h.ring ∧ m.Holds a At.fen h.fen ∧
      m.Holds a At.length h.length ∧ m.Holds a At.timeHigh h.timeHigh ∧
      m.Holds a At.timeLow h.timeLow := by
  simp only [codec, Memory.has_iso, Memory.has_prod]; rfl

/-- The time stamp of the record. -/
def time (h : ReadoutHead) : EfuTime := ⟨h.timeHigh, h.timeLow⟩

end ReadoutHead

namespace CaenData

def codec : Codec CaenData :=
  (ReadoutHead.codec.prod <| Codec.u8.prod <| Codec.u8.prod <| Codec.u16.prod <|
    Codec.u16.prod <| Codec.u16.prod <| Codec.u16.prod Codec.u16).iso
    ⟨fun d => (d.toReadoutHead, d.omFlag, d.tube, d.seqNum, d.amplA, d.amplB, d.amplC, d.amplD),
      fun (h, a, b, c, d, e, f, g) => ⟨h, a, b, c, d, e, f, g⟩, fun _ => rfl, fun _ => rfl⟩

/-- `sizeof(struct CaenData)` -/
@[simp] theorem size_codec : codec.size = 24 := rfl

namespace At
def omFlag : Member UInt8 := ⟨12, Codec.u8⟩
def tube : Member UInt8 := ⟨13, Codec.u8⟩
def seqNum : Member UInt16 := ⟨14, Codec.u16⟩
def amplA : Member UInt16 := ⟨16, Codec.u16⟩
def amplB : Member UInt16 := ⟨18, Codec.u16⟩
def amplC : Member UInt16 := ⟨20, Codec.u16⟩
def amplD : Member UInt16 := ⟨22, Codec.u16⟩
end At

theorem has_iff {m : Memory} {a : ℕ} {d : CaenData} :
    m.Has a codec d ↔ m.Has a ReadoutHead.codec d.toReadoutHead ∧
      m.Holds a At.omFlag d.omFlag ∧
      m.Holds a At.tube d.tube ∧
      m.Holds a At.seqNum d.seqNum ∧
      m.Holds a At.amplA d.amplA ∧
      m.Holds a At.amplB d.amplB ∧
      m.Holds a At.amplC d.amplC ∧
      m.Holds a At.amplD d.amplD := by
  simp only [codec, Memory.has_iso, Memory.has_prod]; rfl

end CaenData

namespace TTLMonitorData

def codec : Codec TTLMonitorData :=
  (ReadoutHead.codec.prod <| Codec.u8.prod <| Codec.u8.prod Codec.u16).iso
    ⟨fun d => (d.toReadoutHead, d.pos, d.channel, d.adc),
      fun (h, a, b, c) => ⟨h, a, b, c⟩, fun _ => rfl, fun _ => rfl⟩

/-- `sizeof(struct TTLMonitorData)` -/
@[simp] theorem size_codec : codec.size = 16 := rfl

namespace At
def pos : Member UInt8 := ⟨12, Codec.u8⟩
def channel : Member UInt8 := ⟨13, Codec.u8⟩
def adc : Member UInt16 := ⟨14, Codec.u16⟩
end At

theorem has_iff {m : Memory} {a : ℕ} {d : TTLMonitorData} :
    m.Has a codec d ↔ m.Has a ReadoutHead.codec d.toReadoutHead ∧
      m.Holds a At.pos d.pos ∧
      m.Holds a At.channel d.channel ∧
      m.Holds a At.adc d.adc := by
  simp only [codec, Memory.has_iso, Memory.has_prod]; rfl

end TTLMonitorData

namespace DreamData

def codec : Codec DreamData :=
  (ReadoutHead.codec.prod <| Codec.u8.prod <| Codec.u8.prod <| Codec.u8.prod Codec.u8).iso
    ⟨fun d => (d.toReadoutHead, d.om, d.unused, d.cathode, d.anode),
      fun (h, a, b, c, d) => ⟨h, a, b, c, d⟩, fun _ => rfl, fun _ => rfl⟩

/-- `sizeof(struct DreamData)` -/
@[simp] theorem size_codec : codec.size = 16 := rfl

namespace At
def om : Member UInt8 := ⟨12, Codec.u8⟩
def unused : Member UInt8 := ⟨13, Codec.u8⟩
def cathode : Member UInt8 := ⟨14, Codec.u8⟩
def anode : Member UInt8 := ⟨15, Codec.u8⟩
end At

theorem has_iff {m : Memory} {a : ℕ} {d : DreamData} :
    m.Has a codec d ↔ m.Has a ReadoutHead.codec d.toReadoutHead ∧
      m.Holds a At.om d.om ∧
      m.Holds a At.unused d.unused ∧
      m.Holds a At.cathode d.cathode ∧
      m.Holds a At.anode d.anode := by
  simp only [codec, Memory.has_iso, Memory.has_prod]; rfl

end DreamData

namespace VMM3Data

def codec : Codec VMM3Data :=
  (ReadoutHead.codec.prod <| Codec.u16.prod <| Codec.u16.prod <| Codec.u8.prod <|
    Codec.u8.prod <| Codec.u8.prod Codec.u8).iso
    ⟨fun d => (d.toReadoutHead, d.bc, d.otadc, d.geo, d.tdc, d.vmm, d.channel),
      fun (h, a, b, c, d, e, f) => ⟨h, a, b, c, d, e, f⟩, fun _ => rfl, fun _ => rfl⟩

/-- `sizeof(struct VMM3Data)` -/
@[simp] theorem size_codec : codec.size = 20 := rfl

namespace At
def bc : Member UInt16 := ⟨12, Codec.u16⟩
def otadc : Member UInt16 := ⟨14, Codec.u16⟩
def geo : Member UInt8 := ⟨16, Codec.u8⟩
def tdc : Member UInt8 := ⟨17, Codec.u8⟩
def vmm : Member UInt8 := ⟨18, Codec.u8⟩
def channel : Member UInt8 := ⟨19, Codec.u8⟩
end At

theorem has_iff {m : Memory} {a : ℕ} {d : VMM3Data} :
    m.Has a codec d ↔ m.Has a ReadoutHead.codec d.toReadoutHead ∧
      m.Holds a At.bc d.bc ∧
      m.Holds a At.otadc d.otadc ∧
      m.Holds a At.geo d.geo ∧
      m.Holds a At.tdc d.tdc ∧
      m.Holds a At.vmm d.vmm ∧
      m.Holds a At.channel d.channel := by
  simp only [codec, Memory.has_iso, Memory.has_prod]; rfl

end VMM3Data

/-- A readout of one of the four kinds. -/
inductive Record where
  | caen (d : CaenData)
  | ttlMonitor (d : TTLMonitorData)
  | dream (d : DreamData)
  | vmm3 (d : VMM3Data)
  deriving DecidableEq, Repr

namespace Record

def type : Record → ReadoutType
  | caen _ => .CAEN
  | ttlMonitor _ => .TTLMonitor
  | dream _ => .DREAM
  | vmm3 _ => .VMM3

def head : Record → ReadoutHead
  | caen d => d.toReadoutHead
  | ttlMonitor d => d.toReadoutHead
  | dream d => d.toReadoutHead
  | vmm3 d => d.toReadoutHead

def enc : Record → List UInt8
  | caen d => CaenData.codec.enc d
  | ttlMonitor d => TTLMonitorData.codec.enc d
  | dream d => DreamData.codec.enc d
  | vmm3 d => VMM3Data.codec.enc d

/-- The size of the structure of a readout type; `MAGIC` has none. -/
def sizeOf : ReadoutType → ℕ
  | .CAEN => 24
  | .TTLMonitor => 16
  | .DREAM => 16
  | .VMM3 => 20
  | .MAGIC => 0

def size (r : Record) : ℕ := sizeOf r.type

/-- Read a record of the given type. -/
def dec : ReadoutType → Parser Record
  | .CAEN, bs => (CaenData.codec.dec bs).map fun (d, bs) => (caen d, bs)
  | .TTLMonitor, bs => (TTLMonitorData.codec.dec bs).map fun (d, bs) => (ttlMonitor d, bs)
  | .DREAM, bs => (DreamData.codec.dec bs).map fun (d, bs) => (dream d, bs)
  | .VMM3, bs => (VMM3Data.codec.dec bs).map fun (d, bs) => (vmm3 d, bs)
  | .MAGIC, _ => none

@[simp] theorem length_enc (r : Record) : r.enc.length = r.size := by
  cases r <;> simp [enc, size, sizeOf, type]

theorem dec_enc (r : Record) (rest : List UInt8) : dec r.type (r.enc ++ rest) = some (r, rest) := by
  cases r <;> simp [enc, dec, type]

theorem sizeOf_le (t : ReadoutType) : sizeOf t ≤ 24 := by cases t <;> decide

theorem size_pos (r : Record) : 0 < r.size := by cases r <;> exact Nat.succ_pos _

/-- The bytes of records standing back to back. -/
def encAll (rs : List Record) : List UInt8 := (rs.map enc).flatten

theorem encAll_append (rs rs' : List Record) : encAll (rs ++ rs') = encAll rs ++ encAll rs' := by
  simp [encAll]

@[simp] theorem encAll_singleton (r : Record) : encAll [r] = r.enc := by simp [encAll]

theorem length_encAll_of_type {t : ReadoutType} :
    ∀ {rs : List Record}, (∀ r ∈ rs, r.type = t) → (encAll rs).length = rs.length * sizeOf t
  | [], _ => by simp [encAll]
  | r :: rs, h => by
    have ih := length_encAll_of_type fun r' hr' => h r' (List.mem_cons_of_mem _ hr')
    have hr : r.size = sizeOf t := by rw [size, h r List.mem_cons_self]
    simp only [encAll, List.map_cons, List.flatten_cons, List.length_append, length_enc,
      List.length_cons] at ih ⊢
    rw [ih, hr, Nat.succ_mul, Nat.add_comm]

/-- The member `Length` of the structure at the start of a byte string. -/
def lengthField (bs : List UInt8) : Option ℕ :=
  (ReadoutHead.codec.dec bs).map fun (h, _) => h.length.toNat

/-- Walk over structures standing back to back by their members `Length`. -/
def walk (bs : List UInt8) : Option (List (List UInt8)) :=
  Parser.frames lengthField bs.length bs

theorem lengthField_enc (r : Record) (rest : List UInt8) :
    lengthField (r.enc ++ rest) = some r.head.length.toNat := by
  have h : ∃ tail, r.enc = ReadoutHead.codec.enc r.head ++ tail := by
    cases r <;> exact ⟨_, rfl⟩
  obtain ⟨tail, h⟩ := h
  rw [lengthField, h, List.append_assoc, Codec.dec_enc]
  rfl

/-- Structures that say their sizes are walked over one by one. -/
theorem walk_encAll {rs : List Record} (h : ∀ r ∈ rs, r.head.length.toNat = r.size) :
    walk (encAll rs) = some (rs.map enc) := by
  refine Parser.frames_flatten ?_ le_rfl
  intro f hf
  obtain ⟨r, hr, rfl⟩ := List.mem_map.1 hf
  refine ⟨?_, fun rest => ?_⟩
  · rw [length_enc]
    exact r.size_pos
  · rw [lengthField_enc, h r hr, length_enc]

end Record

/-! ## Datagrams -/

/-- The content of a datagram. -/
structure Packet where
  header : PacketHeaderV0
  records : List Record
  deriving DecidableEq, Repr

namespace Packet

def enc (p : Packet) : List UInt8 := PacketHeaderV0.codec.enc p.header ++ Record.encAll p.records

/-- Decode a datagram of records of type `t`: the header, then whole records
    up to `TotalLength`, where the datagram ends. -/
def decode (t : ReadoutType) (bs : List UInt8) : Option Packet := do
  let (header, body) ← PacketHeaderV0.codec.dec bs
  if header.totalLength.toNat = bs.length ∧ body.length % Record.sizeOf t = 0 then
    let (records, _) ← Parser.many (Record.dec t) (body.length / Record.sizeOf t) body
    return ⟨header, records⟩
  else none

/-- **A datagram is decoded to the packet it encodes.** -/
theorem decode_enc {t : ReadoutType} {p : Packet} (ht : t ≠ .MAGIC)
    (hr : ∀ r ∈ p.records, r.type = t) (hl : p.header.totalLength.toNat = p.enc.length) :
    decode t p.enc = some p := by
  have hs : 0 < Record.sizeOf t := by cases t <;> first | exact absurd rfl ht | decide
  have hb := Record.length_encAll_of_type hr
  have hm : Parser.many (Record.dec t) p.records.length ((p.records.map Record.enc).flatten ++ []) =
      some (p.records, []) :=
    Parser.many_flatten (fun r h rest => by rw [← hr r h]; exact r.dec_enc rest) []
  rw [List.append_nil] at hm
  simp only [enc] at hl ⊢
  simp only [decode, Codec.dec_enc, Option.bind_eq_bind, Option.bind_some, hl, hb,
    Nat.mul_mod_left, and_self, if_true, Nat.mul_div_cancel _ hs]
  rw [Record.encAll, hm]
  rfl

end Packet

/-! ## C readout structures -/

structure CAENReadout where
  channel : UInt8
  a : UInt16
  b : UInt16
  c : UInt16
  d : UInt16
  deriving DecidableEq, Repr

structure TTLMonitorReadout where
  channel : UInt8
  pos : UInt8
  adc : UInt16
  deriving DecidableEq, Repr

structure DREAMReadout where
  om : UInt8
  cathode : UInt8
  anode : UInt8
  deriving DecidableEq, Repr

structure VMM3Readout where
  bc : UInt16
  otadc : UInt16
  geo : UInt8
  tdc : UInt8
  vmm : UInt8
  channel : UInt8
  deriving DecidableEq, Repr

/-- A `const void *` to a readout structure: the bytes it points to.  A cast
    reads the members where natural alignment puts them. -/
abbrev VoidPtr := Memory

namespace VoidPtr

def toCAEN (p : VoidPtr) : CAENReadout := ⟨p.u8 0, p.u16 2, p.u16 4, p.u16 6, p.u16 8⟩
def toTTLMonitor (p : VoidPtr) : TTLMonitorReadout := ⟨p.u8 0, p.u8 1, p.u16 2⟩
def toDREAM (p : VoidPtr) : DREAMReadout := ⟨p.u8 0, p.u8 1, p.u8 2⟩
def toVMM3 (p : VoidPtr) : VMM3Readout := ⟨p.u16 0, p.u16 2, p.u8 4, p.u8 5, p.u8 6, p.u8 7⟩

/-- Memory of zeros, for the bytes no member stands in. -/
def blank : Memory := fun _ => 0

def ofCAEN (r : CAENReadout) : VoidPtr :=
  blank |>.set 0 ⟨0, Codec.u8⟩ r.channel |>.set 0 ⟨2, Codec.u16⟩ r.a |>.set 0 ⟨4, Codec.u16⟩ r.b
    |>.set 0 ⟨6, Codec.u16⟩ r.c |>.set 0 ⟨8, Codec.u16⟩ r.d

def ofTTLMonitor (r : TTLMonitorReadout) : VoidPtr :=
  blank |>.set 0 ⟨0, Codec.u8⟩ r.channel |>.set 0 ⟨1, Codec.u8⟩ r.pos
    |>.set 0 ⟨2, Codec.u16⟩ r.adc

def ofDREAM (r : DREAMReadout) : VoidPtr :=
  blank |>.set 0 ⟨0, Codec.u8⟩ r.om |>.set 0 ⟨1, Codec.u8⟩ r.cathode
    |>.set 0 ⟨2, Codec.u8⟩ r.anode

def ofVMM3 (r : VMM3Readout) : VoidPtr :=
  blank |>.set 0 ⟨0, Codec.u16⟩ r.bc |>.set 0 ⟨2, Codec.u16⟩ r.otadc |>.set 0 ⟨4, Codec.u8⟩ r.geo
    |>.set 0 ⟨5, Codec.u8⟩ r.tdc |>.set 0 ⟨6, Codec.u8⟩ r.vmm |>.set 0 ⟨7, Codec.u8⟩ r.channel

/-- The member last assigned at `a`, past assignments elsewhere. -/
theorem u8_set_of_disjoint {α : Type} {m : Memory} {a b : ℕ} {f : Member α} {x : α}
    (h : a < b + f.offset ∨ b + f.offset + f.codec.size ≤ a) : (m.set b f x).u8 a = m.u8 a :=
  Memory.set_apply_of_disjoint h

theorem u16_set_of_disjoint {α : Type} {m : Memory} {a b : ℕ} {f : Member α} {x : α}
    (h : a + 2 ≤ b + f.offset ∨ b + f.offset + f.codec.size ≤ a) :
    (m.set b f x).u16 a = m.u16 a := by
  rw [Memory.u16, Memory.load_set_of_disjoint h]; rfl

theorem u8_set {m : Memory} {a : ℕ} {x : UInt8} : (m.set 0 ⟨a, Codec.u8⟩ x).u8 a = x :=
  Memory.u8_of_has (Memory.has_set (Nat.zero_add a).symm rfl)

theorem u16_set {m : Memory} {a : ℕ} {x : UInt16} : (m.set 0 ⟨a, Codec.u16⟩ x).u16 a = x :=
  Memory.u16_of_has (Memory.has_set (Nat.zero_add a).symm rfl)

theorem toCAEN_ofCAEN (r : CAENReadout) : (ofCAEN r).toCAEN = r := by
  simp (disch := simp) only [toCAEN, ofCAEN, u8_set, u16_set, u8_set_of_disjoint,
    u16_set_of_disjoint]

theorem toTTLMonitor_ofTTLMonitor (r : TTLMonitorReadout) :
    (ofTTLMonitor r).toTTLMonitor = r := by
  simp (disch := simp) only [toTTLMonitor, ofTTLMonitor, u8_set, u16_set, u8_set_of_disjoint]

theorem toDREAM_ofDREAM (r : DREAMReadout) : (ofDREAM r).toDREAM = r := by
  simp (disch := simp) only [toDREAM, ofDREAM, u8_set, u8_set_of_disjoint]

theorem toVMM3_ofVMM3 (r : VMM3Readout) : (ofVMM3 r).toVMM3 = r := by
  simp (disch := simp) only [toVMM3, ofVMM3, u8_set, u16_set, u8_set_of_disjoint,
    u16_set_of_disjoint]

end VoidPtr

end ReadoutMaster
