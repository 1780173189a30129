/-
  Packed little-endian records: byte encodings, raw memory, and codecs.

  * `le w n` are the `w` little-endian bytes of `n`, `ofLe` reads them back.
  * `Memory` is raw memory as a C program sees it through a pointer: `store`
    and `fill` write bytes at an offset, `load` reads them.  `load_store` and
    `load_store_of_disjoint` are the two rules every write needs.
  * `Codec α` is a fixed-size encoding with its round trip as a field; the
    codec of a packed structure is the product of those of its members
    (`Codec.prod`, `Codec.iso`), and `Parser.many` reads records back to back;
    `Parser.frames` splits records that start with their own lengths.
  * `Memory.Has` says that a structure stands at an offset; a `Member` is an
    offset with a codec, and `Memory.set` assigns it through a pointer.
-/
import Mathlib.Data.List.Basic
import Mathlib.Data.UInt
import Mathlib.Logic.Equiv.Defs
import Mathlib.Tactic.Ring

namespace Packed

/-! ## Little-endian numbers -/

/-- The `w` little-endian bytes of `n`. -/
def le : ℕ → ℕ → List UInt8
  | 0, _ => []
  | w + 1, n => UInt8.ofNat n :: le w (n / 256)

/-- The number with the given little-endian bytes. -/
def ofLe : List UInt8 → ℕ
  | [] => 0
  | b :: bs => b.toNat + 256 * ofLe bs

@[simp] theorem length_le (w n : ℕ) : (le w n).length = w := by
  induction w generalizing n with
  | zero => rfl
  | succ w ih => simp [le, ih]

theorem ofLe_le (w n : ℕ) : ofLe (le w n) = n % 256 ^ w := by
  induction w generalizing n with
  | zero => simp [le, ofLe, Nat.mod_one]
  | succ w ih =>
    have h : (UInt8.ofNat n).toNat = n % 256 := UInt8.toNat_ofNat'
    rw [le, ofLe, ih, h, pow_succ', Nat.mod_mul]

theorem ofLe_le_of_lt {w n : ℕ} (h : n < 256 ^ w) : ofLe (le w n) = n := by
  rw [ofLe_le, Nat.mod_eq_of_lt h]

theorem ofLe_lt (bs : List UInt8) : ofLe bs < 256 ^ bs.length := by
  induction bs with
  | nil => simp [ofLe]
  | cons b bs ih =>
    have hb : b.toNat < 256 := b.toNat_lt
    rw [ofLe, List.length_cons, pow_succ]; omega

theorem le_ofLe (bs : List UInt8) : le bs.length (ofLe bs) = bs := by
  induction bs with
  | nil => rfl
  | cons b bs ih =>
    have hb : b.toNat < 256 := b.toNat_lt
    have h1 : UInt8.ofNat (b.toNat + 256 * ofLe bs) = b := by
      apply UInt8.toNat_inj.1; rw [UInt8.toNat_ofNat']; omega
    have h2 : (b.toNat + 256 * ofLe bs) / 256 = ofLe bs := by omega
    rw [List.length_cons, ofLe, le, h1, h2, ih]

/-! ## Raw memory -/

/-- Raw memory: the byte at every offset. -/
def Memory := ℕ → UInt8

namespace Memory

/-- Write the bytes `bs` from offset `a` on. -/
def store (m : Memory) (a : ℕ) (bs : List UInt8) : Memory :=
  fun i => if a ≤ i ∧ i < a + bs.length then bs.getD (i - a) 0 else m i

/-- Set the `n` bytes from offset `a` on to `b`. -/
def fill (m : Memory) (a n : ℕ) (b : UInt8) : Memory :=
  fun i => if a ≤ i ∧ i < a + n then b else m i

/-- The `n` bytes from offset `a` on. -/
def load (m : Memory) (a n : ℕ) : List UInt8 := (List.range n).map fun i => m (a + i)

variable {m m' : Memory} {a b n k : ℕ} {bs : List UInt8} {x : UInt8}

@[simp] theorem length_load : (m.load a n).length = n := by simp [load]

theorem load_congr (h : ∀ i < n, m (a + i) = m' (a + i)) : m.load a n = m'.load a n :=
  List.map_congr_left fun i hi => h i (List.mem_range.1 hi)

theorem load_add : m.load a (n + k) = m.load a n ++ m.load (a + n) k := by
  simp only [load, List.range_add, List.map_append, List.map_map]
  congr 1
  exact List.map_congr_left fun i _ => by simp [Nat.add_assoc]

theorem load_store (h : bs.length = n) : (m.store a bs).load a n = bs := by
  subst h
  refine List.ext_getElem (by simp) ?_
  intro i h1 h2
  simp [load, store, h2]

/-- A write leaves the bytes before and after it alone. -/
theorem load_store_of_disjoint (h : a + n ≤ b ∨ b + bs.length ≤ a) :
    (m.store b bs).load a n = m.load a n := by
  refine load_congr ?_
  intro i hi
  simp only [store]
  rw [if_neg (by omega)]

end Memory

/-! ## Parsers -/

/-- A parser of byte strings: the value read and the rest. -/
abbrev Parser (α : Type) := List UInt8 → Option (α × List UInt8)

/-- `n` values back to back. -/
def Parser.many {α : Type} (p : Parser α) : ℕ → Parser (List α)
  | 0, bs => some ([], bs)
  | n + 1, bs => do
    let (x, bs) ← p bs
    let (xs, bs) ← Parser.many p n bs
    return (x :: xs, bs)

/-- **Values written back to back are read back in order.** -/
theorem Parser.many_flatten {α : Type} {p : Parser α} {enc : α → List UInt8} :
    ∀ {xs : List α}, (∀ x ∈ xs, ∀ rest, p (enc x ++ rest) = some (x, rest)) → ∀ rest,
      Parser.many p xs.length ((xs.map enc).flatten ++ rest) = some (xs, rest)
  | [], _, rest => rfl
  | x :: xs, h, rest => by
    have ih := Parser.many_flatten (fun y hy => h y (List.mem_cons_of_mem _ hy)) rest
    simp only [List.map_cons, List.flatten_cons, List.append_assoc, List.length_cons, Parser.many,
      h x List.mem_cons_self, Option.bind_eq_bind, Option.bind_some, ih, Option.pure_def]

/-- Split a byte string into frames, each as long as its own length field says.
    No frame is empty, so `n` frames are enough for `n` bytes. -/
def Parser.frames (lengthField : List UInt8 → Option ℕ) :
    ℕ → List UInt8 → Option (List (List UInt8))
  | _, [] => some []
  | 0, _ :: _ => none
  | n + 1, b :: bs => do
    let k ← lengthField (b :: bs)
    if 0 < k ∧ k ≤ (b :: bs).length then
      let frames ← Parser.frames lengthField n ((b :: bs).drop k)
      return (b :: bs).take k :: frames
    else none

/-- **Frames that say their own length are found where they were put.** -/
theorem Parser.frames_flatten {lengthField : List UInt8 → Option ℕ} {n : ℕ} :
    ∀ {frames : List (List UInt8)},
      (∀ f ∈ frames, 0 < f.length ∧ ∀ rest, lengthField (f ++ rest) = some f.length) →
      frames.flatten.length ≤ n → Parser.frames lengthField n frames.flatten = some frames
  | [], _, _ => by cases n <;> rfl
  | f :: fs, h, hn => by
    obtain ⟨hpos, hlen⟩ := h f List.mem_cons_self
    rw [List.flatten_cons, List.length_append] at hn
    obtain ⟨n, rfl⟩ := Nat.exists_eq_succ_of_ne_zero (show n ≠ 0 by omega)
    have ih := Parser.frames_flatten (n := n) (fun g hg => h g (List.mem_cons_of_mem _ hg))
      (by omega)
    obtain ⟨b, bs, hb⟩ := List.exists_cons_of_length_pos hpos
    have hf := hlen fs.flatten
    have hle : f.length ≤ (f ++ fs.flatten).length := by simp
    rw [List.flatten_cons]
    subst hb
    rw [List.cons_append] at hf hle ⊢
    rw [Parser.frames, hf, Option.bind_eq_bind, Option.bind_some, if_pos ⟨hpos, hle⟩,
      ← List.cons_append, List.drop_left, ih, List.take_left]
    rfl

/-! ## Codecs -/

/-- A fixed-size encoding of `α`. -/
structure Codec (α : Type) where
  size : ℕ
  enc : α → List UInt8
  dec : Parser α
  length_enc : ∀ x, (enc x).length = size
  dec_enc : ∀ x rest, dec (enc x ++ rest) = some (x, rest)
  enc_dec : ∀ {bs x rest}, dec bs = some (x, rest) → bs = enc x ++ rest

namespace Codec

attribute [simp] length_enc dec_enc

variable {α β : Type}

/-- The number in the next `w` little-endian bytes. -/
def decLe (w : ℕ) : Parser ℕ := fun bs =>
  if w ≤ bs.length then some (ofLe (bs.take w), bs.drop w) else none

theorem decLe_le {w n : ℕ} (h : n < 256 ^ w) (rest : List UInt8) :
    decLe w (le w n ++ rest) = some (n, rest) := by
  have h1 : (le w n ++ rest).take w = le w n := by
    rw [List.take_append_of_le_length (by simp), List.take_of_length_le (by simp)]
  have h2 : (le w n ++ rest).drop w = rest := by
    rw [List.drop_append_of_le_length (by simp), List.drop_of_length_le (by simp)]; rfl
  rw [decLe, if_pos (by simp), h1, h2, ofLe_le_of_lt h]

theorem le_decLe {w n : ℕ} {bs rest : List UInt8} (h : decLe w bs = some (n, rest)) :
    bs = le w n ++ rest ∧ n < 256 ^ w := by
  simp only [decLe, Option.ite_none_right_eq_some, Option.some.injEq, Prod.mk.injEq] at h
  obtain ⟨hw, rfl, rfl⟩ := h
  have hl : (bs.take w).length = w := by simp [hw]
  have h1 : le w (ofLe (bs.take w)) = bs.take w := by
    have := le_ofLe (bs.take w); rwa [hl] at this
  have h2 := ofLe_lt (bs.take w)
  rw [hl] at h2
  exact ⟨by rw [h1, List.take_append_drop], h2⟩

/-- A member whose values are the numbers below `256 ^ w`. -/
def number (w : ℕ) (e : α ≃ {n : ℕ // n < 256 ^ w}) : Codec α where
  size := w
  enc x := le w (e x)
  dec bs := match decLe w bs with
    | some (n, rest) => if h : n < 256 ^ w then some (e.symm ⟨n, h⟩, rest) else none
    | none => none
  length_enc x := length_le w _
  dec_enc x rest := by
    simp only [decLe_le (e x).2, (e x).2, ↓reduceDIte, Subtype.coe_eta, Equiv.symm_apply_apply]
  enc_dec {bs x rest} h := by
    rcases hd : decLe w bs with _ | ⟨n, r⟩
    · simp [hd] at h
    · obtain ⟨h1, h2⟩ := le_decLe hd
      simp only [hd, h2, ↓reduceDIte, Option.some.injEq, Prod.mk.injEq] at h
      obtain ⟨rfl, rfl⟩ := h
      simpa using h1

/-- `uint8_t`. -/
def u8 : Codec UInt8 := number 1
  ⟨fun x => ⟨x.toNat, x.toNat_lt⟩, fun n => UInt8.ofNat n.1, fun x => by simp,
    fun ⟨n, h⟩ => by simpa using h⟩

/-- `uint16_t`. -/
def u16 : Codec UInt16 := number 2
  ⟨fun x => ⟨x.toNat, x.toNat_lt⟩, fun n => UInt16.ofNat n.1, fun x => by simp,
    fun ⟨n, h⟩ => by simpa using h⟩

/-- `uint32_t`. -/
def u32 : Codec UInt32 := number 4
  ⟨fun x => ⟨x.toNat, x.toNat_lt⟩, fun n => UInt32.ofNat n.1, fun x => by simp,
    fun ⟨n, h⟩ => by simpa using h⟩

@[simp] theorem size_u8 : u8.size = 1 := rfl
@[simp] theorem size_u16 : u16.size = 2 := rfl
@[simp] theorem size_u32 : u32.size = 4 := rfl

/-- Two members back to back. -/
def prod (c : Codec α) (d : Codec β) : Codec (α × β) where
  size := c.size + d.size
  enc x := c.enc x.1 ++ d.enc x.2
  dec bs := do
    let (x, bs) ← c.dec bs
    let (y, bs) ← d.dec bs
    return ((x, y), bs)
  length_enc x := by simp
  dec_enc x rest := by simp [List.append_assoc]
  enc_dec {bs x rest} h := by
    simp only [Option.pure_def, Option.bind_eq_bind, Option.bind_eq_some_iff, Option.some.injEq,
      Prod.mk.injEq, Prod.exists] at h
    obtain ⟨x, bs', hx, y, bs'', hy, rfl, rfl⟩ := h
    rw [c.enc_dec hx, d.enc_dec hy, List.append_assoc]

/-- A structure with the members of `α`. -/
def iso (c : Codec α) (e : β ≃ α) : Codec β where
  size := c.size
  enc x := c.enc (e x)
  dec bs := (c.dec bs).map fun (x, rest) => (e.symm x, rest)
  length_enc x := c.length_enc _
  dec_enc x rest := by simp
  enc_dec {bs x rest} h := by
    simp only [Option.map_eq_some_iff, Prod.mk.injEq, Prod.exists] at h
    obtain ⟨x, r, hx, rfl, rfl⟩ := h
    simpa using c.enc_dec hx

end Codec

/-! ## Structures in memory -/

namespace Memory

variable {α β : Type} {m : Memory} {a b n i : ℕ} {c : Codec α} {d : Codec β} {x : α}

/-- The memory holds the encoding of `x` at offset `a`. -/
def Has (m : Memory) (a : ℕ) (c : Codec α) (x : α) : Prop := m.load a c.size = c.enc x

theorem has_prod {x : α × β} :
    m.Has a (c.prod d) x ↔ m.Has a c x.1 ∧ m.Has (a + c.size) d x.2 := by
  simp only [Has, Codec.prod, load_add]
  constructor
  · intro h; exact List.append_inj h (by simp)
  · rintro ⟨h1, h2⟩; rw [h1, h2]

theorem has_iso {e : β ≃ α} {y : β} : m.Has a (c.iso e) y ↔ m.Has a c (e y) := Iff.rfl

/-- Zeroed memory holds whatever zeros encode. -/
theorem has_of_zero (h : ∀ i, a ≤ i → i < a + c.size → m i = 0)
    (hx : c.enc x = List.replicate c.size 0) : m.Has a c x := by
  rw [Has, hx]
  refine List.ext_getElem (by simp) ?_
  intro i h1 h2
  have : i < c.size := by simpa using h1
  simp only [load, List.getElem_map, List.getElem_range, List.getElem_replicate]
  exact h (a + i) (by omega) (by omega)

end Memory

/-- A member of a packed structure: its offset and its encoding. -/
structure Member (α : Type) where
  offset : ℕ
  codec : Codec α

namespace Memory

variable {α β : Type} {m : Memory} {a b n i : ℕ} {c : Codec β} {f : Member α} {x : α} {y : β}

/-- Assign the member `f` of the structure at offset `a`. -/
def set (m : Memory) (a : ℕ) (f : Member α) (x : α) : Memory :=
  m.store (a + f.offset) (f.codec.enc x)

/-- The member `f` of the structure at offset `a` is `x`. -/
def Holds (m : Memory) (a : ℕ) (f : Member α) (x : α) : Prop := m.Has (a + f.offset) f.codec x

theorem holds_set : (m.set a f x).Holds a f x := load_store (f.codec.length_enc x)

/-- An assignment leaves the other members of the structure alone. -/
theorem holds_set_of_apart {g : Member β}
    (h : g.offset + g.codec.size ≤ f.offset ∨ f.offset + f.codec.size ≤ g.offset) :
    (m.set a f x).Holds a g y ↔ m.Holds a g y := by
  rw [Holds, Has, set, load_store_of_disjoint (by rw [f.codec.length_enc]; omega)]; rfl

/-- A member of a zeroed structure of size `n` holds what zeros encode. -/
theorem holds_of_zero (n : ℕ) (h : ∀ i, a ≤ i → i < a + n → m i = 0)
    (hf : f.offset + f.codec.size ≤ n) (hx : f.codec.enc x = List.replicate f.codec.size 0) :
    m.Holds a f x :=
  has_of_zero (fun i h1 h2 => h i (by omega) (by omega)) hx

theorem has_set {c : Codec α} (hb : b = a + f.offset) (hc : c = f.codec) :
    (m.set a f x).Has b c x := by
  subst hb hc; exact load_store (f.codec.length_enc x)

/-- An assignment leaves the other members alone. -/
theorem load_set_of_disjoint (h : b + n ≤ a + f.offset ∨ a + f.offset + f.codec.size ≤ b) :
    (m.set a f x).load b n = m.load b n :=
  load_store_of_disjoint (by rwa [f.codec.length_enc])

theorem set_apply_of_disjoint (h : i < a + f.offset ∨ a + f.offset + f.codec.size ≤ i) :
    (m.set a f x) i = m i := by
  simp only [set, store, f.codec.length_enc]
  rw [if_neg (by omega)]

/-- Assigning a member of a structure of size `n` leaves the memory around the
    structure alone. -/
theorem set_apply_outside (n : ℕ) (hf : f.offset + f.codec.size ≤ n) (h : i < a ∨ a + n ≤ i) :
    (m.set a f x) i = m i :=
  set_apply_of_disjoint (by omega)

/-- The `uint8_t` at offset `a`. -/
def u8 (m : Memory) (a : ℕ) : UInt8 := m a

/-- The `uint16_t` at offset `a`. -/
def u16 (m : Memory) (a : ℕ) : UInt16 := UInt16.ofNat (ofLe (m.load a 2))

theorem u8_of_has {x : UInt8} (h : m.Has a Codec.u8 x) : m.u8 a = x := by
  have h1 : [m (a + 0)] = [UInt8.ofNat x.toNat] := h
  rw [UInt8.ofNat_toNat] at h1
  exact List.singleton_inj.1 h1

theorem u16_of_has {x : UInt16} (h : m.Has a Codec.u16 x) : m.u16 a = x := by
  have h1 : m.load a 2 = le 2 x.toNat := h
  rw [u16, h1, ofLe_le_of_lt (by have := x.toNat_lt; omega), UInt16.ofNat_toNat]

end Memory

end Packed
