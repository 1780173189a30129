/-
  `double` as binary64, and `efu_time(double)` (lib/efu_time.h).

  A `double` is not a number, an infinity or a magnitude with a sign; the
  magnitude is a member of the format below `2 ^ 1024`.  The operations are
  those the library takes: a quotient for `1/source_frequency`, a product for
  the ticks, `std::fmod(x, 1.0)`, the conversion from an integer and the cast
  to `uint32_t`.  The cast is undefined in the source when the number without
  its fraction is no `uint32_t`, and `none` here.
-/
import ReadoutMaster.Lib.Rounding
import ReadoutMaster.Readout
import Mathlib.Data.Rat.Floor

namespace ReadoutMaster

open Rounding

/-- binary64 without its greatest exponent -/
def binary64 : Format := ⟨53, -1074⟩

theorem digits_binary64 : 0 < binary64.digits := by decide

/-- A finite magnitude. -/
structure Magnitude where
  val : ℚ
  mem : binary64.Mem val
  lt : val < 2 ^ 1024

inductive Double where
  | nan
  | infinite (negative : Bool)
  | finite (negative : Bool) (magnitude : Magnitude)

namespace Magnitude

theorem nonneg (m : Magnitude) : 0 ≤ m.val := m.mem.nonneg

def zero : Magnitude := ⟨0, Format.mem_zero, by norm_num⟩

/-- What stands after the point. -/
def fraction (m : Magnitude) : Magnitude :=
  ⟨m.val - ⌊m.val⌋₊, Format.mem_sub_floor m.mem,
    (sub_le_self m.val (Nat.cast_nonneg _)).trans_lt m.lt⟩

end Magnitude

namespace Double

/-- The nearest `double` to a magnitude. -/
def rounded (negative : Bool) (x : ℚ) : Double :=
  if h : binary64.round x < 2 ^ 1024 then
    finite negative ⟨binary64.round x, Format.mem_round digits_binary64 x, h⟩
  else infinite negative

def ofNat (n : ℕ) : Double := rounded false n

def mul : Double → Double → Double
  | finite s m, finite s' m' => rounded (s != s') (m.val * m'.val)
  | infinite s, infinite s' => infinite (s != s')
  | infinite s, finite s' m => if m.val = 0 then nan else infinite (s != s')
  | finite s m, infinite s' => if m.val = 0 then nan else infinite (s != s')
  | nan, _ | _, nan => nan

def div : Double → Double → Double
  | finite s m, finite s' m' =>
    if m'.val = 0 then if m.val = 0 then nan else infinite (s != s')
    else rounded (s != s') (m.val / m'.val)
  | infinite s, finite s' _ => infinite (s != s')
  | finite s _, infinite s' => finite (s != s') .zero
  | infinite _, infinite _ => nan
  | nan, _ | _, nan => nan

/-- `std::fmod(x, 1.0)` -/
def fmodOne : Double → Double
  | finite s m => finite s m.fraction
  | nan | infinite _ => nan

/-- `static_cast<uint32_t>(x)` -/
def toUInt32 : Double → Option UInt32
  | finite s m =>
    let n := ⌊m.val⌋₊
    if n < 2 ^ 32 ∧ (s = true → n = 0) then some (UInt32.ofNat n) else none
  | nan | infinite _ => none

def truthy : Double → Bool
  | finite _ m => m.val ≠ 0
  | nan | infinite _ => true

end Double

/-- `efu_time(time)` -/
def EfuTime.ofDouble (time : Double) : Option EfuTime := do
  let h ← time.toUInt32
  let l ← (time.fmodOne.mul (Double.ofNat ticks.toNat)).toUInt32
  some ⟨h, l⟩

/-! ## The ticks of a fraction -/

theorem fraction_nonneg {x : ℚ} (h : 0 ≤ x) : 0 ≤ x - ⌊x⌋₊ := sub_nonneg.2 (Nat.floor_le h)

theorem fraction_lt_one (x : ℚ) : x - ⌊x⌋₊ < 1 := by
  have := Nat.lt_floor_add_one x
  linarith

/-- The ticks of what a number has after the point, rounded as the product
    is. -/
def lowTicks (x : ℚ) : ℚ := binary64.round ((x - ⌊x⌋₊) * 88052499)

theorem mem_one : binary64.Mem (1 : ℚ) := ⟨1, 0, by decide, by decide, by norm_num⟩

theorem mem_ticks : binary64.Mem (88052499 : ℚ) :=
  ⟨88052499, 0, by decide, by decide, by norm_num⟩

/-- Below 1 the greatest member is `1 - 2 ^ -53`. -/
theorem le_of_mem_of_lt_one {x : ℚ} (h : binary64.Mem x) (h1 : x < 1) : x ≤ 1 - 1 / 2 ^ 53 := by
  rcases lt_or_ge x (1 / 2) with hx | hx
  · have h2 : (1 / 2 : ℚ) ≤ 1 - 1 / 2 ^ 53 := by norm_num
    exact hx.le.trans h2
  · have hk : (2 : ℚ) ^ (-1 : ℤ) ≤ x := by
      rw [zpow_neg_one]
      linarith
    have h2 := Format.mem_add_le h mem_one hk h1
    have h3 : (2 : ℚ) ^ (-1 + 1 - (binary64.digits : ℤ)) = 1 / 2 ^ 53 := by
      rw [show -1 + 1 - (binary64.digits : ℤ) = -53 by rfl]
      norm_num
    rw [h3] at h2
    linarith

theorem lowTicks_nonneg (x : ℚ) : 0 ≤ lowTicks x := Format.round_nonneg _

/-- The product is rounded to less than a second. -/
theorem lowTicks_lt {x : ℚ} (h : binary64.Mem x) : lowTicks x < 88052499 := by
  have hle := le_of_mem_of_lt_one (Format.mem_sub_floor h) (fraction_lt_one x)
  have hround : binary64.round ((1 - 1 / 2 ^ 53 : ℚ) * 88052499) < 88052499 := by decide +kernel
  exact (Format.round_mono digits_binary64
    (mul_le_mul_of_nonneg_right hle (by norm_num))).trans_lt hround

theorem floor_lowTicks_lt {x : ℚ} (h : binary64.Mem x) : ⌊lowTicks x⌋₊ < 88052499 :=
  (Nat.floor_lt (lowTicks_nonneg x)).2 (by exact_mod_cast lowTicks_lt h)

theorem lt_top_of_lt {x : ℚ} (h : x < 2 ^ 32) : x < 2 ^ 1024 :=
  h.trans (pow_lt_pow_right₀ one_lt_two (by decide))

theorem lt_top_one : (1 : ℚ) < 2 ^ 1024 := lt_top_of_lt (by norm_num)

theorem lt_top_ticks : (88052499 : ℚ) < 2 ^ 1024 := lt_top_of_lt (by norm_num)

theorem lowTicks_lt_word {x : ℚ} (h : binary64.Mem x) : lowTicks x < 2 ^ 32 :=
  (lowTicks_lt h).trans (by norm_num)

namespace Double

theorem rounded_of_lt (s : Bool) {x : ℚ} (h : binary64.round x < 2 ^ 1024) :
    rounded s x = finite s ⟨binary64.round x, Format.mem_round digits_binary64 x, h⟩ :=
  dif_pos h

theorem rounded_of_mem (s : Bool) {x : ℚ} (h : binary64.Mem x) (hx : x < 2 ^ 1024) :
    rounded s x = finite s ⟨x, h, hx⟩ := by
  have hround := Format.round_of_mem h
  rw [rounded_of_lt s (hround.trans_lt hx)]
  simp only [hround]

theorem ofNat_ticks :
    ofNat EfuTime.ticks.toNat = finite false ⟨88052499, mem_ticks, lt_top_ticks⟩ :=
  rounded_of_mem false mem_ticks lt_top_ticks

/-- The product with the ticks of a second. -/
theorem fmodOne_mul_ticks (s : Bool) (m : Magnitude) :
    (finite s m).fmodOne.mul (ofNat EfuTime.ticks.toNat) =
      finite s ⟨lowTicks m.val, Format.mem_round digits_binary64 _,
        lt_top_of_lt (lowTicks_lt_word m.mem)⟩ := by
  rw [ofNat_ticks]
  show rounded (s != false) ((m.val - ⌊m.val⌋₊) * 88052499) = _
  rw [Bool.bne_false, rounded_of_lt s (lt_top_of_lt (lowTicks_lt_word m.mem))]
  rfl

theorem toUInt32_nonneg {m : Magnitude} (h : m.val < 2 ^ 32) :
    (finite false m).toUInt32 = some (UInt32.ofNat ⌊m.val⌋₊) := by
  have hlt : ⌊m.val⌋₊ < 2 ^ 32 := (Nat.floor_lt m.nonneg).2 (by exact_mod_cast h)
  exact if_pos ⟨hlt, Bool.noConfusion⟩

theorem toUInt32_of_le {s : Bool} {m : Magnitude} (h : 2 ^ 32 ≤ m.val) :
    (finite s m).toUInt32 = none := by
  have hle : 2 ^ 32 ≤ ⌊m.val⌋₊ := Nat.le_floor (by exact_mod_cast h)
  exact if_neg fun hn => absurd hn.1 (Nat.not_lt.2 hle)

theorem toUInt32_negative {m : Magnitude} {n : UInt32} (h : (finite true m).toUInt32 = some n) :
    n = 0 := by
  simp only [toUInt32, Option.ite_none_right_eq_some, forall_const] at h
  obtain ⟨⟨-, h0⟩, hn⟩ := h
  rw [h0] at hn
  exact (Option.some.inj hn).symm

end Double

namespace EfuTime

/-- **What a number of seconds is converted to.** -/
theorem ofDouble_nonneg {m : Magnitude} (h : m.val < 2 ^ 32) :
    ofDouble (.finite false m) =
      some ⟨UInt32.ofNat ⌊m.val⌋₊, UInt32.ofNat ⌊lowTicks m.val⌋₊⟩ := by
  rw [ofDouble, Double.fmodOne_mul_ticks, Double.toUInt32_nonneg h,
    Double.toUInt32_nonneg (lowTicks_lt_word m.mem)]
  rfl

theorem ofDouble_eq_some {t : Double} {e : EfuTime} (h : ofDouble t = some e) :
    (∃ m, t = .finite false m ∧ m.val < 2 ^ 32) ∨ (∃ m, t = .finite true m) ∧ e = ⟨0, 0⟩ := by
  simp only [ofDouble, Option.bind_eq_bind, Option.bind_eq_some_iff, Option.some.injEq] at h
  obtain ⟨hi, hhi, lo, hlo, rfl⟩ := h
  rcases t with _ | _ | ⟨_ | _, m⟩
  · cases hhi
  · cases hhi
  · refine Or.inl ⟨m, rfl, not_le.1 fun hle => ?_⟩
    rw [Double.toUInt32_of_le hle] at hhi
    cases hhi
  · rw [Double.fmodOne_mul_ticks] at hlo
    rw [Double.toUInt32_negative hhi, Double.toUInt32_negative hlo]
    exact Or.inr ⟨⟨m, rfl⟩, rfl⟩

/-- The ticks of what is converted stay below a second. -/
theorem canonical_ofDouble {t : Double} {e : EfuTime} (h : ofDouble t = some e) :
    e.Canonical := by
  rcases ofDouble_eq_some h with ⟨m, rfl, hm⟩ | ⟨-, rfl⟩
  · rw [ofDouble_nonneg hm] at h
    obtain rfl := Option.some.inj h
    rw [Canonical, UInt32.toNat_ofNat']
    exact (Nat.mod_le _ _).trans_lt (floor_lowTicks_lt m.mem)
  · decide

end EfuTime

/-- Where the conversion to an `efu_time` is undefined it is the zero time. -/
instance : CDouble Double where
  truthy := Double.truthy
  recip := Double.div (Double.ofNat 1)
  toEfu t := (EfuTime.ofDouble t).getD ⟨0, 0⟩
  canonical_toEfu t := by
    cases h : EfuTime.ofDouble t with
    | none => decide
    | some e => exact EfuTime.canonical_ofDouble h

theorem toEfu_of_ofDouble {t : Double} {e : EfuTime} (h : EfuTime.ofDouble t = some e) :
    CDouble.toEfu t = e := by
  show (EfuTime.ofDouble t).getD _ = e
  rw [h, Option.getD_some]

end ReadoutMaster
