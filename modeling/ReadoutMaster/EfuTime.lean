/-
  `efu_time` (lib/efu_time.h): a time stamp of whole seconds and clock ticks of
  a 88.052499 MHz oscillator.

  The operators are those of the class, on 32- and 64-bit words.  Below them
  stands the value `val`, the exact number of ticks: a time is `Normal` if its
  ticks do not exceed one second and `Canonical` if they stay below it.  The
  two-argument constructor only carries when `_l > ticks`, so what the
  operators build is normal but not always canonical.

  * `val_now`: the clock in ticks;
  * `val_add`, `sub_ok`, `val_mul_le`, `toNat_div`: the operators in ticks;
  * `lt_iff_of_canonical`: the field-wise order against a canonical time;
  * `add_sub_cancel`: `(a + b) - b` gives back a canonical `a` exactly.
-/
import Mathlib.Data.UInt
import Mathlib.Tactic.Ring
import ReadoutMaster.Lib.Radix

namespace ReadoutMaster

/-- The exceptions the library throws or lets through. -/
inductive Exn where
  /-- `std::runtime_error(what)` -/
  | runtimeError (what : String)
  /-- `HighFive::Exception` -/
  | highFive
  /-- `std::length_error` or `std::bad_alloc` from a `std::vector` -/
  | badAlloc
  deriving DecidableEq, Repr

structure EfuTime where
  high : UInt32
  low : UInt32
  deriving DecidableEq, Repr

namespace EfuTime

def ticks : UInt64 := 88052499

/-- `efu_time(high, low)`. -/
def make (high low : UInt32) : EfuTime :=
  if low.toUInt64 > ticks then
    ⟨high + (low.toUInt64 / ticks).toUInt32, (low.toUInt64 % ticks).toUInt32⟩
  else ⟨high, low⟩

/-- `efu_time()`, where `ns` is the system clock in nanoseconds since the
    epoch. -/
def now (ns : UInt64) : EfuTime :=
  let nps : UInt64 := 1000000000
  let seconds := ns / nps
  let tickCount := ns % nps * ticks / nps
  ⟨seconds.toUInt32, tickCount.toUInt32⟩

def lt (a b : EfuTime) : Bool :=
  if a.high < b.high then true
  else if a.high > b.high then false
  else a.low < b.low

def gt (a b : EfuTime) : Bool :=
  if a.high > b.high then true
  else if a.high < b.high then false
  else a.low > b.low

def ge (a b : EfuTime) : Bool := a.gt b || a == b

instance : Add EfuTime where
  add a b := make (a.high + b.high) (a.low + b.low)

def sub (a b : EfuTime) : Except Exn EfuTime :=
  if a.lt b then .error (.runtimeError "Subtracting a larger time?")
  else
    let h := a.high - b.high
    if a.low ≥ b.low then .ok (make h (a.low - b.low))
    else
      let r := ticks + a.low.toUInt64 - b.low.toUInt64
      .ok (make (h - 1) r.toUInt32)

def totalTicks (t : EfuTime) : UInt64 := t.high.toUInt64 * ticks + t.low.toUInt64

/-- Division by the zero time is undefined in the source and 0 here. -/
instance : HDiv EfuTime EfuTime UInt32 where
  hDiv a b := (a.totalTicks / b.totalTicks).toUInt32

instance : HMul EfuTime UInt32 EfuTime where
  hMul t m :=
    let h := t.high * m
    let r := t.low.toUInt64 * m.toUInt64
    if r > ticks then make (h + (r / ticks).toUInt32) (r % ticks).toUInt32
    else make h r.toUInt32

/-- `operator%` -/
def mod (a m : EfuTime) : Except Exn EfuTime := a.sub (m * (a / m : UInt32))

/-! ## The value in ticks -/

/-- The exact number of ticks. -/
def val (t : EfuTime) : ℕ := Radix.val 88052499 t.high.toNat t.low.toNat

/-- The low field is at most one second. -/
def Normal (t : EfuTime) : Prop := t.low.toNat ≤ 88052499

/-- The low field is less than one second. -/
def Canonical (t : EfuTime) : Prop := t.low.toNat < 88052499

instance (t : EfuTime) : Decidable t.Normal := inferInstanceAs (Decidable (_ ≤ _))
instance (t : EfuTime) : Decidable t.Canonical := inferInstanceAs (Decidable (_ < _))

theorem Canonical.normal {t : EfuTime} (h : t.Canonical) : t.Normal := Nat.le_of_lt h

theorem val_eq (t : EfuTime) : t.val = t.high.toNat * 88052499 + t.low.toNat := rfl

theorem toNat_ticks : ticks.toNat = 88052499 := rfl

theorem toNat_totalTicks (t : EfuTime) : t.totalTicks.toNat = t.val := by
  have h1 := t.high.toNat_lt
  have h2 := t.low.toNat_lt
  rw [totalTicks, UInt64.toNat_add, UInt64.toNat_mul, UInt32.toNat_toUInt64,
    UInt32.toNat_toUInt64, toNat_ticks, val_eq]
  omega

theorem high_low_inj {a b : EfuTime} (h1 : a.high.toNat = b.high.toNat)
    (h2 : a.low.toNat = b.low.toNat) : a = b := by
  cases a; cases b
  simp only [mk.injEq]
  exact ⟨UInt32.toNat_inj.1 h1, UInt32.toNat_inj.1 h2⟩

theorem val_inj {a b : EfuTime} (ha : a.Canonical) (hb : b.Canonical) (h : a.val = b.val) :
    a = b := by
  simp only [Canonical, val_eq] at *
  exact high_low_inj (by omega) (by omega)

/-! ## Order -/

theorem lt_eq_true {a b : EfuTime} :
    a.lt b = true ↔ a.high.toNat < b.high.toNat ∨
      a.high.toNat = b.high.toNat ∧ a.low.toNat < b.low.toNat := by
  simp only [lt, gt_iff_lt, UInt32.lt_iff_toNat_lt]
  split_ifs with h1 h2
  · simp [h1]
  · simp; omega
  · simp; omega

theorem gt_eq_lt (a b : EfuTime) : a.gt b = b.lt a := by
  simp only [gt, lt, gt_iff_lt]

/-- The field-wise order of a canonical time against a normal one is that of
    the ticks. -/
theorem lt_iff_of_canonical {a b : EfuTime} (ha : a.Canonical) (hb : b.Normal) :
    a.lt b = true ↔ a.val < b.val := by
  rw [lt_eq_true, val, val, Radix.val_lt_iff ha hb]

theorem ge_iff_of_canonical {a b : EfuTime} (ha : a.Canonical) (hb : b.Canonical) :
    a.ge b = true ↔ b.val ≤ a.val := by
  rw [ge, Bool.or_eq_true, gt_eq_lt, lt_iff_of_canonical hb ha.normal, beq_iff_eq]
  constructor
  · rintro (h | rfl)
    · exact Nat.le_of_lt h
    · exact le_rfl
  · intro h
    rcases Nat.lt_or_eq_of_le h with h | h
    · exact Or.inl h
    · exact Or.inr (val_inj hb ha h).symm

/-- Of two normal times, one that is not later field-wise has no more ticks. -/
theorem val_le_of_not_lt {a b : EfuTime} (hb : b.Normal) (h : a.lt b = false) : b.val ≤ a.val := by
  have h' : ¬ (a.lt b = true) := by simp [h]
  rw [lt_eq_true] at h'
  exact Radix.val_le_of_lex hb (by omega)

theorem lt_eq_false {a b : EfuTime} (ha : a.Normal) (h : b.val < a.val) : a.lt b = false := by
  by_contra hlt
  rw [Bool.not_eq_false, lt_eq_true] at hlt
  have h' : a.val ≤ b.val := Radix.val_le_of_lex ha (by omega)
  omega

theorem val_lt {a : EfuTime} (ha : a.Canonical) : a.val < 2 ^ 32 * 88052499 := by
  have := a.high.toNat_lt
  simp only [Canonical] at ha
  rw [val_eq]; omega

/-! ## Construction -/

theorem make_of_le {h l : UInt32} (hl : l.toNat ≤ 88052499) : make h l = ⟨h, l⟩ := by
  rw [make, if_neg]
  rw [gt_iff_lt, UInt64.lt_iff_toNat_lt, toNat_ticks, UInt32.toNat_toUInt64]
  omega

theorem make_low (h l : UInt32) :
    (make h l).low.toNat = if 88052499 < l.toNat then l.toNat % 88052499 else l.toNat := by
  have hl := l.toNat_lt
  simp only [make, gt_iff_lt, UInt64.lt_iff_toNat_lt, toNat_ticks, UInt32.toNat_toUInt64]
  split_ifs
  · simp only [UInt64.toNat_toUInt32, UInt64.toNat_mod, toNat_ticks, UInt32.toNat_toUInt64]
    omega
  · rfl

theorem make_high (h l : UInt32) :
    (make h l).high.toNat =
      if 88052499 < l.toNat then (h.toNat + l.toNat / 88052499) % 2 ^ 32 else h.toNat := by
  have hl := l.toNat_lt
  simp only [make, gt_iff_lt, UInt64.lt_iff_toNat_lt, toNat_ticks, UInt32.toNat_toUInt64]
  split_ifs
  · simp only [UInt32.toNat_add, UInt64.toNat_toUInt32, UInt64.toNat_div, toNat_ticks,
      UInt32.toNat_toUInt64]
    omega
  · rfl

/-- **The constructor always yields a normal time.** -/
theorem normal_make (h l : UInt32) : (make h l).Normal := by
  rw [Normal, make_low]
  split_ifs <;> omega

theorem val_make {h l : UInt32} (hv : h.toNat * 88052499 + l.toNat < 2 ^ 32 * 88052499) :
    (make h l).val = h.toNat * 88052499 + l.toNat := by
  rw [val_eq, make_high, make_low]
  split_ifs
  · omega
  · rfl

/-- The digits of the clock.  The product of the nanoseconds of a second and
    the tick frequency fits into 64 bits. -/
theorem now_digits (ns : UInt64) :
    (now ns).high.toNat = ns.toNat / 1000000000 % 2 ^ 32 ∧
      (now ns).low.toNat = ns.toNat % 1000000000 * 88052499 / 1000000000 := by
  have hnps : (1000000000 : UInt64).toNat = 1000000000 := rfl
  have hprod : ns.toNat % 1000000000 * 88052499 < 2 ^ 64 := by omega
  have hlow : ns.toNat % 1000000000 * 88052499 / 1000000000 < 88052499 :=
    Radix.rescale_lt (by decide) (by decide) ns.toNat
  constructor
  · simp only [now, UInt64.toNat_toUInt32, UInt64.toNat_div, hnps]
  · simp only [now, UInt64.toNat_toUInt32, UInt64.toNat_div, UInt64.toNat_mul, UInt64.toNat_mod,
      toNat_ticks, hnps]
    rw [Nat.mod_eq_of_lt hprod]
    omega

theorem canonical_now (ns : UInt64) : (now ns).Canonical := by
  rw [Canonical, (now_digits ns).2]
  exact Radix.rescale_lt (by decide) (by decide) ns.toNat

/-- The clock in ticks, as long as its seconds fit. -/
theorem val_now {ns : UInt64} (h : ns.toNat < 2 ^ 32 * 1000000000) :
    (now ns).val = ns.toNat * 88052499 / 1000000000 := by
  obtain ⟨hh, hl⟩ := now_digits ns
  have hs : ns.toNat / 1000000000 < 2 ^ 32 := Nat.div_lt_of_lt_mul (by omega)
  rw [val, hh, hl, Nat.mod_eq_of_lt hs, Radix.val_rescale (by decide)]

/-! ## Arithmetic -/

theorem add_def (a b : EfuTime) : a + b = make (a.high + b.high) (a.low + b.low) := rfl

theorem normal_add (a b : EfuTime) : (a + b).Normal := normal_make _ _

/-- Sums are exact as long as their seconds fit. -/
theorem val_add {a b : EfuTime} (ha : a.Normal) (hb : b.Normal)
    (h : a.val + b.val < 2 ^ 32 * 88052499) : (a + b).val = a.val + b.val := by
  rw [add_def]
  have h3 := val_make (h := a.high + b.high) (l := a.low + b.low)
  simp only [Normal, val_eq, UInt32.toNat_add] at *
  omega

theorem add_lt_eq_false {a b : EfuTime} (ha : a.Normal) (hb : b.Normal)
    (h : a.val + b.val < 2 ^ 32 * 88052499) : (a + b).lt a = false := by
  have hh := make_high (a.high + b.high) (a.low + b.low)
  have hl := make_low (a.high + b.high) (a.low + b.low)
  rw [← add_def] at hh hl
  rw [Bool.eq_false_iff, ne_eq, lt_eq_true]
  simp only [Normal, val_eq, UInt32.toNat_add] at *
  split_ifs at hh hl <;> omega

theorem sub_error {a b : EfuTime} (h : a.lt b = true) :
    a.sub b = .error (.runtimeError "Subtracting a larger time?") := by simp [sub, h]

/-- The digits of a difference that does not throw. -/
theorem sub_digits {a b : EfuTime} (ha : a.Normal) (hb : b.Normal) (h : a.lt b = false) :
    ∃ c, a.sub b = .ok c ∧
      (b.low.toNat ≤ a.low.toNat ∧ c.high.toNat = a.high.toNat - b.high.toNat ∧
          c.low.toNat = a.low.toNat - b.low.toNat ∨
        a.low.toNat < b.low.toNat ∧ c.high.toNat = a.high.toNat - b.high.toNat - 1 ∧
          c.low.toNat = 88052499 + a.low.toNat - b.low.toNat) := by
  have h' : ¬ (a.lt b = true) := by simp [h]
  rw [lt_eq_true] at h'
  simp only [Normal] at ha hb
  have h2 : (a.high - b.high).toNat = a.high.toNat - b.high.toNat :=
    UInt32.toNat_sub_of_le _ _ (UInt32.le_iff_toNat_le.2 (by omega))
  by_cases hl : a.low ≥ b.low
  · have hl' := UInt32.le_iff_toNat_le.1 hl
    have h1 : (a.low - b.low).toNat = a.low.toNat - b.low.toNat := UInt32.toNat_sub_of_le _ _ hl
    have h3 : make (a.high - b.high) (a.low - b.low) = ⟨a.high - b.high, a.low - b.low⟩ :=
      make_of_le (by omega)
    exact ⟨_, by simp only [sub, h, Bool.false_eq_true, if_false, hl, if_true]; rw [h3],
      Or.inl ⟨hl', h2, h1⟩⟩
  · have hl' : a.low.toNat < b.low.toNat := by
      rw [ge_iff_le, UInt32.le_iff_toNat_le] at hl; omega
    have h1 : (ticks + a.low.toUInt64 - b.low.toUInt64).toUInt32.toNat =
        88052499 + a.low.toNat - b.low.toNat := by
      simp only [UInt64.toNat_toUInt32, UInt64.toNat_sub, UInt64.toNat_add, toNat_ticks,
        UInt32.toNat_toUInt64]
      omega
    have h4 : (a.high - b.high - 1).toNat = a.high.toNat - b.high.toNat - 1 := by
      have := a.high.toNat_lt
      rw [UInt32.toNat_sub, h2, show (1 : UInt32).toNat = 1 from rfl]
      omega
    have h3 : make (a.high - b.high - 1) (ticks + a.low.toUInt64 - b.low.toUInt64).toUInt32 =
        ⟨a.high - b.high - 1, (ticks + a.low.toUInt64 - b.low.toUInt64).toUInt32⟩ :=
      make_of_le (by omega)
    exact ⟨_, by simp only [sub, h, Bool.false_eq_true, if_false, hl]; rw [h3],
      Or.inr ⟨hl', h4, h1⟩⟩

/-- A difference that does not throw is exact, and canonical if its minuend
    is. -/
theorem sub_ok {a b : EfuTime} (ha : a.Normal) (hb : b.Normal) (h : a.lt b = false) :
    ∃ c, a.sub b = .ok c ∧ c.Normal ∧ c.val = a.val - b.val ∧ (a.Canonical → c.Canonical) := by
  have h' : ¬ (a.lt b = true) := by simp [h]
  rw [lt_eq_true] at h'
  obtain ⟨c, hc, hd⟩ := sub_digits ha hb h
  simp only [Normal, Canonical, val_eq] at *
  exact ⟨c, hc, by omega, by omega, by omega⟩

/-- `(a + b) - b` is `a` again, field by field, when the seconds fit. -/
theorem add_sub_cancel {a b : EfuTime} (ha : a.Canonical) (hb : b.Normal)
    (h : a.val + b.val < 2 ^ 32 * 88052499) : (a + b).sub b = .ok a := by
  have hv := val_add ha.normal hb h
  have hl := make_low (a.high + b.high) (a.low + b.low)
  rw [← add_def] at hl
  have h2 : (a.low + b.low).toNat = a.low.toNat + b.low.toNat := by
    simp only [Normal, Canonical] at ha hb
    rw [UInt32.toNat_add]; omega
  rw [h2] at hl
  have hn := normal_add a b
  have hlt : (a + b).lt b = false := by
    rw [Bool.eq_false_iff, ne_eq, lt_eq_true]
    simp only [Normal, Canonical, val_eq] at *
    split_ifs at hl <;> omega
  obtain ⟨c, hc, hd⟩ := sub_digits hn hb hlt
  rw [hc, high_low_inj (a := c) (b := a)]
  all_goals
    simp only [Normal, Canonical, val_eq] at *
    split_ifs at hl <;> omega

theorem toNat_div (a b : EfuTime) : (a / b : UInt32).toNat = a.val / b.val % 2 ^ 32 := by
  show (a.totalTicks / b.totalTicks).toUInt32.toNat = _
  rw [UInt64.toNat_toUInt32, UInt64.toNat_div, toNat_totalTicks, toNat_totalTicks]

/-- The digits of a product: `c` seconds are carried out of the ticks if these
    exceed one, and the seconds that do not fit are dropped. -/
theorem mul_digits (t : EfuTime) (m : UInt32) :
    ∃ c, (c = if 88052499 < t.low.toNat * m.toNat then t.low.toNat * m.toNat / 88052499 else 0) ∧
      c * 88052499 ≤ t.low.toNat * m.toNat ∧
      (t * m).high.toNat = (t.high.toNat * m.toNat + c) % 2 ^ 32 ∧
      (t * m).low.toNat = t.low.toNat * m.toNat - c * 88052499 := by
  set L := t.low.toNat * m.toNat with hL
  have hL2 : L < 2 ^ 64 := by
    have h1 := t.low.toNat_lt
    have h2 := m.toNat_lt
    calc L < 2 ^ 32 * 2 ^ 32 := Nat.mul_lt_mul'' h1 h2
      _ = 2 ^ 64 := by norm_num
  have hr : (t.low.toUInt64 * m.toUInt64).toNat = L := by
    rw [UInt64.toNat_mul, UInt32.toNat_toUInt64, UInt32.toNat_toUInt64, ← hL]; omega
  have hh : (t.high * m).toNat = t.high.toNat * m.toNat % 2 ^ 32 := UInt32.toNat_mul _ _
  by_cases hc : 88052499 < L
  · have hg : t.low.toUInt64 * m.toUInt64 > ticks := by
      rw [gt_iff_lt, UInt64.lt_iff_toNat_lt, hr, toNat_ticks]; exact hc
    have hl : (t.low.toUInt64 * m.toUInt64 % ticks).toUInt32.toNat = L % 88052499 := by
      rw [UInt64.toNat_toUInt32, UInt64.toNat_mod, hr, toNat_ticks]; omega
    have he : t * m = make (t.high * m + (t.low.toUInt64 * m.toUInt64 / ticks).toUInt32)
        (t.low.toUInt64 * m.toUInt64 % ticks).toUInt32 := if_pos hg
    rw [he, make_of_le (by omega)]
    refine ⟨L / 88052499, (if_pos hc).symm, by omega, ?_, by rw [hl]; omega⟩
    rw [UInt32.toNat_add, hh, UInt64.toNat_toUInt32, UInt64.toNat_div, hr, toNat_ticks]
    omega
  · have hg : ¬ t.low.toUInt64 * m.toUInt64 > ticks := by
      rw [gt_iff_lt, UInt64.lt_iff_toNat_lt, hr, toNat_ticks]; exact hc
    have hl : (t.low.toUInt64 * m.toUInt64).toUInt32.toNat = L := by
      rw [UInt64.toNat_toUInt32, hr]; omega
    have he : t * m = make (t.high * m) (t.low.toUInt64 * m.toUInt64).toUInt32 := if_neg hg
    rw [he, make_of_le (by omega)]
    exact ⟨0, (if_neg hc).symm, by omega, by rw [hh, Nat.add_zero], by rw [hl]; omega⟩

/-- A product never exceeds the exact one: it drops the seconds that do not
    fit. -/
theorem val_mul_le (t : EfuTime) (m : UInt32) : (t * m).val ≤ t.val * m.toNat := by
  obtain ⟨c, -, h1, h2, h3⟩ := mul_digits t m
  have h4 : t.val * m.toNat = t.high.toNat * m.toNat * 88052499 + t.low.toNat * m.toNat := by
    rw [val_eq]; ring
  have h5 := val_eq (t * m)
  omega

/-- Products are exact as long as their seconds fit. -/
theorem val_mul {t : EfuTime} {m : UInt32} (h : t.val * m.toNat < 2 ^ 32 * 88052499) :
    (t * m).val = t.val * m.toNat := by
  obtain ⟨c, -, h1, h2, h3⟩ := mul_digits t m
  have h4 : t.val * m.toNat = t.high.toNat * m.toNat * 88052499 + t.low.toNat * m.toNat := by
    rw [val_eq]; ring
  rw [h4, val_eq, h2, h3]
  omega

theorem normal_mul (t : EfuTime) (m : UInt32) : (t * m).Normal := by
  show Normal (if _ then _ else _)
  split_ifs <;> exact normal_make _ _

end EfuTime

end ReadoutMaster
