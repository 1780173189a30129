/-
  Rounding to nearest in a binary floating-point format.

  The members of a format are the `m * 2 ^ e` with `m < 2 ^ digits` and an
  exponent from `least` on; there is no greatest exponent.  `round` takes a
  number that is not negative to the nearest member, and to the one with the
  even significand if two are as near.

  * `round_mono`, `round_of_mem`: rounding keeps the order and leaves the
    members alone, so that a bound that is a member passes through it;
  * `mem_round`: what is rounded is a member;
  * `abs_round_sub_le`, `abs_round_sub_le_mul`: rounding moves a number by half
    a unit at most;
  * `mem_add_le`: how far apart two members are.
-/
import Mathlib.Data.Int.Log
import Mathlib.Tactic.Linarith
import Mathlib.Tactic.Ring
import Mathlib.Tactic.Positivity

namespace Rounding

variable {K : Type} [Field K] [LinearOrder K] [IsStrictOrderedRing K] [FloorRing K]

/-! ## Integers -/

/-- The number is nearer to the integer above, or as near and that one is
    even. -/
def Upward (x : K) : Prop :=
  1 < 2 * (x - ⌊x⌋₊) ∨ 2 * (x - ⌊x⌋₊) = 1 ∧ ⌊x⌋₊ % 2 = 1

instance (x : K) : Decidable (Upward x) := inferInstanceAs (Decidable (_ ∨ _))

/-- The nearest integer, the even one of two. -/
def nearest (x : K) : ℕ := if Upward x then ⌊x⌋₊ + 1 else ⌊x⌋₊

omit [IsStrictOrderedRing K] in
theorem floor_le_nearest (x : K) : ⌊x⌋₊ ≤ nearest x := by
  unfold nearest
  split_ifs <;> omega

omit [IsStrictOrderedRing K] in
theorem nearest_le_floor_succ (x : K) : nearest x ≤ ⌊x⌋₊ + 1 := by
  unfold nearest
  split_ifs <;> omega

theorem nearest_mono {x y : K} (h : x ≤ y) : nearest x ≤ nearest y := by
  rcases (Nat.floor_mono h).lt_or_eq with hlt | heq
  · calc nearest x ≤ ⌊x⌋₊ + 1 := nearest_le_floor_succ x
      _ ≤ ⌊y⌋₊ := hlt
      _ ≤ nearest y := floor_le_nearest y
  · have hup : Upward x → Upward y := by
      rintro (hx | ⟨hx, hodd⟩)
      · left
        rw [← heq]
        linarith
      · rw [Upward, ← heq]
        rcases h.lt_or_eq with hlt | rfl
        · left
          linarith
        · exact Or.inr ⟨hx, hodd⟩
    unfold nearest
    split_ifs with hx hy
    · rw [heq]
    · exact absurd (hup hx) hy
    · omega
    · exact heq.le

@[simp] theorem nearest_natCast (n : ℕ) : nearest (n : K) = n := by
  have h : ¬ Upward (n : K) := by
    rintro (h | ⟨h, -⟩) <;> rw [Nat.floor_natCast, sub_self, mul_zero] at h
    · exact absurd h (by norm_num)
    · exact zero_ne_one h
  rw [nearest, if_neg h, Nat.floor_natCast]

theorem nearest_of_nonpos {x : K} (h : x ≤ 0) : nearest x = 0 := by
  have h1 := nearest_mono h
  have h2 : nearest (0 : K) = 0 := by simpa using nearest_natCast (K := K) 0
  omega

theorem nearest_le_of_le {x : K} {n : ℕ} (h : x ≤ n) : nearest x ≤ n :=
  (nearest_mono h).trans_eq (nearest_natCast n)

theorem le_nearest_of_le {x : K} {n : ℕ} (h : (n : K) ≤ x) : n ≤ nearest x :=
  (nearest_natCast n).symm.trans_le (nearest_mono h)

theorem abs_nearest_sub_le {x : K} (h : 0 ≤ x) : |(nearest x : K) - x| ≤ 1 / 2 := by
  have h1 := Nat.floor_le h
  have h2 := Nat.lt_floor_add_one x
  rw [nearest, abs_le]
  split_ifs with hup
  · push_cast
    rcases hup with hup | ⟨hup, -⟩ <;> constructor <;> linarith
  · have h3 : 2 * (x - ⌊x⌋₊) ≤ 1 := not_lt.1 fun h => hup (Or.inl h)
    constructor <;> linarith

/-! ## Formats -/

structure Format where
  digits : ℕ
  least : ℤ

namespace Format
variable (F : Format)

/-- The number is one of the format. -/
def Mem (x : K) : Prop := ∃ m : ℕ, ∃ e : ℤ, m < 2 ^ F.digits ∧ F.least ≤ e ∧ x = m * 2 ^ e

/-- The exponent of the units that a number is rounded to. -/
def exponent (x : K) : ℤ := max (Int.log 2 x + 1 - F.digits) F.least

/-- The nearest member, with ties to the even significand. -/
def round (x : K) : K := nearest (x / 2 ^ F.exponent x) * 2 ^ F.exponent x

variable {F} {x y : K}

theorem two_zpow_pos (e : ℤ) : (0 : K) < 2 ^ e := zpow_pos two_pos e

/-- A power of two is a natural number of smaller ones. -/
theorem two_zpow_eq {e k : ℤ} (h : e ≤ k) :
    (2 : K) ^ k = ((2 ^ (k - e).toNat : ℕ) : K) * 2 ^ e := by
  have hne : (2 : K) ≠ 0 := (two_pos : (0 : K) < 2).ne'
  push_cast
  rw [← zpow_natCast, ← zpow_add₀ hne]
  congr 1
  omega

theorem Mem.nonneg (h : F.Mem x) : 0 ≤ x := by
  obtain ⟨m, e, -, -, rfl⟩ := h
  exact mul_nonneg m.cast_nonneg (two_zpow_pos e).le

omit [LinearOrder K] [IsStrictOrderedRing K] [FloorRing K] in
theorem mem_zero : F.Mem (0 : K) := ⟨0, F.least, by positivity, le_rfl, by simp⟩

theorem round_nonneg (x : K) : 0 ≤ F.round x :=
  mul_nonneg (Nat.cast_nonneg _) (two_zpow_pos _).le

theorem round_of_nonpos (h : x ≤ 0) : F.round x = 0 := by
  have h1 : x / 2 ^ F.exponent x ≤ 0 := div_nonpos_of_nonpos_of_nonneg h (two_zpow_pos _).le
  rw [round, nearest_of_nonpos h1, Nat.cast_zero, zero_mul]

theorem exponent_mono (hx : 0 < x) (h : x ≤ y) : F.exponent x ≤ F.exponent y := by
  have h1 := Int.log_mono_right (b := 2) hx h
  unfold exponent
  omega

/-- The number in its units is less than `2 ^ digits`. -/
theorem div_exponent_lt (x : K) : x / 2 ^ F.exponent x < (2 ^ F.digits : ℕ) := by
  have h1 : x < 2 ^ (Int.log 2 x + 1) := by exact_mod_cast Int.lt_zpow_succ_log_self one_lt_two x
  have h2 : Int.log 2 x + 1 ≤ F.digits + F.exponent x := by unfold exponent; omega
  rw [div_lt_iff₀ (two_zpow_pos _)]
  push_cast
  calc x < 2 ^ (Int.log 2 x + 1) := h1
    _ ≤ 2 ^ (F.digits + F.exponent x) := zpow_le_zpow_right₀ one_le_two h2
    _ = 2 ^ F.digits * 2 ^ F.exponent x := by rw [zpow_add₀ two_ne_zero, zpow_natCast]

theorem round_le_zpow {k : ℤ} (h : x ≤ 2 ^ k) (he : F.exponent x ≤ k) : F.round x ≤ 2 ^ k := by
  have h1 : x / 2 ^ F.exponent x ≤ (2 ^ (k - F.exponent x).toNat : ℕ) := by
    rwa [div_le_iff₀ (two_zpow_pos _), ← two_zpow_eq he]
  rw [round, two_zpow_eq he]
  exact mul_le_mul_of_nonneg_right (Nat.cast_le.2 (nearest_le_of_le h1)) (two_zpow_pos _).le

theorem zpow_le_round {k : ℤ} (h : 2 ^ k ≤ x) (he : F.exponent x ≤ k) : 2 ^ k ≤ F.round x := by
  have h1 : ((2 ^ (k - F.exponent x).toNat : ℕ) : K) ≤ x / 2 ^ F.exponent x := by
    rwa [le_div_iff₀ (two_zpow_pos _), ← two_zpow_eq he]
  rw [round, two_zpow_eq he]
  exact mul_le_mul_of_nonneg_right (Nat.cast_le.2 (le_nearest_of_le h1)) (two_zpow_pos _).le

/-- **Rounding keeps the order.**  Numbers with the same units are rounded in
    the same grid; otherwise a power of two lies between them. -/
theorem round_mono (hp : 0 < F.digits) (h : x ≤ y) : F.round x ≤ F.round y := by
  rcases le_or_gt x 0 with hx | hx
  · rw [round_of_nonpos hx]
    exact round_nonneg y
  have hy : 0 < y := hx.trans_le h
  rcases (exponent_mono (F := F) hx h).lt_or_eq with hlt | heq
  · have hex : F.exponent x = max (Int.log 2 x + 1 - F.digits) F.least := rfl
    have hey : F.exponent y = max (Int.log 2 y + 1 - F.digits) F.least := rfl
    have h1 : x ≤ 2 ^ Int.log 2 y := by
      have h2 : x < 2 ^ (Int.log 2 x + 1) := by
        exact_mod_cast Int.lt_zpow_succ_log_self one_lt_two x
      exact h2.le.trans (zpow_le_zpow_right₀ one_le_two (by omega))
    have h3 : 2 ^ Int.log 2 y ≤ y := by exact_mod_cast Int.zpow_log_le_self one_lt_two hy
    exact (round_le_zpow h1 (by omega)).trans (zpow_le_round h3 (by omega))
  · have h1 : x / 2 ^ F.exponent y ≤ y / 2 ^ F.exponent y :=
      div_le_div_of_nonneg_right h (two_zpow_pos _).le
    rw [round, round, heq]
    exact mul_le_mul_of_nonneg_right (Nat.cast_le.2 (nearest_mono h1)) (two_zpow_pos _).le

theorem exponent_le_of_lt (hx : 0 < x) {k : ℤ} (h : x < 2 ^ k)
    (hk : F.least ≤ k - F.digits) : F.exponent x ≤ k - F.digits := by
  have h1 : x < ((2 : ℕ) : K) ^ k := by exact_mod_cast h
  have h2 := (Int.lt_zpow_iff_log_lt one_lt_two hx).1 h1
  unfold exponent
  omega

theorem significand_lt {m : ℕ} (hm : m < 2 ^ F.digits) (e : ℤ) :
    (m : K) * 2 ^ e < 2 ^ ((F.digits : ℤ) + e) := by
  have h : (m : K) < 2 ^ F.digits := by exact_mod_cast hm
  rw [zpow_add₀ two_ne_zero, zpow_natCast]
  exact mul_lt_mul_of_pos_right h (two_zpow_pos e)

/-- **Rounding leaves the members alone.** -/
theorem round_of_mem (h : F.Mem x) : F.round x = x := by
  obtain ⟨m, e, hlt, he, rfl⟩ := h
  rcases Nat.eq_zero_or_pos m with rfl | hm
  · rw [Nat.cast_zero, zero_mul, round_of_nonpos le_rfl]
  have hpos : (0 : K) < m * 2 ^ e := mul_pos (Nat.cast_pos.2 hm) (two_zpow_pos e)
  have hle : F.exponent ((m : K) * 2 ^ e) ≤ e := by
    have h1 := exponent_le_of_lt (F := F) hpos (significand_lt hlt e) (by omega)
    omega
  have hdiv : (m : K) * 2 ^ e / 2 ^ F.exponent ((m : K) * 2 ^ e) =
      ((m * 2 ^ (e - F.exponent ((m : K) * 2 ^ e)).toNat : ℕ) : K) := by
    rw [div_eq_iff (two_zpow_pos _).ne', Nat.cast_mul, mul_assoc, ← two_zpow_eq hle]
  rw [round, hdiv, nearest_natCast, ← hdiv, div_mul_cancel₀ _ (two_zpow_pos _).ne']

/-- **What is rounded is a member.** -/
theorem mem_round (hp : 0 < F.digits) (x : K) : F.Mem (F.round x) := by
  have hle : nearest (x / 2 ^ F.exponent x) ≤ 2 ^ F.digits :=
    nearest_le_of_le (div_exponent_lt x).le
  have he : F.least ≤ F.exponent x := le_max_right _ _
  rcases hle.lt_or_eq with hlt | heq
  · exact ⟨_, _, hlt, he, rfl⟩
  · -- the significand carries over to the next exponent
    have hcarry : (2 ^ F.digits : K) = 2 ^ (F.digits - 1) * 2 := by
      rw [← pow_succ, Nat.sub_add_cancel hp]
    refine ⟨2 ^ (F.digits - 1), F.exponent x + 1, Nat.pow_lt_pow_right one_lt_two (by omega),
      by omega, ?_⟩
    rw [round, heq, zpow_add_one₀ two_ne_zero]
    push_cast
    rw [hcarry]
    ring

/-- A member bounds what is rounded if it bounds the number. -/
theorem le_round_of_mem (hp : 0 < F.digits) (hy : F.Mem y) (h : y ≤ x) : y ≤ F.round x :=
  (round_of_mem hy).symm.trans_le (round_mono hp h)

/-- **Rounding moves a number by half a unit at most.** -/
theorem abs_round_sub_le (h : 0 ≤ x) : |F.round x - x| ≤ 2 ^ F.exponent x / 2 := by
  have hpos := two_zpow_pos (K := K) (F.exponent x)
  have h1 := abs_nearest_sub_le (div_nonneg h hpos.le)
  have h2 : F.round x - x =
      (nearest (x / 2 ^ F.exponent x) - x / 2 ^ F.exponent x) * 2 ^ F.exponent x := by
    rw [sub_mul, div_mul_cancel₀ _ hpos.ne', round]
  rw [h2, abs_mul, abs_of_pos hpos]
  calc _ ≤ 1 / 2 * 2 ^ F.exponent x := mul_le_mul_of_nonneg_right h1 hpos.le
    _ = 2 ^ F.exponent x / 2 := by ring

theorem abs_round_sub_le_of_lt (h : 0 ≤ x) {k : ℤ} (hk : x < 2 ^ k)
    (hl : F.least ≤ k - F.digits) : |F.round x - x| ≤ 2 ^ (k - F.digits) / 2 := by
  rcases h.lt_or_eq with hpos | rfl
  · have h1 : (2 : K) ^ F.exponent x ≤ 2 ^ (k - F.digits) :=
      zpow_le_zpow_right₀ one_le_two (exponent_le_of_lt hpos hk hl)
    exact (abs_round_sub_le h).trans (by linarith)
  · rw [round_of_nonpos le_rfl, sub_zero, abs_zero]
    exact (half_pos (two_zpow_pos _)).le

/-- From the least normal number on, the error is relative. -/
theorem abs_round_sub_le_mul (h : 0 < x) (hx : 2 ^ (F.least + F.digits - 1) ≤ x) :
    |F.round x - x| ≤ x * 2 ^ (-(F.digits : ℤ)) := by
  have hb : (2 : K) = ((2 : ℕ) : K) := Nat.cast_two.symm
  have h1 : F.least + F.digits - 1 ≤ Int.log 2 x := by
    rw [hb] at hx
    exact (Int.zpow_le_iff_le_log one_lt_two h).1 hx
  have h2 : F.exponent x = Int.log 2 x + 1 - F.digits := by unfold exponent; omega
  have h3 : (2 : K) ^ Int.log 2 x ≤ x := by exact_mod_cast Int.zpow_log_le_self one_lt_two h
  calc |F.round x - x| ≤ 2 ^ F.exponent x / 2 := abs_round_sub_le h.le
    _ = 2 ^ Int.log 2 x * 2 ^ (-(F.digits : ℤ)) := by
      rw [h2, ← zpow_add₀ two_ne_zero, div_eq_iff two_ne_zero, ← zpow_add_one₀ two_ne_zero]
      congr 1
      ring
    _ ≤ x * 2 ^ (-(F.digits : ℤ)) := mul_le_mul_of_nonneg_right h3 (two_zpow_pos _).le

/-- A member from `2 ^ k` on is a whole number of the units of `2 ^ k`. -/
theorem mem_multiple (h : F.Mem x) {k : ℤ} (hk : 2 ^ k ≤ x) :
    ∃ n : ℕ, x = n * 2 ^ (k + 1 - F.digits) := by
  obtain ⟨m, e, hlt, -, rfl⟩ := h
  have h1 : (2 : K) ^ k < 2 ^ ((F.digits : ℤ) + e) := hk.trans_lt (significand_lt hlt e)
  have h2 : k < F.digits + e := (zpow_lt_zpow_iff_right₀ one_lt_two).1 h1
  refine ⟨m * 2 ^ (e - (k + 1 - F.digits)).toNat, ?_⟩
  rw [two_zpow_eq (K := K) (show k + 1 - (F.digits : ℤ) ≤ e by omega)]
  push_cast
  ring

/-- **Two members from `2 ^ k` on are a unit of `2 ^ k` apart.** -/
theorem mem_add_le (hx : F.Mem x) (hy : F.Mem y) {k : ℤ} (hk : 2 ^ k ≤ x) (h : x < y) :
    x + 2 ^ (k + 1 - F.digits) ≤ y := by
  obtain ⟨n, rfl⟩ := mem_multiple hx hk
  obtain ⟨n', rfl⟩ := mem_multiple hy (hk.trans h.le)
  have hpos := two_zpow_pos (K := K) (k + 1 - F.digits)
  have h1 : n < n' := by exact_mod_cast lt_of_mul_lt_mul_right h hpos.le
  have h2 : ((n : K) + 1) ≤ n' := by exact_mod_cast h1
  calc (n : K) * 2 ^ (k + 1 - F.digits) + 2 ^ (k + 1 - F.digits)
      = (n + 1) * 2 ^ (k + 1 - F.digits) := by ring
    _ ≤ n' * 2 ^ (k + 1 - F.digits) := mul_le_mul_of_nonneg_right h2 hpos.le

/-- What a member has after the point is a member. -/
theorem mem_sub_floor (h : F.Mem x) : F.Mem (x - ⌊x⌋₊) := by
  obtain ⟨m, e, hlt, he, rfl⟩ := h
  rcases le_or_gt 0 e with h0 | h0
  · have hnat : (m : K) * 2 ^ e = (m * 2 ^ e.toNat : ℕ) := by
      have h1 := two_zpow_eq (K := K) h0
      rw [sub_zero, zpow_zero, mul_one] at h1
      rw [h1]
      push_cast
      rfl
    rw [hnat, Nat.floor_natCast, sub_self]
    exact mem_zero
  · -- the significand is cut at the point
    have hone : (1 : K) = (2 ^ (-e).toNat : ℕ) * 2 ^ e := by
      have h1 := two_zpow_eq (K := K) h0.le
      rwa [zpow_zero, zero_sub] at h1
    have hfloor : m / 2 ^ (-e).toNat = ⌊(m : K) * 2 ^ e⌋₊ := by
      have hne : 2 ^ (-e).toNat ≠ 0 := by positivity
      have h1 := Nat.mul_cast_floor_div_cancel hne ((m : K) * 2 ^ e)
      rwa [mul_assoc, mul_comm ((2 : K) ^ e), ← hone, mul_one, Nat.floor_natCast] at h1
    refine ⟨m % 2 ^ (-e).toNat, e, (Nat.mod_le _ _).trans_lt hlt, he, ?_⟩
    have hsplit : (m : K) = (2 ^ (-e).toNat : ℕ) * (m / 2 ^ (-e).toNat : ℕ) +
        (m % 2 ^ (-e).toNat : ℕ) := by exact_mod_cast (Nat.div_add_mod m _).symm
    calc (m : K) * 2 ^ e - ⌊(m : K) * 2 ^ e⌋₊
        = ((2 ^ (-e).toNat : ℕ) * (m / 2 ^ (-e).toNat : ℕ) + (m % 2 ^ (-e).toNat : ℕ)) * 2 ^ e -
            (m / 2 ^ (-e).toNat : ℕ) := by rw [← hsplit, hfloor]
      _ = (m / 2 ^ (-e).toNat : ℕ) * ((2 ^ (-e).toNat : ℕ) * 2 ^ e) +
            (m % 2 ^ (-e).toNat : ℕ) * 2 ^ e - (m / 2 ^ (-e).toNat : ℕ) := by ring
      _ = (m % 2 ^ (-e).toNat : ℕ) * 2 ^ e := by rw [← hone]; ring

end Format

end Rounding
