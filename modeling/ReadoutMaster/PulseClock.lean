/-
  The pulse clock in ticks: what `update_time` makes of the reference time `T`
  at a reading `c` of the system clock, for a period `P`.

  The ideal reference time is the last point of the grid of period `P` through
  the creation time, `Grid.floor`.  `pulses_eq_iff` says for which readings the
  reference times are the ideal ones.
-/
import ReadoutMaster.Lib.Radix
import Mathlib.Data.List.Chain

namespace ReadoutMaster

namespace PulseClock

/-- The next reference time: unchanged if the reading is earlier, the reading
    itself within a period, and moved on by whole periods after it.  The number
    of periods is a 32-bit word. -/
def next (P T c : ℕ) : ℕ :=
  if c < T then T else if c - T < P then c else T + (c - T) / P % 2 ^ 32 * P

/-- The reference times after each of a sequence of readings. -/
def pulses (P : ℕ) : ℕ → List ℕ → List ℕ
  | _, [] => []
  | T, c :: cs => next P T c :: pulses P (next P T c) cs

/-- The reading `c'` after `c` is the reference time itself, or falls in a
    later period, less than `2 ^ 32` periods on. -/
def Steady (t₀ P c c' : ℕ) : Prop :=
  c' = Grid.floor t₀ P c ∨
    Grid.index t₀ P c < Grid.index t₀ P c' ∧ Grid.index t₀ P c' < Grid.index t₀ P c + 2 ^ 32

variable {t₀ P T c c' : ℕ}

instance : Decidable (Steady t₀ P c c') := inferInstanceAs (Decidable (_ ∨ _))

theorem le_next : T ≤ next P T c := by
  simp only [next]
  split_ifs
  · exact le_rfl
  · omega
  · exact Nat.le_add_right _ _

theorem next_le (h : T ≤ c) : next P T c ≤ c := by
  have h1 : (c - T) / P % 2 ^ 32 * P ≤ (c - T) / P * P := Nat.mul_le_mul_right P (Nat.mod_le _ _)
  have h2 := Nat.div_mul_le_self (c - T) P
  rw [next, if_neg (Nat.not_lt.2 h)]
  split_ifs <;> omega

/-- The reference time moves on by a period or more iff the reading is that far
    ahead, and the number of periods is not a multiple of `2 ^ 32`. -/
theorem add_le_next_iff (hP : 0 < P) (h : T ≤ c) :
    T + P ≤ next P T c ↔ T + P ≤ c ∧ (c - T) / P % 2 ^ 32 ≠ 0 := by
  rw [next, if_neg (Nat.not_lt.2 h)]
  by_cases hd : c - T < P
  · rw [if_pos hd]
    omega
  · have hle : P ≤ (c - T) / P % 2 ^ 32 * P ↔ (c - T) / P % 2 ^ 32 ≠ 0 := by
      constructor
      · intro hle hk
        rw [hk, Nat.zero_mul] at hle
        omega
      · intro hk
        exact Nat.le_mul_of_pos_left P (Nat.pos_of_ne_zero hk)
    rw [if_neg hd, Nat.add_le_add_iff_left, hle]
    omega

/-- From an ideal reference time the next one is ideal iff the reading is
    steady. -/
theorem next_eq_floor_iff (hP : 0 < P) (h0 : t₀ ≤ c) (h : c ≤ c') :
    next P (Grid.floor t₀ P c) c' = Grid.floor t₀ P c' ↔ Steady t₀ P c c' := by
  have hT := (Grid.floor_le (P := P) h0).trans h
  have hi := Grid.add_le_iff_index_lt hP hT
  have hr := Grid.index_rebase hP hT
  have hm : Grid.index t₀ P c ≤ Grid.index t₀ P c' := Grid.index_mono h
  rw [next, if_neg (Nat.not_lt.2 hT), Steady]
  by_cases hd : c' - Grid.floor t₀ P c < P
  · have he : Grid.index t₀ P c = Grid.index t₀ P c' := by omega
    have hf : Grid.floor t₀ P c' = Grid.floor t₀ P c := by rw [Grid.floor, ← he]; rfl
    rw [if_pos hd, hf]
    omega
  · have hlt : Grid.index t₀ P c < Grid.index t₀ P c' := by omega
    have hf : Grid.floor t₀ P c' = Grid.floor t₀ P c + (c' - Grid.floor t₀ P c) / P * P :=
      (Grid.floor_rebase hP hT).symm
    have hq : (c' - Grid.floor t₀ P c) / P = Grid.index (Grid.floor t₀ P c) P c' := rfl
    rw [if_neg hd, hf, Nat.add_left_cancel_iff, Nat.mul_left_inj hP.ne', hq]
    omega

/-- **The reference times are the ideal ones iff every reading is steady after
    the one before.** -/
theorem pulses_eq_iff (hP : 0 < P) {cs : List ℕ} (h0 : t₀ ≤ c)
    (hmono : (c :: cs).IsChain (· ≤ ·)) :
    pulses P (Grid.floor t₀ P c) cs = cs.map (Grid.floor t₀ P) ↔
      (c :: cs).IsChain (Steady t₀ P) := by
  induction cs generalizing c with
  | nil => simp [pulses]
  | cons c' cs ih =>
    rw [List.isChain_cons_cons] at hmono ⊢
    rw [pulses, List.map_cons, List.cons.injEq, next_eq_floor_iff hP h0 hmono.1]
    refine and_congr_right ?_
    intro hs
    rw [(next_eq_floor_iff hP h0 hmono.1).2 hs]
    exact ih (h0.trans hmono.1) hmono.2

end PulseClock

end ReadoutMaster
