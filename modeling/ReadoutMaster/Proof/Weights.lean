/-
  How often a weighted event is sent.

  The loop that adds the copies draws its bound anew for every copy.
  `singleDraw_iff`: an event of nonzero weight is added as often as the first
  draw says, and takes that draw alone, iff the first draw is zero.
-/
import ReadoutMaster.Proof.Delivery

namespace ReadoutMaster

open Readout Machine

variable {R FS : Type}

/-- The object with these draws to come. -/
def World.drawing (w : World R FS) (draws : ℕ → Draw) : World R FS :=
  { w with obj := { w.obj with randomEngine := draws } }

/-- The draw at hand, and then others. -/
def drawThen (d : Draw) (later : ℕ → Draw) : ℕ → Draw
  | 0 => d
  | n + 1 => later n

/-- The call returns, with `n` copies of the record added to what was sent or
    is pending. -/
def AddsCopies (call : Prog R FS Unit) (w : World R FS) (r : Option Record) (n : ℕ) : Prop :=
  ∃ w' rs, call w = .ok () w' ∧ w'.history = w.history ++ rs ∧ rs.length = n ∧
    ∀ r' ∈ rs, r = some r'

/-- The call takes the draw at hand and no other, whatever draws would
    follow. -/
def TakesOneDraw (call : Prog R FS Unit) (w : World R FS) : Prop :=
  ∀ later, ∃ w', call (w.drawing (drawThen (w.obj.randomEngine 0) later)) = .ok () w' ∧
    w'.obj.randomEngine = later

section
variable [CDouble R] {ring fen : UInt8} {time : EfuTime} {weight : R} {data : VoidPtr}
  {w : World R FS}

/-- A first draw of zero ends the loop at once. -/
theorem addWeighted_of_zero (hwt : CDouble.truthy weight = true)
    (h0 : (w.obj.randomEngine 0).val = 0) :
    addWeighted ring fen time weight data w = .ok () (w.drawn 1) := by
  rw [addWeighted, if_pos hwt, addCopies, randomPoisson_bind, if_neg (by omega)]
  rfl

/-- A first draw that is not zero is followed by another one, if the call
    returns. -/
theorem addWeighted_of_pos {w' : World R FS} (hwt : CDouble.truthy weight = true)
    (h0 : 0 < (w.obj.randomEngine 0).val)
    (h : addWeighted ring fen time weight data w = .ok () w') :
    ∃ n, w'.obj.randomEngine = fun i => w.obj.randomEngine (i + (n + 2)) := by
  cases hr : recordOf w.obj.type ring fen time data with
  | none =>
    -- the first copy throws
    obtain ⟨e, he⟩ : ∃ e, addReadoutAt ring fen time data (w.drawn 1) = .error e (w.drawn 1) :=
      addReadoutAt_error (recordOf_eq_none hr)
    rw [addWeighted, if_pos hwt, addCopies, randomPoisson_bind, if_pos h0, bind_of_error he] at h
    cases h
  | some r =>
    obtain ⟨t, assign, ht, hw⟩ := recordOf_eq_some.1 hr
    rw [addWeighted_eq weight ht hw] at h
    obtain rfl : _ = w' := by injection h
    have hcopies : copies w.obj.randomEngine ≠ 0 := by
      intro hz
      have hspec := Nat.find_spec (exists_copies w.obj.randomEngine)
      rw [← copies, hz] at hspec
      omega
    obtain ⟨n, hn⟩ := Nat.exists_eq_succ_of_ne_zero hcopies
    refine ⟨n, ?_⟩
    rw [World.randomEngine_copies, drawsOf, if_pos hwt, hn]
    rfl

variable [HighFive R FS] {tof : R}

/-- **Weighted events.**  An event of nonzero weight is added as often as the
    first draw says, and takes this draw alone, iff its record can be stored and
    the first draw is zero. -/
theorem singleDraw_iff (hn : w.obj.network = true) (hwt : CDouble.truthy weight = true) :
    AddsCopies (addReadout ring fen tof weight data) w
          (recordOf w.obj.type ring fen (CDouble.toEfu tof + w.obj.time) data)
          (w.obj.randomEngine 0).val ∧
        TakesOneDraw (addReadout ring fen tof weight data) w ↔
      (∃ fs, saved w.obj ring fen tof weight data w.fs = .ok () fs) ∧
        (w.obj.randomEngine 0).val = 0 := by
  constructor
  · rintro ⟨⟨w', rs, h, -⟩, hone⟩
    cases hs : saved w.obj ring fen tof weight data w.fs with
    | error e fs =>
      rw [addReadout_error hs] at h
      cases h
    | ok u fs =>
      refine ⟨⟨fs, rfl⟩, ?_⟩
      by_contra hpos
      -- draws after which a second one shows
      obtain ⟨v, hv, hdraws⟩ := hone fun n => if n = 0 then 1 else 0
      set v₀ := w.drawing (drawThen (w.obj.randomEngine 0) fun n => if n = 0 then 1 else 0)
      have hadd := addReadout_enabled (w := v₀) hn hs
      have hpos₀ : 0 < ((v₀.noted fs tof).obj.randomEngine 0).val := Nat.pos_of_ne_zero hpos
      obtain ⟨n, hn2⟩ := addWeighted_of_pos hwt hpos₀ (hadd.symm.trans hv)
      rw [hdraws] at hn2
      exact absurd (congrFun hn2 0) (by simp [v₀, World.noted, World.drawing, drawThen])
  · rintro ⟨⟨fs, hs⟩, h0⟩
    constructor
    · have hadd := addReadout_enabled hn hs
      rw [addWeighted_of_zero (w := w.noted fs tof) hwt h0] at hadd
      exact ⟨_, [], hadd, (List.append_nil _).symm, h0.symm, by simp⟩
    · intro later
      have hadd := addReadout_enabled (w := w.drawing (drawThen (w.obj.randomEngine 0) later)) hn hs
      exact ⟨_, hadd.trans (addWeighted_of_zero hwt h0), rfl⟩

end

/-- A readout of type BIFROST whose random engine draws three, and zeros from
    then on. -/
def threeThenZero : World ℚ (Disk ℚ) :=
  (atTen .BIFROST).drawing fun n => if n = 0 then ⟨3, by decide⟩ else ⟨0, by decide⟩

theorem singleDraw_iff_zeros :
    AddsCopies (addReadout 1 2 (1 / 10) 1 VoidPtr.blank) (threeThenZero.drawn 1)
        (recordOf .BIFROST 1 2 (CDouble.toEfu (1 / 10 : ℚ) + ⟨10, 0⟩) VoidPtr.blank)
        ((threeThenZero.drawn 1).obj.randomEngine 0).val ∧
      TakesOneDraw (addReadout 1 2 (1 / 10) 1 VoidPtr.blank) (threeThenZero.drawn 1) :=
  (singleDraw_iff (w := threeThenZero.drawn 1) rfl (by decide)).2
    ⟨⟨_, rfl⟩, by decide +kernel⟩

/-- The first draw is three, and one copy is added. -/
theorem one_copy_of_three :
    (threeThenZero.obj.randomEngine 0).val = 3 ∧
      (final (addReadout 1 2 (1 / 10) 1 VoidPtr.blank) threeThenZero).history.length = 1 ∧
      ¬ (AddsCopies (addReadout 1 2 (1 / 10) 1 VoidPtr.blank) threeThenZero
            (recordOf .BIFROST 1 2 ⟨10, 8805249⟩ VoidPtr.blank) 3 ∧
          TakesOneDraw (addReadout 1 2 (1 / 10) 1 VoidPtr.blank) threeThenZero) := by
  have hone :
      (final (addReadout 1 2 (1 / 10) 1 VoidPtr.blank) threeThenZero).history.length = 1 := by
    decide +kernel
  refine ⟨rfl, hone, ?_⟩
  rintro ⟨⟨w', rs, h, hh, hlen, -⟩, -⟩
  rw [final_of_ok h, hh, List.length_append, hlen] at hone
  omega

end ReadoutMaster
