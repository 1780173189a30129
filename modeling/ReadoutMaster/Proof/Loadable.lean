/-
  The test that chooses between the two strategies of a replay.

  The page size is shifted out of its 32 bits before it is widened, and is
  zero; the product of an event's size and a count wraps in 64 bits.  So the
  test accepts the counts whose product wraps to zero (`loadable_eq`).

  * `loadable_iff`: the test is the one of four GiB exactly if there is nothing
    to load, or too much and the product does not wrap to zero; and so is the
    choice of `replay_all`.
-/
import ReadoutMaster.Replay
import ReadoutMaster.Proof.Files
import ReadoutMaster.Concrete

namespace ReadoutMaster

open Machine Replay

/-! ## The test -/

/-- So many events of this size fit into four GiB. -/
def Fits (size count : ℕ) : Prop := size * count ≤ 4 * 2 ^ 30

/-- There is nothing to load, or more than four GiB that do not wrap to
    zero. -/
def Decided (size count : ℕ) : Prop :=
  count = 0 ∨ 4 * 2 ^ 30 < size * count ∧ ¬ 2 ^ 64 ∣ size * count

instance (size count : ℕ) : Decidable (Fits size count) := inferInstanceAs (Decidable (_ ≤ _))
instance (size count : ℕ) : Decidable (Decided size count) := inferInstanceAs (Decidable (_ ∨ _))

section
variable {type : ReadoutType} {size : UInt64}

theorem pageSize_eq : PAGESIZE = 0 := rfl

/-- The types that are implemented. -/
theorem elementSize_ok (h : type ≠ .MAGIC) :
    ∃ size, elementSize type = .ok size ∧ (size.toNat = 40 ∨ size.toNat = 32) := by
  cases type with
  | MAGIC => exact absurd rfl h
  | CAEN => exact ⟨40, rfl, Or.inl rfl⟩
  | TTLMonitor | VMM3 | DREAM => exact ⟨32, rfl, Or.inr rfl⟩

theorem elementSize_pos (h : elementSize type = .ok size) : 0 < size.toNat := by
  cases type with
  | MAGIC => cases h
  | CAEN | TTLMonitor | VMM3 | DREAM =>
    obtain rfl := Except.ok.inj h
    decide

/-- The test accepts the products that wrap to zero. -/
theorem loadable_eq (h : elementSize type = .ok size) (count : UInt64) :
    loadable type count = .ok (decide (2 ^ 64 ∣ size.toNat * count.toNat)) := by
  have htest : loadable type count = .ok (decide (size * count ≤ PAGESIZE)) := by
    rw [loadable, h]
    rfl
  rw [htest, Except.ok.injEq, decide_eq_decide, pageSize_eq, UInt64.le_iff_toNat_le,
    UInt64.toNat_mul, UInt64.toNat_zero, Nat.le_zero]
  exact Nat.dvd_iff_mod_eq_zero.symm

/-- The size of events that fit into memory does not wrap to zero. -/
theorem not_dvd_size_mul {k n : ℕ} (hk : k = 40 ∨ k = 32) (h : 0 < n) (hlt : n < 2 ^ 59) :
    ¬ 2 ^ 64 ∣ k * n := by
  intro hdvd
  have hn : 2 ^ 59 ∣ n := by
    rcases hk with rfl | rfl
    · have h5 : 2 ^ 61 ∣ 5 * n := by
        refine Nat.dvd_of_mul_dvd_mul_left (k := 8) (by decide) ?_
        rwa [← Nat.mul_assoc]
      have hco : Nat.Coprime (2 ^ 61) 5 := Nat.Coprime.pow_left 61 (by decide)
      exact (Nat.pow_dvd_pow 2 (by decide)).trans (hco.dvd_of_dvd_mul_left h5)
    · exact Nat.dvd_of_mul_dvd_mul_left (k := 32) (by decide) hdvd
  exact absurd (Nat.le_of_dvd h hn) (Nat.not_le.2 hlt)

/-- No events whose indexes fit into memory are read at once. -/
theorem loadable_false [Host] {n : UInt64} (hM : type ≠ .MAGIC) (hn : 0 < n.toNat)
    (hm : n.toNat * 8 ≤ Host.memory) : loadable type n = .ok false := by
  have hmem := Host.memory_lt
  obtain ⟨size, hsize, hk⟩ := elementSize_ok hM
  rw [loadable_eq hsize, Except.ok.injEq, decide_eq_false_iff_not]
  exact not_dvd_size_mul hk hn (by omega)

/-- A product that wraps to zero, and one of at most four GiB. -/
theorem decided_iff {size count : ℕ} (hs : 0 < size) :
    (2 ^ 64 ∣ size * count ↔ Fits size count) ↔ Decided size count := by
  rcases Nat.eq_zero_or_pos count with rfl | hc
  · have hfits : Fits size 0 := Nat.zero_le _
    exact iff_of_true (iff_of_true (Nat.dvd_zero _) hfits) (Or.inl rfl)
  · have hpos : 0 < size * count := Nat.mul_pos hs hc
    have hsmall : Fits size count → ¬ 2 ^ 64 ∣ size * count := by
      intro hf hdvd
      have hle := Nat.le_of_dvd hpos hdvd
      unfold Fits at hf
      omega
    unfold Decided
    constructor
    · intro h
      have hf : ¬ Fits size count := fun hf => hsmall hf (h.2 hf)
      exact Or.inr ⟨Nat.not_le.1 hf, fun hdvd => hf (h.1 hdvd)⟩
    · rintro (rfl | ⟨hlt, hdvd⟩)
      · exact absurd hc (Nat.lt_irrefl 0)
      · exact iff_of_false hdvd (Nat.not_le.2 hlt)

end

/-! ## The choice -/

section
variable {R FS : Type}

/-- What `replay_all` does with a reader, where `load` and `chunk` are the two
    strategies. -/
def strategy {σ : Type} (reader : Reader R) (load chunk : EStateM Exn σ Unit) :
    EStateM Exn σ Unit := do
  if ← lift (loadable reader.readout reader.size) then load else chunk

theorem replayAll_strategy [HighFive R FS] [CDouble R] [Host] (filename : String)
    (control : UInt32) (clock : UInt64) (fs : FS) (socket : ℕ → SendResult) (draws : ℕ → Draw) :
    replayAll filename control clock fs socket draws =
      match Reader.make fs filename with
      | .error e => ⟨.error e, none⟩
      | .ok reader => withReadout reader.detector clock fs socket draws <|
          strategy reader (loadReplay FS reader Readout.addReadout 0 reader.size control)
            (chunkReplay FS reader Readout.addReadout 0 reader.size 1 control) := rfl

/-- `replay_all` reads all the events of the file at once: whatever the two
    strategies are, it is the first that runs. -/
def TakesBulk [HighFive R FS] [Host] (fs : FS) (filename : String) : Prop :=
  ∃ reader : Reader R, Reader.make fs filename = .ok reader ∧
    ∀ (σ : Type) (load chunk : EStateM Exn σ Unit), strategy reader load chunk = load

theorem strategy_eq {reader : Reader R} {b : Bool} {σ : Type}
    (h : loadable reader.readout reader.size = .ok b) (load chunk : EStateM Exn σ Unit) :
    strategy reader load chunk = if b then load else chunk := by
  rw [strategy, h]
  rfl

variable [HighFive R FS] [Host] {fs : FS} {filename name : String} {f : H5File R}
  {d : DetectorType} {type : ReadoutType} {ds : DataSet R} {size : UInt64}

theorem takesBulk_iff (hsize : elementSize type = .ok size)
    (hf : HighFive.openReadOnly fs filename = some f) (hs : f.Stores name d type ds) :
    TakesBulk fs filename ↔ 2 ^ 64 ∣ size.toNat * ds.rows.length := by
  have hread : Reader.make fs filename = .ok ⟨some ds, d, type⟩ := by
    rw [Reader.make, hf]
    exact ofFile_of_stores hs
  have hcount : (Reader.size ⟨some ds, d, type⟩).toNat = ds.rows.length := toNat_size _
  have hload : loadable type (Reader.size ⟨some ds, d, type⟩) =
      .ok (decide (2 ^ 64 ∣ size.toNat * ds.rows.length)) := by
    rw [loadable_eq hsize, hcount]
  constructor
  · rintro ⟨reader, hr, hall⟩
    obtain rfl := Except.ok.inj (hread.symm.trans hr)
    by_contra hdvd
    -- two strategies that differ
    have heq := hall Unit (throw .highFive) (pure ())
    rw [strategy_eq hload, if_neg (by rwa [decide_eq_true_eq])] at heq
    cases congrFun heq ()
  · intro hdvd
    refine ⟨_, hread, ?_⟩
    intro σ load chunk
    rw [strategy_eq hload, if_pos (decide_eq_true hdvd)]

end

/-- **The bulk-load test** of an implemented readout type is the one of four GiB
    exactly if there is nothing to load, or more than four GiB that do not wrap
    to zero; and so is the choice `replay_all` makes for a file. -/
theorem loadable_iff {type : ReadoutType} {size : UInt64} (h : elementSize type = .ok size) :
    (∀ count : UInt64, (loadable type count = .ok true ↔ Fits size.toNat count.toNat) ↔
        Decided size.toNat count.toNat) ∧
      ∀ {R FS : Type} [HighFive R FS] [Host] {fs : FS} {filename name : String} {f : H5File R}
        {d : DetectorType} {ds : DataSet R}, HighFive.openReadOnly fs filename = some f →
        f.Stores name d type ds →
        ((TakesBulk fs filename ↔ Fits size.toNat ds.rows.length) ↔
          Decided size.toNat ds.rows.length) := by
  have hpos := elementSize_pos h
  constructor
  · intro count
    rw [loadable_eq h, Except.ok.injEq, decide_eq_true_eq, decided_iff hpos]
  · intro R FS _ _ fs filename name f d ds hf hs
    rw [takesBulk_iff h hf hs, decided_iff hpos]

/-- Eight gigabytes of events are too much. -/
theorem loadable_iff_caen :
    (loadable .CAEN 200000000 = .ok true ↔ Fits 40 200000000) ∧
      (loadable .CAEN 0 = .ok true ↔ Fits 40 0) := by
  have hsize : elementSize .CAEN = .ok 40 := rfl
  exact ⟨((loadable_iff hsize).1 200000000).2 (by decide), ((loadable_iff hsize).1 0).2 (by decide)⟩

/-- One event fits, and is not read at once. -/
theorem one_event_not_loadable :
    Fits 40 1 ∧ loadable .CAEN 1 = .ok false ∧
      Fits 40 oneEvent.rows.length ∧ ¬ TakesBulk Disk.withEvent "in.h5" := by
  have hsize : elementSize .CAEN = .ok 40 := rfl
  refine ⟨by decide, rfl, by decide, ?_⟩
  rw [takesBulk_iff hsize rfl H5File.stores_written]
  decide

end ReadoutMaster
