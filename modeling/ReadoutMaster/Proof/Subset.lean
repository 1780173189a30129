/-
  Replaying a subset of the events of a file.

  * `forM_fetch`: fetching the events at some indexes of the dataset is
    performing their calls;
  * `replaySubset_selects`: a subset that ends inside the dataset, and whose
    indexes fit into memory, is replayed event by event and nothing else.
-/
import ReadoutMaster.Proof.Record

namespace ReadoutMaster

open Readout Machine Replay

variable {R FS : Type}

/-- The indexes of a subset of the events. -/
def subsetIndexes (first number every : UInt64) : List ℕ :=
  (List.range number.toNat).map fun j => first.toNat + j * every.toNat

/-- The calls `picked` are those at the indexes, in their order if the playback
    mode is not random, and in some order if it is. -/
def Picks (calls : List (AddCall R)) (indexes : List ℕ) (control : UInt32)
    (picked : List (AddCall R)) : Prop :=
  ∃ order : List ℕ, order.Perm indexes ∧ (control &&& RANDOM = 0 → order = indexes) ∧
    picked.map some = order.map fun i => calls[i]?

section
variable {ι : Type} {calls : List (AddCall R)} {is : List ι} {index : ι → ℕ}

theorem map_some_filterMap (h : ∀ i ∈ is, index i < calls.length) :
    (is.filterMap fun i => calls[index i]?).map some = is.map fun i => calls[index i]? := by
  induction is with
  | nil => rfl
  | cons i is ih =>
    rw [List.filterMap_cons, List.map_cons, List.getElem?_eq_getElem (h i List.mem_cons_self)]
    exact congrArg _ (ih fun j hj => h j (List.mem_cons_of_mem _ hj))

/-- Events that are in the dataset are fetched and added one by one. -/
theorem forM_fetch {σ : Type} {add : AddReadout R (EStateM Exn σ Unit)}
    (h : ∀ i ∈ is, index i < calls.length) :
    (is.forM fun i => fetch add calls (index i)) =
      (is.filterMap fun i => calls[index i]?).forM (AddCall.perform add) := by
  induction is with
  | nil => rfl
  | cons i is ih =>
    have hi := h i List.mem_cons_self
    have ih := ih fun j hj => h j (List.mem_cons_of_mem _ hj)
    rw [List.filterMap_cons, List.getElem?_eq_getElem hi]
    show (fetch add calls (index i) >>= fun _ => is.forM fun i => fetch add calls (index i)) = _
    rw [fetch_of_lt hi, ih]
    rfl

end

section
variable [Host] {first number every : UInt64} {control : UInt32} {n : ℕ}

theorem perm_positions (number : UInt64) (control : UInt32) :
    (positions number control).Perm ((List.range number.toNat).map UInt64.ofNat) := by
  unfold positions
  split_ifs
  · exact perm_shuffle _
  · exact List.Perm.refl _

/-- The indexes of a subset that ends inside the dataset do not wrap. -/
theorem index_positions (hlt : first.toNat + (number.toNat - 1) * every.toNat < n) (hn : n < 2 ^ 64)
    {i : UInt64} (hi : i ∈ positions number control) :
    (first + i * every).toNat = first.toNat + i.toNat * every.toNat ∧
      first.toNat + i.toNat * every.toNat < n := by
  have hi := lt_of_mem_positions hi
  have hle : i.toNat * every.toNat ≤ (number.toNat - 1) * every.toNat :=
    Nat.mul_le_mul_right _ (by omega)
  rw [UInt64.toNat_add, UInt64.toNat_mul, Nat.mod_eq_of_lt (a := i.toNat * every.toNat) (by omega),
    Nat.mod_eq_of_lt (by omega)]
  exact ⟨rfl, by omega⟩

/-- The order of the indexes. -/
theorem order_positions :
    ((positions number control).map fun i => first.toNat + i.toNat * every.toNat).Perm
        (subsetIndexes first number every) ∧
      (control &&& RANDOM = 0 →
        ((positions number control).map fun i => first.toNat + i.toNat * every.toNat) =
          subsetIndexes first number every) := by
  have hseq : ((List.range number.toNat).map UInt64.ofNat).map
      (fun i => first.toNat + i.toNat * every.toNat) = subsetIndexes first number every := by
    rw [subsetIndexes, List.map_map]
    refine List.map_congr_left ?_
    intro j hj
    have hj := List.mem_range.1 hj
    have hjn : (UInt64.ofNat j).toNat = j := by
      rw [UInt64.toNat_ofNat', Nat.mod_eq_of_lt (hj.trans number.toNat_lt)]
    simp only [Function.comp_apply, hjn]
  constructor
  · rw [← hseq]
    exact (perm_positions number control).map _
  · intro hc
    rw [← hseq, positions, if_neg (by simp [hc])]

end

section
variable [Host] {events : List (AddCall R)} {first number every : UInt64} {control : UInt32}

/-- The calls of the events of a subset, in the order of the playback mode. -/
def subsetCalls (events : List (AddCall R)) (first number every : UInt64) (control : UInt32) :
    List (AddCall R) :=
  (positions number control).filterMap fun i => events[first.toNat + i.toNat * every.toNat]?

theorem picks_subsetCalls (hlt : first.toNat + (number.toNat - 1) * every.toNat < events.length)
    (hn : events.length < 2 ^ 64) :
    Picks events (subsetIndexes first number every) control
      (subsetCalls events first number every control) := by
  refine ⟨_, order_positions.1, order_positions.2, ?_⟩
  rw [subsetCalls, map_some_filterMap fun i hi => (index_positions hlt hn hi).2, List.map_map]
  rfl

end

section
variable [HighFive R FS] [Host] [CDouble R] {fs : FS} {filename name : String} {f : H5File R}
  {d : DetectorType} {t : ReadoutType} {ds : DataSet R} {first number every : UInt64}
  {control : UInt32} {clock : UInt64} {socket : ℕ → SendResult} {draws : ℕ → Draw}
  {w : World R FS}

/-- The calls of the events of a dataset. -/
def eventCalls (FS : Type) [HighFive R FS] (t : ReadoutType) (ds : DataSet R) : List (AddCall R) :=
  ds.rows.map fun row => (asRow FS t row).call

omit [CDouble R] in
/-- The event-by-event path makes the calls of the subset. -/
theorem chunkReplay_subset (hM : t ≠ .MAGIC)
    (hlt : first.toNat + (number.toNat - 1) * every.toNat < ds.rows.length)
    (hm : number.toNat * 8 ≤ Host.memory) {σ : Type} (add : AddReadout R (EStateM Exn σ Unit)) :
    chunkReplay FS ⟨some ds, d, t⟩ add first number every control =
      (subsetCalls (eventCalls FS t ds) first number every control).forM
        (AddCall.perform add) := by
  have hidx : ∀ i ∈ positions number control, _ := fun i hi => index_positions hlt ds.length_lt hi
  have hin : ∀ i ∈ positions number control,
      first.toNat + i.toNat * every.toNat < (eventCalls FS t ds).length := by
    intro i hi
    rw [eventCalls, List.length_map]
    exact (hidx i hi).2
  rw [chunkReplay_every hM hm, subsetCalls, ← forM_fetch hin]
  refine forM_congr ?_
  intro i hi
  rw [(hidx i hi).1]
  rfl

/-- `replay_subset` takes the event-by-event path, and returns if its calls
    do. -/
theorem replaySubset_ok (hf : HighFive.openReadOnly fs filename = some f)
    (hs : f.Stores name d t ds) (hM : t ≠ .MAGIC) (hpos : 0 < number.toNat)
    (hm : number.toNat * 8 ≤ Host.memory)
    (hw : Readout.make d.code.toNat ⟨1, 0⟩ (EfuTime.now clock) fs socket draws = .ok w)
    {w' : World R FS}
    (hrun : chunkReplay FS ⟨some ds, d, t⟩ addReadout first number every control w = .ok () w') :
    replaySubset filename first number every control clock fs socket draws =
      ⟨.ok (), some (final destroy w')⟩ := by
  have hread : Reader.make fs filename = .ok ⟨some ds, d, t⟩ := by
    rw [Reader.make, hf]
    exact ofFile_of_stores hs
  have hbody : (do
      if (← lift (loadable t number)) && every == 1 then
        loadReplay FS ⟨some ds, d, t⟩ addReadout first number control
      else
        chunkReplay FS ⟨some ds, d, t⟩ addReadout first number every control :
          Prog R FS Unit) w = .ok () w' := by
    rw [loadable_false hM hpos hm, lift_ok_bind, if_neg (by simp)]
    exact hrun
  simp only [replaySubset, hread, withReadout, hw, hbody]

/-- **Replaying a subset.**  A subset that ends inside the dataset, and whose
    vector of indexes can be allocated, is replayed without an exception: both
    strategies make the calls of its events and no others, and the readouts of
    these calls are transmitted when `replay_subset` returns. -/
theorem replaySubset_selects (hf : HighFive.openReadOnly fs filename = some f)
    (hs : f.Stores name d t ds) (ht : readoutTypeFromDetectorType d = .ok t) (hM : t ≠ .MAGIC)
    (hpos : 0 < number.toNat)
    (hlt : first.toNat + (number.toNat - 1) * every.toNat < ds.rows.length)
    (hm : number.toNat * 8 ≤ Host.memory)
    (hw : Readout.make d.code.toNat ⟨1, 0⟩ (EfuTime.now clock) fs socket draws = .ok w) :
    ∃ calls : List (AddCall R),
      Picks (ds.rows.map fun row => (asRow FS t row).call) (subsetIndexes first number every)
        control calls ∧
      (∀ (σ : Type) (add : AddReadout R (EStateM Exn σ Unit)),
        chunkReplay FS ⟨some ds, d, t⟩ add first number every control =
          calls.forM (AddCall.perform add) ∧
        (every = 1 → number.toNat * sizeofEvent t ≤ Host.memory →
          loadReplay FS ⟨some ds, d, t⟩ add first number control =
            calls.forM (AddCall.perform add))) ∧
      replaySubset filename first number every control clock fs socket draws =
        ⟨.ok (), some (final destroy (run (AddCall.perform addReadout) w calls))⟩ ∧
      Transmits t (final destroy (run (AddCall.perform addReadout) w calls))
        (itemsOf t draws calls) := by
  set calls := subsetCalls (eventCalls FS t ds) first number every control with hcalls
  have hlen : (eventCalls FS t ds).length = ds.rows.length := List.length_map _
  have hpicks : Picks (eventCalls FS t ds) (subsetIndexes first number every) control calls :=
    picks_subsetCalls (hlen ▸ hlt) (hlen ▸ ds.length_lt)
  have hchunk : ∀ (σ : Type) (add : AddReadout R (EStateM Exn σ Unit)),
      chunkReplay FS ⟨some ds, d, t⟩ add first number every control =
        calls.forM (AddCall.perform add) := fun σ add => chunkReplay_subset hM hlt hm add
  obtain ⟨hall, htrans⟩ := transmits_run ht hM hw calls
  refine ⟨calls, hpicks, fun σ add => ⟨hchunk σ add, ?_⟩, ?_, htrans⟩
  · intro hone hsize
    have hrows : (Reader.rows ⟨some ds, d, t⟩).length = ds.rows.length := rfl
    have hone' : every.toNat = 1 := by rw [hone]; rfl
    rw [hone', Nat.mul_one] at hlt
    rw [← hchunk, hone]
    exact loadReplay_eq_chunkReplay hM hm (by omega) (by omega) hsize
  · refine replaySubset_ok hf hs hM hpos hm hw ?_
    rw [hchunk]
    exact forM_eq_ok.2 ⟨hall, rfl⟩

end

/-- A dataset with three events of a LOKI detector. -/
def threeEvents : DataSet ℚ :=
  .written .LOKI .CAEN [.caen ⟨⟨1, 2, 1 / 100, 0⟩, 3, 4, 5, 6, 7⟩,
    .caen ⟨⟨1, 3, 1 / 50, 0⟩, 3, 4, 5, 6, 7⟩, .caen ⟨⟨1, 4, 1 / 25, 0⟩, 3, 4, 5, 6, 7⟩] (by decide)

/-- A disk with a file of this dataset. -/
def Disk.withEvents : Disk ℚ :=
  Function.update Disk.blank "in.h5" (.file (.written threeEvents .CAEN))

theorem open_withEvents : HighFive.openReadOnly Disk.withEvents "in.h5" =
    some (H5File.written threeEvents .CAEN) := rfl

/-- The first and the third of three events. -/
theorem replaySubset_selects_threeEvents : ∃ calls : List (AddCall ℚ),
    Picks (threeEvents.rows.map fun row => (asRow (Disk ℚ) .CAEN row).call) [0, 2] SEQUENTIAL
        calls ∧
      ∃ replayed, replaySubset "in.h5" 0 2 2 SEQUENTIAL 10000000000 Disk.withEvents openSocket
          ones = ⟨.ok (), some replayed⟩ ∧
        Transmits .CAEN replayed (itemsOf .CAEN ones calls) := by
  have hnumber : 0 < (2 : UInt64).toNat := by decide
  have hend : (0 : UInt64).toNat + ((2 : UInt64).toNat - 1) * (2 : UInt64).toNat <
      threeEvents.rows.length := by decide
  have hnow : (EfuTime.now 10000000000).sub ⟨1, 0⟩ = .ok ⟨9, 0⟩ := by decide +kernel
  obtain ⟨calls, h1, -, h2, h3⟩ := replaySubset_selects open_withEvents H5File.stores_written rfl
    (by decide) hnumber hend (by decide) (make_eq (detectorTypeFromInt_code .LOKI) hnow)
  exact ⟨calls, h1, _, h2, h3⟩

/-- The first of three events, so often that its indexes do not fit into any
    memory. -/
theorem subset_too_long :
    1 ≤ (2305843009213693952 : UInt64).toNat ∧
      (0 : UInt64).toNat + ((2305843009213693952 : UInt64).toNat - 1) * (0 : UInt64).toNat <
        threeEvents.rows.length ∧
      ∃ e, (replaySubset "in.h5" 0 2305843009213693952 0 SEQUENTIAL 10000000000 Disk.withEvents
        openSocket ones : Outcome ℚ (Disk ℚ)).result = .error e := by
  refine ⟨by decide, by decide, ?_⟩
  have hmem : Host.memory < (2305843009213693952 : UInt64).toNat * 8 := by decide
  exact (outcome_error (replaySubset_error open_withEvents H5File.stores_written hmem)).1

end ReadoutMaster
