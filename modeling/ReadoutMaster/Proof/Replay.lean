/-
  Replaying a file: the two strategies, and the command.

  Both strategies perform a list of calls of `addReadout`, one for each event
  of the range; `positions` is the order in which they take the range.

  * `agree_iff`: when the two strategies agree;
  * `main_without_count`: the command, without COUNT, always fails.
-/
import ReadoutMaster.Replay
import ReadoutMaster.Proof.Files
import ReadoutMaster.Concrete

namespace ReadoutMaster

open Machine Replay

variable {R FS σ α : Type}

/-! ## Calls -/

/-- A call of `addReadout`. -/
structure AddCall (R : Type) where
  ring : UInt8
  fen : UInt8
  tof : R
  weight : R
  data : VoidPtr

/-- Perform the call on an object. -/
def AddCall.perform (addReadout : AddReadout R α) (c : AddCall R) : α :=
  addReadout c.ring c.fen c.tof c.weight c.data

/-- The call that adds the event of a row. -/
def Row.call : Row R → AddCall R
  | .caen e => e.add AddCall.mk
  | .ttlMonitor e => e.add AddCall.mk
  | .vmm3 e => e.add AddCall.mk
  | .dream e => e.add AddCall.mk

/-! ## Indexes -/

section
variable [Host] {number : UInt64} {control : UInt32}

/-- The order in which a range of `number` events is taken. -/
def positions (number : UInt64) (control : UInt32) : List UInt64 :=
  let indexes := (List.range number.toNat).map UInt64.ofNat
  if control &&& RANDOM ≠ 0 then shuffle indexes else indexes

theorem shuffle_eq {xs : List UInt64} {n : ℕ} (h : xs.length = n) :
    shuffle xs = List.ofFn fun i : Fin n => xs.get (Fin.cast h.symm (Host.shuffle n i)) := by
  subst h
  rfl

/-- The permutation depends on the length only. -/
theorem shuffle_map (f : UInt64 → UInt64) (xs : List UInt64) :
    shuffle (xs.map f) = (shuffle xs).map f := by
  rw [shuffle_eq (List.length_map f), shuffle, List.map_ofFn]
  congr 1
  funext i
  simp

theorem perm_shuffle (xs : List UInt64) : (shuffle xs).Perm xs := by
  have h : (shuffle xs).Perm (List.ofFn xs.get) :=
    Equiv.Perm.ofFn_comp_perm (Host.shuffle xs.length) xs.get
  rwa [List.ofFn_get] at h

theorem length_shuffle (xs : List UInt64) : (shuffle xs).length = xs.length :=
  (perm_shuffle xs).length_eq

theorem indexVector_error {fill : ℕ → UInt64} (h : Host.memory < number.toNat * 8) :
    indexVector number fill control = .error .badAlloc := if_pos h

theorem indexVector_ok (f : UInt64 → UInt64) (h : number.toNat * 8 ≤ Host.memory) :
    indexVector number (fun j => f (UInt64.ofNat j)) control =
      .ok ((positions number control).map f) := by
  have hmap : (List.range number.toNat).map (fun j => f (UInt64.ofNat j)) =
      ((List.range number.toNat).map UInt64.ofNat).map f := by rw [List.map_map]; rfl
  rw [indexVector, if_neg (Nat.not_lt.2 h), hmap, positions]
  split_ifs
  · exact congrArg Except.ok (shuffle_map f _)
  · rfl

theorem indexVector_ok_id (h : number.toNat * 8 ≤ Host.memory) :
    indexVector number UInt64.ofNat control = .ok (positions number control) := by
  have hid : indexVector number UInt64.ofNat control =
      .ok ((positions number control).map id) := indexVector_ok id h
  rwa [List.map_id] at hid

theorem length_positions : (positions number control).length = number.toNat := by
  unfold positions
  split_ifs
  · rw [length_shuffle, List.length_map, List.length_range]
  · rw [List.length_map, List.length_range]

theorem lt_of_mem_positions {i : UInt64} (hi : i ∈ positions number control) :
    i.toNat < number.toNat := by
  have hrange : ∀ j ∈ (List.range number.toNat).map UInt64.ofNat, j.toNat < number.toNat := by
    intro j hj
    obtain ⟨n, hn, rfl⟩ := List.mem_map.1 hj
    have hn := List.mem_range.1 hn
    rw [UInt64.toNat_ofNat', Nat.mod_eq_of_lt (hn.trans number.toNat_lt)]
    exact hn
  unfold positions at hi
  split_ifs at hi
  · obtain ⟨j, rfl⟩ := List.mem_ofFn.1 hi
    exact hrange _ (List.get_mem _ _)
  · exact hrange i hi

/-- The place in the range of the event that is taken first. -/
def firstPosition (number : UInt64) (control : UInt32) : ℕ :=
  if h : control &&& RANDOM ≠ 0 ∧ 0 < number.toNat then (Host.shuffle number.toNat ⟨0, h.2⟩).val
  else 0

theorem positions_eq_cons (control : UInt32) (h : 0 < number.toNat) :
    ∃ rest, positions number control = UInt64.ofNat (firstPosition number control) :: rest := by
  have hget : (positions number control)[0]? =
      some (UInt64.ofNat (firstPosition number control)) := by
    unfold positions firstPosition
    by_cases hc : control &&& RANDOM ≠ 0
    · have hlen : ((List.range number.toNat).map UInt64.ofNat).length = number.toNat := by simp
      simp only [hc, h, ne_eq, not_false_eq_true, if_true, and_self, dif_pos]
      rw [shuffle_eq hlen]
      simp [h]
    · simp [hc, h]
  cases hp : positions number control with
  | nil => rw [hp] at hget; cases hget
  | cons i rest =>
    rw [hp] at hget
    exact ⟨rest, by rw [← Option.some.inj hget]⟩

end

/-! ## Strategies -/

/-- Fetch an event by its index and perform its call. -/
def fetch (addReadout : AddReadout R (EStateM Exn σ Unit)) (calls : List (AddCall R)) (i : ℕ) :
    EStateM Exn σ Unit :=
  match calls[i]? with
  | some c => c.perform addReadout
  | none => throw (.runtimeError "Out of bounds event requested")

/-- The calls for the events of a reader, in order. -/
def callsOf (FS : Type) [HighFive R FS] (reader : Reader R) : List (AddCall R) :=
  reader.rows.map fun row => (asRow FS reader.readout row).call

theorem length_callsOf (FS : Type) [HighFive R FS] (reader : Reader R) :
    (callsOf FS reader).length = reader.rows.length := List.length_map _

section
variable {addReadout : AddReadout R (EStateM Exn σ Unit)} {rows : List (Row R)}
  (call : Row R → AddCall R) (read : Row R → α) {add : α → EStateM Exn σ Unit}
  {get : UInt64 → UInt64 → Except Exn (List α)}

theorem loadEvents_eq (hadd : ∀ row, add (read row) = (call row).perform addReadout)
    {first number : UInt64} {indexes : List UInt64}
    (hget : get first number =
      .ok (((rows.drop first.toNat).take number.toNat).map read))
    (hi : ∀ i ∈ indexes, i.toNat < number.toNat)
    (hn : first.toNat + number.toNat ≤ rows.length) :
    loadEvents get add first number indexes =
      indexes.forM fun i => fetch addReadout (rows.map call) (first.toNat + i.toNat) := by
  rw [loadEvents, hget]
  show (indexes.forM _ : EStateM Exn σ Unit) = _
  refine forM_congr ?_
  intro i hi'
  have hlt := hi i hi'
  have hget : (((rows.drop first.toNat).take number.toNat).map read)[i.toNat]? =
      some (read rows[first.toNat + i.toNat]) := by
    rw [List.getElem?_map, List.getElem?_take_of_lt hlt, List.getElem?_drop,
      List.getElem?_eq_getElem (by omega)]
    rfl
  have hcall : (rows.map call)[first.toNat + i.toNat]? =
      some (call rows[first.toNat + i.toNat]) := by
    rw [List.getElem?_map, List.getElem?_eq_getElem (by omega)]
    rfl
  rw [hget, fetch, hcall]
  exact hadd _

theorem loadEvents_error {e : Exn} {first number : UInt64} {indexes : List UInt64}
    (hget : get first number = .error e) (s : σ) :
    loadEvents get add first number indexes s = .error e s := by
  rw [loadEvents, hget]
  rfl

theorem chunkEvents_eq (hadd : ∀ row, add (read row) = (call row).perform addReadout)
    {indexes : List UInt64}
    (hget : ∀ i (h : i.toNat < rows.length), get i 1 = .ok [read rows[i.toNat]])
    (hout : ∀ i, rows.length ≤ i.toNat →
      get i 1 = .error (.runtimeError "Out of bounds event requested")) :
    chunkEvents get add indexes =
      indexes.forM fun i => fetch addReadout (rows.map call) i.toNat := by
  refine forM_congr ?_
  intro i _
  unfold fetch
  rcases Nat.lt_or_ge i.toNat rows.length with h | h
  · have hcall : (rows.map call)[i.toNat]? = some (call rows[i.toNat]) := by
      rw [List.getElem?_map, List.getElem?_eq_getElem h]
      rfl
    rw [hget i h, hcall]
    exact hadd _
  · rw [hout i h, List.getElem?_eq_none (by rwa [List.length_map])]
    rfl

end

section
variable [HighFive R FS] [Host] {reader : Reader R} {addReadout : AddReadout R (EStateM Exn σ Unit)}
  {first number : UInt64} {control : UInt32}

/-- The chunk-wise replay fetches the events of its vector of indexes one by
    one. -/
theorem chunkReplay_every {every : UInt64} (hr : reader.readout ≠ .MAGIC)
    (hm : number.toNat * 8 ≤ Host.memory) :
    chunkReplay FS reader addReadout first number every control =
      (positions number control).forM fun i =>
        fetch addReadout (callsOf FS reader) (first + i * every).toNat := by
  have hidx : indexVector number (fun j => first + UInt64.ofNat j * every) control =
      .ok ((positions number control).map fun i => first + i * every) :=
    indexVector_ok (fun i => first + i * every) hm
  have hone : ∀ {type m} (ht : reader.readout = type) i (h : i.toNat < reader.rows.length),
      reader.get type m i 1 = .ok [reader.rows[i.toNat]] := by
    intro type m ht i h
    have hget : reader.get type m (UInt64.ofNat i.toNat) 1 = .ok [reader.rows[i.toNat]] :=
      get_one ht h
    rwa [UInt64.ofNat_toNat] at hget
  have hmap : ((positions number control).forM fun i =>
      fetch addReadout (callsOf FS reader) (first + i * every).toNat) =
      ((positions number control).map fun i => first + i * every).forM fun i =>
        fetch addReadout (callsOf FS reader) i.toNat := by
    rw [forM_map]
  rw [chunkReplay, hidx, hmap, lift_ok_bind]
  unfold callsOf
  cases ht : reader.readout with
  | MAGIC => exact absurd ht hr
  | CAEN =>
    refine chunkEvents_eq (fun row => (asRow FS .CAEN row).call) (HighFive.asCAEN FS)
      (fun _ => rfl) (fun i h => ?_) (fun i h => ?_)
    · rw [Reader.getCAEN, hone ht i h]; rfl
    · rw [Reader.getCAEN, get_out ht h]; rfl
  | TTLMonitor =>
    refine chunkEvents_eq (fun row => (asRow FS .TTLMonitor row).call) (HighFive.asTTLMonitor FS)
      (fun _ => rfl) (fun i h => ?_) (fun i h => ?_)
    · rw [Reader.getTTLMonitor, hone ht i h]; rfl
    · rw [Reader.getTTLMonitor, get_out ht h]; rfl
  | VMM3 =>
    refine chunkEvents_eq (fun row => (asRow FS .VMM3 row).call) (HighFive.asVMM3 FS)
      (fun _ => rfl) (fun i h => ?_) (fun i h => ?_)
    · rw [Reader.getVMM3, hone ht i h]; rfl
    · rw [Reader.getVMM3, get_out ht h]; rfl
  | DREAM =>
    refine chunkEvents_eq (fun row => (asRow FS .DREAM row).call) (HighFive.asDREAM FS)
      (fun _ => rfl) (fun i h => ?_) (fun i h => ?_)
    · rw [Reader.getDREAM, hone ht i h]; rfl
    · rw [Reader.getDREAM, get_out ht h]; rfl

/-- Without a step the events of the range are fetched. -/
theorem chunkReplay_eq (hr : reader.readout ≠ .MAGIC) (hm : number.toNat * 8 ≤ Host.memory) :
    chunkReplay FS reader addReadout first number 1 control =
      (positions number control).forM fun i =>
        fetch addReadout (callsOf FS reader) (first + i).toNat := by
  rw [chunkReplay_every hr hm]
  simp only [UInt64.mul_one]

/-- Reading the range at once succeeds if the range starts and ends inside the
    dataset and fits into memory. -/
theorem loadReplay_ok (hr : reader.readout ≠ .MAGIC) (hm : number.toNat * 8 ≤ Host.memory)
    (hi : first.toNat < reader.rows.length)
    (hc : first.toNat + number.toNat ≤ reader.rows.length)
    (hs : number.toNat * sizeofEvent reader.readout ≤ Host.memory) :
    loadReplay FS reader addReadout first number control =
      (positions number control).forM fun i =>
        fetch addReadout (callsOf FS reader) (first.toNat + i.toNat) := by
  have hlt : ∀ i ∈ positions number control, i.toNat < number.toNat := fun i => lt_of_mem_positions
  rw [loadReplay, indexVector_ok_id hm, lift_ok_bind]
  unfold callsOf
  cases ht : reader.readout with
  | MAGIC => exact absurd ht hr
  | CAEN =>
    refine loadEvents_eq (fun row => (asRow FS .CAEN row).call) (HighFive.asCAEN FS)
      (fun _ => rfl) ?_ hlt hc
    rw [Reader.getCAEN, get_ok ht hi hc (ht ▸ hs)]; rfl
  | TTLMonitor =>
    refine loadEvents_eq (fun row => (asRow FS .TTLMonitor row).call) (HighFive.asTTLMonitor FS)
      (fun _ => rfl) ?_ hlt hc
    rw [Reader.getTTLMonitor, get_ok ht hi hc (ht ▸ hs)]; rfl
  | VMM3 =>
    refine loadEvents_eq (fun row => (asRow FS .VMM3 row).call) (HighFive.asVMM3 FS)
      (fun _ => rfl) ?_ hlt hc
    rw [Reader.getVMM3, get_ok ht hi hc (ht ▸ hs)]; rfl
  | DREAM =>
    refine loadEvents_eq (fun row => (asRow FS .DREAM row).call) (HighFive.asDREAM FS)
      (fun _ => rfl) ?_ hlt hc
    rw [Reader.getDREAM, get_ok ht hi hc (ht ▸ hs)]; rfl

/-- Otherwise it throws before anything is added. -/
theorem loadReplay_error (h : reader.readout = .MAGIC ∨ Host.memory < number.toNat * 8 ∨
      ¬ (first.toNat < reader.rows.length ∧ first.toNat + number.toNat ≤ reader.rows.length ∧
        number.toNat * sizeofEvent reader.readout ≤ Host.memory)) :
    ∃ e, ∀ s, loadReplay FS reader addReadout first number control s = .error e s := by
  unfold loadReplay
  rcases Nat.lt_or_ge Host.memory (number.toNat * 8) with hm | hm
  · rw [indexVector_error hm]
    exact ⟨_, fun s => rfl⟩
  rw [indexVector_ok_id hm]
  cases ht : reader.readout with
  | MAGIC => exact ⟨_, fun s => rfl⟩
  | CAEN =>
    rw [ht] at h
    obtain ⟨e, he⟩ := get_error ((h.resolve_left (by decide)).resolve_left (Nat.not_lt.2 hm))
    exact ⟨e, loadEvents_error (by rw [Reader.getCAEN, he]; rfl)⟩
  | TTLMonitor =>
    rw [ht] at h
    obtain ⟨e, he⟩ := get_error ((h.resolve_left (by decide)).resolve_left (Nat.not_lt.2 hm))
    exact ⟨e, loadEvents_error (by rw [Reader.getTTLMonitor, he]; rfl)⟩
  | VMM3 =>
    rw [ht] at h
    obtain ⟨e, he⟩ := get_error ((h.resolve_left (by decide)).resolve_left (Nat.not_lt.2 hm))
    exact ⟨e, loadEvents_error (by rw [Reader.getVMM3, he]; rfl)⟩
  | DREAM =>
    rw [ht] at h
    obtain ⟨e, he⟩ := get_error ((h.resolve_left (by decide)).resolve_left (Nat.not_lt.2 hm))
    exact ⟨e, loadEvents_error (by rw [Reader.getDREAM, he]; rfl)⟩

theorem chunkReplay_error {every : UInt64}
    (h : reader.readout = .MAGIC ∨ Host.memory < number.toNat * 8) :
    ∃ e, ∀ s, chunkReplay FS reader addReadout first number every control s = .error e s := by
  unfold chunkReplay
  rcases Nat.lt_or_ge Host.memory (number.toNat * 8) with hm | hm
  · rw [indexVector_error hm]
    exact ⟨_, fun s => rfl⟩
  · have hr := h.resolve_right (Nat.not_lt.2 hm)
    rw [hr, indexVector, if_neg (Nat.not_lt.2 hm)]
    exact ⟨_, fun s => rfl⟩

end

/-! ## Agreement -/

/-- The method of an object that also notes the calls made. -/
def logged (addReadout : AddReadout R (EStateM Exn σ Unit)) :
    AddReadout R (EStateM Exn (σ × List (AddCall R)) Unit) :=
  fun ring fen tof weight data (s, calls) =>
    let calls := calls ++ [⟨ring, fen, tof, weight, data⟩]
    match addReadout ring fen tof weight data s with
    | .ok () s => .ok () (s, calls)
    | .error e s => .error e (s, calls)

/-- On an object in the state `s` the two strategies make the same calls, and
    one throws iff the other does. -/
def Agree (FS : Type) [HighFive R FS] [Host] (reader : Reader R)
    (addReadout : AddReadout R (EStateM Exn σ Unit)) (first number : UInt64) (control : UInt32)
    (s : σ) : Prop :=
  let load := loadReplay FS reader (logged addReadout) first number control
  let chunk := chunkReplay FS reader (logged addReadout) first number 1 control
  (final load (s, [])).2 = (final chunk (s, [])).2 ∧ (Returns load (s, []) ↔ Returns chunk (s, []))

/-- Neither strategy can start; or the range is empty, and starts inside the
    dataset; or it is inside the dataset and fits into memory; or the event
    that is taken first is not in the dataset. -/
def Interchangeable [Host] (reader : Reader R) (first number : UInt64) (control : UInt32) : Prop :=
  reader.readout = .MAGIC ∨ Host.memory < number.toNat * 8 ∨
    (number.toNat = 0 ∧ first.toNat < reader.rows.length) ∨
    (0 < number.toNat ∧
      (first.toNat + number.toNat ≤ reader.rows.length ∧
          number.toNat * sizeofEvent reader.readout ≤ Host.memory ∨
        reader.rows.length ≤ (first + UInt64.ofNat (firstPosition number control)).toNat))

theorem calls_logged {addReadout : AddReadout R (EStateM Exn σ Unit)} (c : AddCall R)
    (t : σ × List (AddCall R)) :
    (final (c.perform (logged addReadout)) t).2 = t.2 ++ [c] := by
  rcases t with ⟨s, calls⟩
  cases h : addReadout c.ring c.fen c.tof c.weight c.data s with
  | ok _ s => simp only [final, AddCall.perform, logged, h]
  | error e s => simp only [final, AddCall.perform, logged, h]

theorem fetch_of_lt {addReadout : AddReadout R (EStateM Exn σ Unit)} {calls : List (AddCall R)}
    {i : ℕ} (h : i < calls.length) : fetch addReadout calls i = calls[i].perform addReadout := by
  rw [fetch, List.getElem?_eq_getElem h]

theorem fetch_of_ge {addReadout : AddReadout R (EStateM Exn σ Unit)} {calls : List (AddCall R)}
    {i : ℕ} (h : calls.length ≤ i) :
    fetch addReadout calls i = throw (.runtimeError "Out of bounds event requested") := by
  rw [fetch, List.getElem?_eq_none h]

/-- A loop that begins with an event that can be fetched makes a call. -/
theorem calls_ne_nil {addReadout : AddReadout R (EStateM Exn σ Unit)} {calls : List (AddCall R)}
    (index : UInt64 → ℕ) {i : UInt64} {is : List UInt64} (h : index i < calls.length) (s : σ) :
    (final ((i :: is).forM fun i => fetch (logged addReadout) calls (index i)) (s, [])).2 ≠ [] := by
  let Inv : σ × List (AddCall R) → Prop := fun t => t.2 ≠ []
  refine final_bind (P := Inv) ?_ fun _ t _ ht => forM_inv (fun j _ t ht => ?_) ht
  · show (final (fetch (logged addReadout) calls (index i)) (s, [])).2 ≠ []
    rw [fetch_of_lt h, calls_logged]
    exact List.cons_ne_nil _ _
  · show (final (fetch (logged addReadout) calls (index j)) t).2 ≠ []
    rcases Nat.lt_or_ge (index j) calls.length with hj | hj
    · rw [fetch_of_lt hj, calls_logged]
      exact List.append_ne_nil_of_left_ne_nil ht _
    · rw [fetch_of_ge hj]
      exact ht

section
variable [HighFive R FS] [Host] {reader : Reader R} {addReadout : AddReadout R (EStateM Exn σ Unit)}
  {first number : UInt64} {control : UInt32}

/-- A range that is inside the dataset and fits into memory is replayed by
    both strategies in the same way. -/
theorem loadReplay_eq_chunkReplay (hr : reader.readout ≠ .MAGIC)
    (hm : number.toNat * 8 ≤ Host.memory) (hi : first.toNat < reader.rows.length)
    (hc : first.toNat + number.toNat ≤ reader.rows.length)
    (hs : number.toNat * sizeofEvent reader.readout ≤ Host.memory) :
    loadReplay FS reader addReadout first number control =
      chunkReplay FS reader addReadout first number 1 control := by
  rw [loadReplay_ok hr hm hi hc hs, chunkReplay_eq hr hm]
  refine forM_congr ?_
  intro i hi
  have hlt := lt_of_mem_positions hi
  have hrows := length_rows_lt reader
  rw [UInt64.toNat_add, Nat.mod_eq_of_lt (by omega)]

theorem agree_of_eq (s : σ) (h : loadReplay FS reader (logged addReadout) first number control =
      chunkReplay FS reader (logged addReadout) first number 1 control) :
    Agree FS reader addReadout first number control s := by
  unfold Agree
  rw [h]
  exact ⟨rfl, Iff.rfl⟩

/-- Strategies that throw before they add anything agree. -/
theorem agree_of_throw (s : σ)
    (hl : ∃ e, ∀ t, loadReplay FS reader (logged addReadout) first number control t = .error e t)
    (hc : ∃ e, ∀ t,
      chunkReplay FS reader (logged addReadout) first number 1 control t = .error e t) :
    Agree FS reader addReadout first number control s := by
  obtain ⟨e, hl⟩ := hl
  obtain ⟨e', hc⟩ := hc
  refine ⟨?_, iff_of_false (not_returns_of_error (hl _)) (not_returns_of_error (hc _))⟩
  rw [final_of_error (hl _), final_of_error (hc _)]

/-- The empty range. -/
theorem agree_iff_empty (s : σ) (hr : reader.readout ≠ .MAGIC) (hm : number.toNat * 8 ≤ Host.memory)
    (hz : number.toNat = 0) :
    Agree FS reader addReadout first number control s ↔ first.toNat < reader.rows.length := by
  have hnil : positions number control = [] := by
    refine List.eq_nil_of_length_eq_zero ?_
    rw [length_positions, hz]
  constructor
  · rintro ⟨-, h⟩
    by_contra hi
    obtain ⟨e, he⟩ : ∃ e, ∀ t,
        loadReplay FS reader (logged addReadout) first number control t = .error e t :=
      loadReplay_error (Or.inr (Or.inr fun h => hi h.1))
    refine not_returns_of_error (he (s, [])) (h.2 ?_)
    rw [chunkReplay_eq hr hm, hnil]
    exact ⟨(), _, rfl⟩
  · intro hi
    have hzero : number.toNat * sizeofEvent reader.readout ≤ Host.memory := by
      rw [hz, Nat.zero_mul]
      exact Nat.zero_le _
    exact agree_of_eq s (loadReplay_eq_chunkReplay hr hm hi (by omega) hzero)

/-- A range with an event that is taken first. -/
theorem agree_iff_range (s : σ) (hr : reader.readout ≠ .MAGIC) (hm : number.toNat * 8 ≤ Host.memory)
    (hpos : 0 < number.toNat) :
    Agree FS reader addReadout first number control s ↔
      first.toNat + number.toNat ≤ reader.rows.length ∧
          number.toNat * sizeofEvent reader.readout ≤ Host.memory ∨
        reader.rows.length ≤ (first + UInt64.ofNat (firstPosition number control)).toNat := by
  by_cases hfit : first.toNat + number.toNat ≤ reader.rows.length ∧
      number.toNat * sizeofEvent reader.readout ≤ Host.memory
  · exact iff_of_true
      (agree_of_eq s (loadReplay_eq_chunkReplay hr hm (by omega) hfit.1 hfit.2)) (Or.inl hfit)
  have hload : ∃ e, ∀ t,
      loadReplay FS reader (logged addReadout) first number control t = .error e t :=
    loadReplay_error (Or.inr (Or.inr fun h => hfit h.2))
  obtain ⟨is, his⟩ := positions_eq_cons control hpos
  rcases Nat.lt_or_ge (first + UInt64.ofNat (firstPosition number control)).toNat
    reader.rows.length with hfirst | hfirst
  · -- the chunk-wise replay makes a call, the other none
    refine iff_of_false ?_ (by omega)
    rintro ⟨hcalls, -⟩
    obtain ⟨e, he⟩ := hload
    rw [final_of_error (he _), chunkReplay_eq hr hm, his] at hcalls
    exact calls_ne_nil (fun i => (first + i).toNat) (by rwa [length_callsOf]) s hcalls.symm
  · refine iff_of_true ?_ (Or.inr hfirst)
    refine agree_of_throw s hload ⟨.runtimeError "Out of bounds event requested", ?_⟩
    intro t
    rw [chunkReplay_eq hr hm, his]
    refine bind_of_error ?_
    show fetch _ _ (first + UInt64.ofNat (firstPosition number control)).toNat t = _
    rw [fetch_of_ge (by rwa [length_callsOf])]
    rfl

/-- **The two strategies** agree exactly on the ranges that make them
    interchangeable. -/
theorem agree_iff (s : σ) :
    Agree FS reader addReadout first number control s ↔
      Interchangeable reader first number control := by
  unfold Interchangeable
  by_cases hstart : reader.readout = .MAGIC ∨ Host.memory < number.toNat * 8
  · -- neither starts
    have hload : ∃ e, ∀ t,
        loadReplay FS reader (logged addReadout) first number control t = .error e t :=
      loadReplay_error (hstart.imp_right Or.inl)
    exact iff_of_true (agree_of_throw s hload (chunkReplay_error hstart))
      (hstart.imp_right Or.inl)
  obtain ⟨hr, hm⟩ := not_or.1 hstart
  have hm := Nat.not_lt.1 hm
  simp only [hr, Nat.not_lt.2 hm, false_or]
  rcases Nat.eq_zero_or_pos number.toNat with hz | hpos
  · rw [agree_iff_empty s hr hm hz]
    omega
  · rw [agree_iff_range s hr hm hpos]
    omega

end

/-- More events than there are: one strategy adds the event that is there and
    throws, the other throws at once. -/
theorem strategies_differ :
    ¬ Agree (Disk ℚ) ⟨some oneEvent, .LOKI, .CAEN⟩ Readout.addReadout 0 2 SEQUENTIAL
      (atTen .LOKI) := by
  rintro ⟨hcalls, -⟩
  exact absurd (congrArg List.length hcalls) (by decide +kernel)

/-! ## The command -/

theorem outcome_error {out : Outcome R FS} {P : World R FS → Prop}
    (h : ∃ e world, out = ⟨.error e, world⟩ ∧ ∀ w, world = some w → P w) :
    (∃ e, out.result = .error e) ∧ ∀ w, out.world = some w → P w := by
  obtain ⟨e, world, rfl, hworld⟩ := h
  exact ⟨⟨e, rfl⟩, hworld⟩

/-- A body that throws at once leaves a `Readout` as it was made. -/
theorem withReadout_error {d : DetectorType} {clock : UInt64} {fs : FS}
    {socket : ℕ → SendResult} {draws : ℕ → Draw} {body : Prog R FS Unit}
    (h : ∀ w, ∃ e, body w = .error e w) :
    ∃ e world, withReadout d clock fs socket draws body = ⟨.error e, world⟩ ∧
      ∀ w, world = some w →
        Readout.make d.code.toNat ⟨1, 0⟩ (EfuTime.now clock) fs socket draws = .ok w := by
  unfold withReadout
  cases hw : Readout.make (R := R) d.code.toNat ⟨1, 0⟩ (EfuTime.now clock) fs socket draws with
  | error e => exact ⟨e, none, rfl, fun w h => (by cases h)⟩
  | ok w =>
    obtain ⟨e, he⟩ := h w
    simp only [he]
    exact ⟨e, some w, rfl, fun v hv => congrArg _ (Option.some.inj hv)⟩

section
variable [HighFive R FS] [CDouble R] [Host]

/-- The command hands every event of the file to `addReadout` once, in the
    order of the file if it is to be sequential, and terminates normally. -/
def ReplaysFile (o : Options) (clock : UInt64) (fs : FS) (socket : ℕ → SendResult)
    (draws : ℕ → Draw) : Prop :=
  ∃ (reader : Reader R) (w : World R FS) (calls : List (AddCall R)),
    Reader.make fs o.filename = .ok reader ∧
    Readout.make reader.detector.code.toNat ⟨1, 0⟩ (EfuTime.now clock) fs socket draws = .ok w ∧
    calls.Perm (callsOf FS reader) ∧ (o.sequential = true → calls = callsOf FS reader) ∧
    (Replay.main o clock fs socket draws : Outcome R FS) = ⟨.ok (), some (final Readout.destroy
      (run (AddCall.perform Readout.addReadout) w calls))⟩

variable {o : Options} {clock : UInt64} {fs : FS} {socket : ℕ → SendResult} {draws : ℕ → Draw}
  {f : H5File R} {name : String} {d : DetectorType} {r : ReadoutType} {ds : DataSet R}

/-- A subset of more events than there is memory for indexes: the replay
    throws before any event is added. -/
theorem replaySubset_error {filename : String} {first number every : UInt64} {control : UInt32}
    (hf : HighFive.openReadOnly fs filename = some f) (hs : f.Stores name d r ds)
    (hm : Host.memory < number.toNat * 8) :
    ∃ e world, (replaySubset filename first number every control clock fs socket draws :
        Outcome R FS) = ⟨.error e, world⟩ ∧
      ∀ w, world = some w →
        Readout.make d.code.toNat ⟨1, 0⟩ (EfuTime.now clock) fs socket draws = .ok w := by
  have hread : Reader.make fs filename = .ok ⟨some ds, d, r⟩ := by
    rw [Reader.make, hf]
    exact ofFile_of_stores hs
  simp only [replaySubset, hread]
  refine withReadout_error ?_
  intro w
  cases loadable r number with
  | error e => exact ⟨e, rfl⟩
  | ok b =>
    rw [lift_ok_bind]
    split_ifs
    · have hload : ∃ e, ∀ w : World R FS, loadReplay FS ⟨some ds, d, r⟩ Readout.addReadout first
          number control w = .error e w := loadReplay_error (Or.inr (Or.inl hm))
      obtain ⟨e, he⟩ := hload
      exact ⟨e, he w⟩
    · have hchunk : ∃ e, ∀ w : World R FS, chunkReplay FS ⟨some ds, d, r⟩ Readout.addReadout first
          number every control w = .error e w := chunkReplay_error (Or.inr hm)
      obtain ⟨e, he⟩ := hchunk
      exact ⟨e, he w⟩

/-- So does the replay of a whole file that has more events than that. -/
theorem replayAll_error {filename : String} {control : UInt32}
    (hf : HighFive.openReadOnly fs filename = some f) (hs : f.Stores name d r ds)
    (hm : Host.memory < ds.rows.length * 8) :
    ∃ e world, (replayAll filename control clock fs socket draws : Outcome R FS) =
        ⟨.error e, world⟩ ∧
      ∀ w, world = some w →
        Readout.make d.code.toNat ⟨1, 0⟩ (EfuTime.now clock) fs socket draws = .ok w := by
  have hread : Reader.make fs filename = .ok ⟨some ds, d, r⟩ := by
    rw [Reader.make, hf]
    exact ofFile_of_stores hs
  have hsize : (Reader.size ⟨some ds, d, r⟩).toNat = ds.rows.length := toNat_size _
  rw [← hsize] at hm
  simp only [replayAll, hread]
  refine withReadout_error ?_
  intro w
  cases loadable r (Reader.size ⟨some ds, d, r⟩) with
  | error e => exact ⟨e, rfl⟩
  | ok b =>
    rw [lift_ok_bind]
    split_ifs
    · have hload : ∃ e, ∀ w : World R FS, loadReplay FS ⟨some ds, d, r⟩ Readout.addReadout 0
          (Reader.size ⟨some ds, d, r⟩) control w = .error e w :=
        loadReplay_error (Or.inr (Or.inl hm))
      obtain ⟨e, he⟩ := hload
      exact ⟨e, he w⟩
    · have hchunk : ∃ e, ∀ w : World R FS, chunkReplay FS ⟨some ds, d, r⟩ Readout.addReadout 0
          (Reader.size ⟨some ds, d, r⟩) 1 control w = .error e w := chunkReplay_error (Or.inr hm)
      obtain ⟨e, he⟩ := hchunk
      exact ⟨e, he w⟩

/-- **The command without COUNT** throws before any event is added, whatever
    FIRST, EVERY and the playback mode: the -1 that stands for all events is a
    number of events that no vector can hold.  The `Readout`, if one is made,
    is left as it was made. -/
theorem main_without_count (hc : o.count = none)
    (hf : HighFive.openReadOnly fs o.filename = some f) (hs : f.Stores name d r ds) :
    ¬ ReplaysFile o clock fs socket draws ∧
      let out : Outcome R FS := Replay.main o clock fs socket draws
      (∃ e, out.result = .error e) ∧ ∀ w, out.world = some w →
        Readout.make d.code.toNat ⟨1, 0⟩ (EfuTime.now clock) fs socket draws = .ok w := by
  have hcount : (-1 : Int32).toInt64.toUInt64.toNat = 2 ^ 64 - 1 := by decide
  have hmem := Host.memory_lt
  have hmain : (∃ e, (Replay.main o clock fs socket draws : Outcome R FS).result = .error e) ∧
      ∀ w, (Replay.main o clock fs socket draws : Outcome R FS).world = some w →
        Readout.make d.code.toNat ⟨1, 0⟩ (EfuTime.now clock) fs socket draws = .ok w := by
    unfold Replay.main
    simp only [hc, Option.getD_none]
    rw [if_pos (by decide)]
    exact outcome_error (replaySubset_error hf hs (by rw [hcount]; omega))
  refine ⟨?_, hmain⟩
  rintro ⟨reader, w, calls, -, -, -, -, hout⟩
  obtain ⟨⟨e, he⟩, -⟩ := hmain
  rw [hout] at he
  cases he

end

theorem main_without_count_oneEvent :
    ¬ ReplaysFile ⟨false, true, none, some 3, some 2, "in.h5"⟩ 10000000000 Disk.withEvent
      openSocket ones :=
  (main_without_count rfl rfl H5File.stores_written).1

/-- A file of one event is not replayed. -/
theorem replay_fails :
    ¬ ReplaysFile ⟨true, false, none, none, none, "in.h5"⟩ 10000000000 Disk.withEvent openSocket
      ones := by
  rintro ⟨reader, w, calls, -, -, -, -, hout⟩
  have hfail : (Replay.main ⟨true, false, none, none, none, "in.h5"⟩ 10000000000
      Disk.withEvent openSocket ones).result = .error .badAlloc := by rfl
  rw [hout] at hfail
  cases hfail

end ReadoutMaster
