/-
  Reading ranges of events.

  The checks of the four `get` methods add up the index and the count in 64
  bits, and ask for an index inside the dataset even if no event is wanted
  (`passes_iff`).

  * `ranges_iff`: the ranges for which they are exact, and the files whose
    events the `all` methods return.
-/
import ReadoutMaster.Proof.Files
import ReadoutMaster.Concrete

namespace ReadoutMaster

variable {R FS α β : Type}

/-! ## Exact access -/

/-- What the failed bounds checks throw. -/
def outOfBounds : Exn := .runtimeError "Out of bounds event requested"

/-- The vector of these events does not fit into memory, and is not made. -/
def NoRoom [Host] (bytes : ℕ) (result : Except Exn (List α)) : Prop :=
  Host.memory < bytes ∧ result = .error .badAlloc

/-- A method `get` on a file of these events, each of `size` bytes, is exact at
    a range: the checks pass iff the range is inside the file, and then the
    method returns the events of the range. -/
def ExactAt [Host] (get : UInt64 → UInt64 → Except Exn (List α)) (size : ℕ) (events : List α)
    (index count : UInt64) : Prop :=
  (get index count ≠ .error outOfBounds ↔ index.toNat + count.toNat ≤ events.length) ∧
    (get index count ≠ .error outOfBounds →
      get index count = .ok ((events.drop index.toNat).take count.toNat) ∨
        NoRoom (count.toNat * size) (get index count))

/-- A method `all` returns all the events. -/
def ReturnsAll [Host] (all : Except Exn (List α)) (size : ℕ) (events : List α) : Prop :=
  all = .ok events ∨ NoRoom (events.length * size) all

/-- The range is not the empty one at the end of the `n` events, nor one that
    starts before it and wraps. -/
def Regular (n index count : ℕ) : Prop :=
  ¬ (index = n ∧ count = 0) ∧ ¬ (index < n ∧ 2 ^ 64 ≤ index + count)

instance (n index count : ℕ) : Decidable (Regular n index count) :=
  inferInstanceAs (Decidable (_ ∧ _))

/-- The reader of a file of these events. -/
structure Reads (reader : Reader R) (type : ReadoutType) (row : α → Row R) (events : List α) :
    Prop where
  readout : reader.readout = type
  rows : reader.rows = events.map row

/-! ## The checks -/

/-- The checks are right about a range iff it is regular. -/
theorem regular_iff {n index count : ℕ} (hi : index < 2 ^ 64) (hc : count < 2 ^ 64)
    (hn : n < 2 ^ 64) :
    ((index < n ∧ (index + count) % 2 ^ 64 ≤ n) ↔ index + count ≤ n) ↔ Regular n index count := by
  unfold Regular
  rcases Nat.lt_or_ge (index + count) (2 ^ 64) with h | h
  · rw [Nat.mod_eq_of_lt h]
    omega
  · have hmod : (index + count) % 2 ^ 64 = index + count - 2 ^ 64 := by omega
    rw [hmod]
    omega

theorem map_ne_error (f : α → β) (x : Except Exn α) (e : Exn) :
    x.map f ≠ .error e ↔ x ≠ .error e := by
  cases x with
  | error e' => simp [Except.map]
  | ok a => simp [Except.map]

section
variable [Host] {reader : Reader R} {type : ReadoutType} {mismatch : String}
  {index count : UInt64}

/-- The checks that are made. -/
theorem passes_iff (ht : reader.readout = type) :
    reader.get type mismatch index count ≠ .error outOfBounds ↔
      index.toNat < reader.rows.length ∧
        (index.toNat + count.toNat) % 2 ^ 64 ≤ reader.rows.length := by
  have hsize := toNat_size reader
  have hi : index ≥ reader.size ↔ ¬ index.toNat < reader.rows.length := by
    rw [ge_iff_le, UInt64.le_iff_toNat_le, hsize, Nat.not_lt]
  have hc : index + count > reader.size ↔
      ¬ (index.toNat + count.toNat) % 2 ^ 64 ≤ reader.rows.length := by
    rw [gt_iff_lt, UInt64.lt_iff_toNat_lt, hsize, UInt64.toNat_add, Nat.not_le]
  rw [Reader.get, if_neg (not_not.2 ht)]
  split_ifs with h1 h2 h3
  · exact iff_of_false (fun h => h rfl) fun h => hi.1 h1 h.1
  · exact iff_of_false (fun h => h rfl) fun h => hc.1 h2 h.2
  · refine iff_of_true (by rintro ⟨⟩) ⟨not_not.1 (mt hi.2 h1), not_not.1 (mt hc.2 h2)⟩
  · refine iff_of_true ?_ ⟨not_not.1 (mt hi.2 h1), not_not.1 (mt hc.2 h2)⟩
    -- what is left either reads the selection or throws something else
    cases reader.dataset with
    | none => rintro ⟨⟩
    | some ds =>
      show (if _ then _ else _) ≠ _
      split_ifs
      · rintro ⟨⟩
      · rintro ⟨⟩

/-- A range inside the dataset that does not fit into memory. -/
theorem get_badAlloc (ht : reader.readout = type) (hi : index.toNat < reader.rows.length)
    (hc : index.toNat + count.toNat ≤ reader.rows.length)
    (hm : Host.memory < count.toNat * sizeofEvent type) :
    reader.get type mismatch index count = .error .badAlloc := by
  have hlt := length_rows_lt reader
  have hsize := toNat_size reader
  have h1 : ¬ index ≥ reader.size := by
    rw [ge_iff_le, UInt64.le_iff_toNat_le, hsize]; omega
  have h2 : ¬ index + count > reader.size := by
    rw [gt_iff_lt, UInt64.lt_iff_toNat_lt, hsize, UInt64.toNat_add]; omega
  rw [Reader.get, if_neg (not_not.2 ht), if_neg h1, if_neg h2, if_pos hm]

variable {read : Row R → α} {events : List α}

/-- The method of a readout type is exact at a range iff this is regular. -/
theorem exactAt_iff (ht : reader.readout = type) (he : reader.rows.map read = events) :
    ExactAt (fun index count => (reader.get type mismatch index count).map (List.map read))
        (sizeofEvent type) events index count ↔
      Regular events.length index.toNat count.toNat := by
  have hlen : events.length = reader.rows.length := by rw [← he, List.length_map]
  have hlt := length_rows_lt reader
  have hregular := regular_iff index.toNat_lt count.toNat_lt hlt
  rw [ExactAt, map_ne_error, passes_iff ht, hlen, hregular]
  refine and_iff_left_of_imp ?_
  rintro hr ⟨hi, hsum⟩
  have hc : index.toNat + count.toNat ≤ reader.rows.length := (hregular.2 hr).1 ⟨hi, hsum⟩
  rcases Nat.lt_or_ge Host.memory (count.toNat * sizeofEvent type) with hm | hm
  · exact Or.inr ⟨hm, by rw [get_badAlloc ht hi hc hm]; rfl⟩
  · refine Or.inl ?_
    rw [get_ok ht hi hc hm, ← he, ← List.map_drop, ← List.map_take]
    rfl

/-- All events are returned iff there is one. -/
theorem returnsAll_iff (ht : reader.readout = type) (he : reader.rows.map read = events) :
    ReturnsAll ((reader.get type mismatch 0 reader.size).map (List.map read)) (sizeofEvent type)
      events ↔ events ≠ [] := by
  have hlen : events.length = reader.rows.length := by rw [← he, List.length_map]
  have hsize := toNat_size reader
  rcases Nat.eq_zero_or_pos reader.rows.length with hz | hpos
  · have hnil : events = [] := List.eq_nil_of_length_eq_zero (hlen.trans hz)
    have hout : reader.get type mismatch 0 reader.size = .error outOfBounds :=
      get_out ht (Nat.le_of_eq hz)
    refine iff_of_false ?_ (not_not.2 hnil)
    rw [hout]
    rintro (h | ⟨-, h⟩)
    · cases h
    · cases h
  · have hi : (0 : UInt64).toNat < reader.rows.length := hpos
    have hc : (0 : UInt64).toNat + reader.size.toNat ≤ reader.rows.length := by
      rw [hsize, UInt64.toNat_zero, Nat.zero_add]
    refine iff_of_true ?_ (List.ne_nil_of_length_pos (hlen ▸ hpos))
    rcases Nat.lt_or_ge Host.memory (reader.size.toNat * sizeofEvent type) with hm | hm
    · refine Or.inr ⟨by rwa [hlen, ← hsize], ?_⟩
      rw [get_badAlloc ht hi hc hm]
      rfl
    · refine Or.inl ?_
      rw [get_ok ht hi hc hm, hsize, UInt64.toNat_zero, List.drop_zero, List.take_length]
      exact congrArg Except.ok he

end

/-! ## The methods -/

theorem Reads.map_rows {reader : Reader R} {type : ReadoutType} {row : α → Row R}
    {events : List α} {read : Row R → α} (h : Reads reader type row events)
    (hread : ∀ e, read (row e) = e) : reader.rows.map read = events := by
  rw [h.rows, List.map_map, show read ∘ row = id from funext hread, List.map_id]

/-- **Ranges.**  Each of the four `get` methods is exact at a range of a file of
    its type iff the range is regular, and each of the `all` methods returns all
    events iff there is one. -/
theorem ranges_iff (FS : Type) [HighFive R FS] [Host] (reader : Reader R) :
    (∀ events : List (CAENEvent R), Reads reader .CAEN .caen events →
        (∀ index count, ExactAt (reader.getCAEN FS) 40 events index count ↔
          Regular events.length index.toNat count.toNat) ∧
        (ReturnsAll (reader.allCAEN FS) 40 events ↔ events ≠ [])) ∧
      (∀ events : List (TTLMonitorEvent R), Reads reader .TTLMonitor .ttlMonitor events →
        (∀ index count, ExactAt (reader.getTTLMonitor FS) 32 events index count ↔
          Regular events.length index.toNat count.toNat) ∧
        (ReturnsAll (reader.allTTLMonitor FS) 32 events ↔ events ≠ [])) ∧
      (∀ events : List (VMM3Event R), Reads reader .VMM3 .vmm3 events →
        (∀ index count, ExactAt (reader.getVMM3 FS) 32 events index count ↔
          Regular events.length index.toNat count.toNat) ∧
        (ReturnsAll (reader.allVMM3 FS) 32 events ↔ events ≠ [])) ∧
      ∀ events : List (DREAMEvent R), Reads reader .DREAM .dream events →
        (∀ index count, ExactAt (reader.getDREAM FS) 32 events index count ↔
          Regular events.length index.toNat count.toNat) ∧
        (ReturnsAll (reader.allDREAM FS) 32 events ↔ events ≠ []) := by
  refine ⟨?_, ?_, ?_, ?_⟩
  · intro events h
    have he : reader.rows.map (HighFive.asCAEN FS) = events := h.map_rows HighFive.asCAEN_caen
    exact ⟨fun _ _ => exactAt_iff h.readout he, returnsAll_iff h.readout he⟩
  · intro events h
    have he : reader.rows.map (HighFive.asTTLMonitor FS) = events :=
      h.map_rows HighFive.asTTLMonitor_ttlMonitor
    exact ⟨fun _ _ => exactAt_iff h.readout he, returnsAll_iff h.readout he⟩
  · intro events h
    have he : reader.rows.map (HighFive.asVMM3 FS) = events := h.map_rows HighFive.asVMM3_vmm3
    exact ⟨fun _ _ => exactAt_iff h.readout he, returnsAll_iff h.readout he⟩
  · intro events h
    have he : reader.rows.map (HighFive.asDREAM FS) = events := h.map_rows HighFive.asDREAM_dream
    exact ⟨fun _ _ => exactAt_iff h.readout he, returnsAll_iff h.readout he⟩

/-- A reader of some events of a LOKI detector. -/
def caenReader (events : List (CAENEvent ℚ)) (h : (events.map Row.caen).length < 2 ^ 64) :
    Reader ℚ :=
  ⟨some (.written .LOKI .CAEN (events.map .caen) h), .LOKI, .CAEN⟩

theorem reads_caenReader {events : List (CAENEvent ℚ)}
    {h : (events.map Row.caen).length < 2 ^ 64} :
    Reads (caenReader events h) .CAEN .caen events := ⟨rfl, rfl⟩

/-- Two events. -/
def twoEvents : List (CAENEvent ℚ) :=
  [⟨⟨1, 2, 1 / 100, 1⟩, 3, 4, 5, 6, 7⟩, ⟨⟨1, 2, 1 / 50, 1⟩, 3, 4, 5, 6, 7⟩]

/-- The second of two events, and both. -/
theorem ranges_iff_twoEvents :
    ExactAt ((caenReader twoEvents (by decide)).getCAEN (Disk ℚ)) 40 twoEvents 1 1 ∧
      ReturnsAll ((caenReader twoEvents (by decide)).allCAEN (Disk ℚ)) 40 twoEvents := by
  obtain ⟨hget, hall⟩ := (ranges_iff (Disk ℚ) (caenReader twoEvents (by decide))).1
    twoEvents reads_caenReader
  exact ⟨(hget 1 1).2 (by decide), hall.2 (by decide)⟩

/-- No events cannot be read, neither from an empty file nor from the end of
    one; and a count that wraps passes the checks. -/
theorem empty_not_read :
    (caenReader [] (by decide)).allCAEN (Disk ℚ) = .error outOfBounds ∧
      (caenReader twoEvents (by decide)).getCAEN (Disk ℚ) 2 0 = .error outOfBounds ∧
      (caenReader twoEvents (by decide)).getCAEN (Disk ℚ) 1 (2 ^ 64 - 1) = .error .badAlloc ∧
      ¬ ExactAt ((caenReader twoEvents (by decide)).getCAEN (Disk ℚ)) 40 twoEvents 2 0 ∧
      ¬ ExactAt ((caenReader twoEvents (by decide)).getCAEN (Disk ℚ)) 40 twoEvents 1
        (2 ^ 64 - 1) := by
  have hwrap : (caenReader twoEvents (by decide)).getCAEN (Disk ℚ) 1 (2 ^ 64 - 1) =
      .error .badAlloc := by decide +kernel
  refine ⟨rfl, rfl, hwrap, ?_, ?_⟩
  · rintro ⟨h, -⟩
    exact h.2 (by decide) rfl
  · rintro ⟨h, -⟩
    have hne : (caenReader twoEvents (by decide)).getCAEN (Disk ℚ) 1 (2 ^ 64 - 1) ≠
        .error outOfBounds := by
      rw [hwrap]
      rintro ⟨⟩
    have hlong : ¬ (1 : UInt64).toNat + (2 ^ 64 - 1 : UInt64).toNat ≤ twoEvents.length := by
      decide +kernel
    exact hlong (h.1 hne)

end ReadoutMaster
