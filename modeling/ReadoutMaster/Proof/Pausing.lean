/-
  What pausing the network does to the readouts waiting in the buffer.

  While the network is disabled `send` keeps the packet under construction, but
  `update_time` begins a new one all the same.  `pausing_iff`: every readout
  placed in the buffer is sent exactly once iff nothing is pending whenever
  `update_time` completes with the network disabled.
-/
import ReadoutMaster.Proof.Delivery

namespace ReadoutMaster

open Readout Machine

variable {R FS : Type}

/-- The calls between the creation and the last call. -/
def Call.Pausing : Call R → Prop
  | .add .. | .setPulseTime _ | .send | .disableNetwork | .enableNetwork => True
  | _ => False

instance (call : Call R) : Decidable call.Pausing :=
  match call with
  | .add .. | .setPulseTime _ | .send | .disableNetwork | .enableNetwork => .isTrue trivial
  | .newPacket | .verbose _ | .dumpTo _ | .destroy => .isFalse id

/-- The network is enabled, or the reading of the call is too early, or nothing
    is pending. -/
def Call.Keeps (w : World R FS) (call : Call R) : Prop :=
  ∀ clock ∈ call.clock, w.obj.network = true ∨ (EfuTime.now clock).val < w.obj.time.val ∨
    w.obj.dataSize = 30

instance (w : World R FS) (call : Call R) : Decidable (call.Keeps w) :=
  match h : call.clock with
  | none => .isTrue (by simp [Call.Keeps, h])
  | some clock =>
    decidable_of_iff (w.obj.network = true ∨ (EfuTime.now clock).val < w.obj.time.val ∨
      w.obj.dataSize = 30) (by simp [Call.Keeps, h])

/-- Every datagram encodes its packet, and the records of the datagrams are
    those of the list, each as often as there. -/
structure Delivers (w : World R FS) (rs : List Record) : Prop where
  encodes : ∀ s ∈ w.trace.sent, ∃ p, s.Encodes w.obj.type p
  perm : ((w.trace.sent.map Sent.records).flatten).Perm rs

section
variable [CDouble R]

/-- The records a `readout_add` places in the buffer of an enabled network: as
    many copies as are drawn, for the reference time `update_time` leaves. -/
def Call.placed (w : World R FS) : Call R → List Record
  | .add clock ring fen tof weight data =>
    if w.obj.network = false then []
    else match updateTime clock w with
      | .ok () v =>
        (recordOf v.obj.type ring fen (CDouble.toEfu tof + v.obj.time) data).toList.flatMap
          (List.replicate (copiesOf v.obj.randomEngine weight))
      | .error _ _ => []
  | _ => []

variable [HighFive R FS] [Host]

/-- The records the calls of a run place in the buffer. -/
def placed : World R FS → List (Call R) → List Record
  | _, [] => []
  | w, call :: calls => call.placed w ++ placed (final (step call) w) calls

/-- What the calls of a run keep. -/
structure Pausable (P : EfuTime) (w : World R FS) : Prop where
  wire : Wire w
  clocked : Clocked P w
  writer : w.obj.writer = none

/-! ## Steps -/

section
variable {P : EfuTime} {w : World R FS}

omit [CDouble R] [HighFive R FS] [Host] in
theorem records_eq_nil_iff (h : Wire w) : w.records = [] ↔ w.obj.dataSize = 30 := by
  have hd := h.dataSize
  constructor
  · intro hr
    rw [hd, hr]
    rfl
  · intro hs
    cases hr : w.records with
    | nil => rfl
    | cons r rs =>
      have hpos := r.size_pos
      rw [hr, Record.encAll, List.map_cons, List.flatten_cons, List.length_append,
        Record.length_enc] at hd
      omega

omit [CDouble R] [HighFive R FS] [Host] in
/-- With the network disabled a new packet takes the place of the pending
    one. -/
theorem history_advanced_disabled (hn : w.obj.network = false) (now prev : EfuTime) :
    (w.advanced now prev).history = (w.trace.sent.map Sent.records).flatten := by
  have hf : (w.timed prev).flushed = w.timed prev := World.flushed_of_disabled hn
  rw [World.advanced, hf]
  exact List.append_nil _

omit [Host] in
/-- Adding a readout appends its copies to the history. -/
theorem history_addReadout (hn : w.obj.network = true) (hw : w.obj.writer = none)
    (ring fen : UInt8) (tof weight : R) (data : VoidPtr) :
    (final (addReadout ring fen tof weight data) w).history = w.history ++
      (recordOf w.obj.type ring fen (CDouble.toEfu tof + w.obj.time) data).toList.flatMap
        (List.replicate (copiesOf w.obj.randomEngine weight)) := by
  have hs : saved w.obj ring fen tof weight data w.fs = .ok () w.fs := by rw [saved, hw]; rfl
  cases hr : recordOf w.obj.type ring fen (CDouble.toEfu tof + w.obj.time) data with
  | none =>
    have hsame : (final (addReadout ring fen tof weight data) w).history = w.history := by
      obtain ⟨fs, hfin | ⟨-, hadd⟩⟩ := addReadout_cases ring fen tof weight data w
      · rw [hfin]
        rfl
      · obtain ⟨n, hfin⟩ := drawn_of_added (w := w.noted fs tof) (recordOf_eq_none hr) hadd
        rw [hfin]
        rfl
    rw [hsame]
    exact (List.append_nil _).symm
  | some r =>
    obtain ⟨t, assign, ht, hwr⟩ := recordOf_eq_some.1 hr
    have henabled : addReadout ring fen tof weight data w =
        addWeighted ring fen (CDouble.toEfu tof + w.obj.time) weight data (w.noted w.fs tof) :=
      addReadout_enabled hn hs
    have hadd := henabled.trans (addWeighted_eq weight (w := w.noted w.fs tof) ht hwr)
    rw [final_of_ok hadd, history_copies (w := (w.noted w.fs tof).drawn _) hn,
      Option.toList_some, List.flatMap_singleton]
    rfl

omit [Host] in
/-- A disabled network adds nothing. -/
theorem history_addReadout_disabled (hn : w.obj.network = false) (ring fen : UInt8) (tof weight : R)
    (data : VoidPtr) : (final (addReadout ring fen tof weight data) w).history = w.history := by
  obtain ⟨fs, hfin | ⟨hn', -⟩⟩ := addReadout_cases ring fen tof weight data w
  · rw [hfin]
    rfl
  · rw [hn] at hn'
    cases hn'

omit [CDouble R] [HighFive R FS] [Host] in
/-- What `update_time` does to the history: it throws and leaves the world as
    it was if the reading is too early, and completes otherwise.  Then it keeps
    the history if the network is enabled, and the pending readouts are lost if
    it is not. -/
theorem history_updateTime (h : Pausable P w) (hP : P.Canonical) (clock : UInt64) :
    (∃ e, updateTime clock w = .error e w ∧ (EfuTime.now clock).val < w.obj.time.val) ∨
      ∃ v, updateTime clock w = .ok () v ∧ ¬ (EfuTime.now clock).val < w.obj.time.val ∧
        v.obj.network = w.obj.network ∧ v.obj.writer = w.obj.writer ∧
        (w.obj.network = true → v.history = w.history) ∧
        (w.obj.network = false → v.history.length + w.records.length = w.history.length ∧
          (w.records = [] → v.history = w.history)) := by
  rcases updateTime_spec h.clocked hP clock with ⟨h1, he⟩ | ⟨h1, now, prev, -, he, -⟩
  · exact Or.inl ⟨_, he, h1⟩
  · have hs := World.settings_flushed (w.timed prev)
    refine Or.inr ⟨_, he, Nat.not_lt.2 h1, (network_of_settings hs).trans rfl,
      (writer_of_settings hs).trans rfl, fun hn => history_advanced hn now prev, fun hn => ?_⟩
    rw [history_advanced_disabled hn, World.history, List.length_append]
    refine ⟨rfl, fun hr => ?_⟩
    rw [hr, List.append_nil]

omit [CDouble R] [HighFive R FS] [Host] in
theorem keeps_iff (h : Wire w) {call : Call R} {clock : UInt64} (hc : call.clock = some clock) :
    call.Keeps w ↔ w.obj.network = true ∨ (EfuTime.now clock).val < w.obj.time.val ∨
      w.records = [] := by
  simp only [Call.Keeps, hc, Option.mem_some_iff, forall_eq', records_eq_nil_iff h]

omit [CDouble R] [HighFive R FS] [Host] in
theorem keeps_unclocked {call : Call R} (hc : call.clock = none) : call.Keeps w := by
  intro clock hclock
  rw [hc] at hclock
  cases hclock

/-- The call appends what it places to the history if it keeps the pending
    readouts; otherwise it places nothing and loses some. -/
structure Call.Accounts (call : Call R) (w w' : World R FS) : Prop where
  writer : w'.obj.writer = none
  kept : call.Keeps w → w'.history = w.history ++ call.placed w
  lost : ¬ call.Keeps w → w'.history.length < w.history.length ∧ call.placed w = []

section
variable {call : Call R} {w' : World R FS}

omit [HighFive R FS] [Host] in
/-- A call that keeps the readouts and places none. -/
theorem accounts_idle (hwr : w'.obj.writer = none) (hhist : w'.history = w.history)
    (hk : call.Keeps w) (hp : call.placed w = []) : call.Accounts w w' where
  writer := hwr
  kept _ := by rw [hhist, hp, List.append_nil]
  lost hl := absurd hk hl

omit [HighFive R FS] [Host] in
/-- A call that completes `update_time` with the network disabled. -/
theorem accounts_paused {clock : UInt64} (h : Wire w) (hc : call.clock = some clock)
    (hn : w.obj.network = false) (hge : ¬ (EfuTime.now clock).val < w.obj.time.val)
    (hwr : w'.obj.writer = none) (hlen : w'.history.length + w.records.length = w.history.length)
    (hnil : w.records = [] → w'.history = w.history) (hp : call.placed w = []) :
    call.Accounts w w' where
  writer := hwr
  kept hk := by
    rw [hp, List.append_nil]
    rcases (keeps_iff h hc).1 hk with hn' | hlt | hr
    · rw [hn] at hn'
      cases hn'
    · exact absurd hlt hge
    · exact hnil hr
  lost hk := by
    have hpos : w.records.length ≠ 0 := fun h0 =>
      hk ((keeps_iff h hc).2 (Or.inr (Or.inr (List.length_eq_zero_iff.1 h0))))
    exact ⟨by omega, hp⟩

end

theorem accounts_add (h : Pausable P w) (hP : P.Canonical) (clock : UInt64) (ring fen : UInt8)
    (tof weight : R) (data : VoidPtr) :
    (Call.add clock ring fen tof weight data).Accounts w
      (final (step (.add clock ring fen tof weight data)) w) := by
  rcases history_updateTime h hP clock with ⟨e, he, hlt⟩ | ⟨v, hv, hge, hvn, hvw, hen, hdis⟩
  · rw [final_of_error (step_add_error he ring fen tof weight data)]
    refine accounts_idle h.writer rfl ((keeps_iff h.wire rfl).2 (Or.inr (Or.inl hlt))) ?_
    simp only [Call.placed, he, ite_self]
  obtain ⟨-, hwr, -⟩ := addReadout_leaves ring fen tof weight data v
  rw [hvw, h.writer] at hwr
  rw [final_add hv]
  cases hn : w.obj.network with
  | true =>
    have hhist := history_addReadout (hvn.trans hn) (hvw.trans h.writer) ring fen tof weight data
    refine ⟨hwr, fun _ => ?_, fun hk => absurd ((keeps_iff h.wire rfl).2 (Or.inl hn)) hk⟩
    rw [hhist, hen hn, Call.placed, if_neg (by simp [hn]), hv]
  | false =>
    obtain ⟨h1, h2⟩ := hdis hn
    have hhist := history_addReadout_disabled (hvn.trans hn) ring fen tof weight data
    refine accounts_paused h.wire rfl hn hge hwr ?_ ?_ (if_pos hn)
    · rw [hhist, h1]
    · rw [hhist]
      exact h2

theorem accounts_setPulseTime (h : Pausable P w) (hP : P.Canonical) (clock : UInt64) :
    (Call.setPulseTime clock).Accounts w (final (step (.setPulseTime clock : Call R)) w) := by
  rcases history_updateTime h hP clock with ⟨e, he, hlt⟩ | ⟨v, hv, hge, -, hvw, hen, hdis⟩
  · have hw' : final (step (.setPulseTime clock : Call R)) w = w := final_of_error he
    rw [hw']
    exact accounts_idle h.writer rfl ((keeps_iff h.wire rfl).2 (Or.inr (Or.inl hlt))) rfl
  have hw' : final (step (.setPulseTime clock : Call R)) w = v := final_of_ok hv
  have hwr := hvw.trans h.writer
  rw [hw']
  cases hn : w.obj.network with
  | true => exact accounts_idle hwr (hen hn) ((keeps_iff h.wire rfl).2 (Or.inl hn)) rfl
  | false =>
    obtain ⟨h1, h2⟩ := hdis hn
    exact accounts_paused h.wire rfl hn hge hwr h1 h2 rfl

theorem accounts_send (h : Pausable P w) :
    (Call.send : Call R).Accounts w (final (step (.send : Call R)) w) := by
  have hwr := (writer_of_settings (World.settings_flushed w)).trans h.writer
  rw [final_of_ok (step_send w)]
  refine accounts_idle hwr ?_ (keeps_unclocked rfl) rfl
  cases hn : w.obj.network with
  | true => exact history_flushed hn
  | false => rw [World.flushed_of_disabled hn]

theorem accounts_call (h : Pausable P w) (hP : P.Canonical) {call : Call R}
    (hc : call.Pausing) : call.Accounts w (final (step call) w) := by
  cases call with
  | add clock ring fen tof weight data => exact accounts_add h hP clock ring fen tof weight data
  | setPulseTime clock => exact accounts_setPulseTime h hP clock
  | send => exact accounts_send h
  | disableNetwork | enableNetwork => exact accounts_idle h.writer rfl (keeps_unclocked rfl) rfl
  | _ => exact hc.elim

theorem pausable_call (h : Pausable P w) (hP : P.Canonical) {call : Call R} (hc : call.Pausing) :
    Pausable P (final (step call) w) :=
  ⟨wire_runCalls h.wire [call], clocked_runCalls hP h.clocked [call],
    (accounts_call h hP hc).writer⟩

/-! ## Runs -/

/-- A run of calls that keep the pending readouts appends what they place to
    the history; any other run loses some. -/
theorem history_placed (h : Pausable P w) (hP : P.Canonical) {calls : List (Call R)}
    (hc : ∀ call ∈ calls, call.Pausing) :
    (Along step (fun w call => call.Keeps w) w calls →
        (runCalls w calls).history = w.history ++ placed w calls) ∧
      (¬ Along step (fun w call => call.Keeps w) w calls →
        (runCalls w calls).history.length < w.history.length + (placed w calls).length) := by
  induction calls generalizing w with
  | nil => exact ⟨fun _ => (List.append_nil _).symm, fun hk => (hk trivial).elim⟩
  | cons call calls ih =>
    obtain ⟨-, h1, h2⟩ := accounts_call h hP (hc call List.mem_cons_self)
    obtain ⟨h3, h4⟩ := ih (pausable_call h hP (hc call List.mem_cons_self))
      (fun c hmem => hc c (List.mem_cons_of_mem _ hmem))
    have hcons : runCalls w (call :: calls) = runCalls (final (step call) w) calls := rfl
    rw [hcons, placed, List.length_append]
    by_cases hk : call.Keeps w
    · rw [h1 hk] at h3 h4
      constructor
      · rintro ⟨-, hks⟩
        rw [h3 hks, List.append_assoc]
      · intro hks
        have hlt := h4 fun hks' => hks ⟨hk, hks'⟩
        rw [List.length_append] at hlt
        omega
    · obtain ⟨hlt, hp⟩ := h2 hk
      refine ⟨fun hks => absurd hks.1 hk, fun _ => ?_⟩
      have hle : (runCalls (final (step call) w) calls).history.length ≤
          (final (step call) w).history.length + (placed (final (step call) w) calls).length := by
        by_cases hks : Along step (fun w call => call.Keeps w) (final (step call) w) calls
        · rw [h3 hks, List.length_append]
        · exact (h4 hks).le
      rw [hp, List.length_nil]
      omega

/-- **Pausing the network.**  After a run that ends with the network enabled
    and the packet under construction sent, every readout placed in the buffer
    has been sent exactly once iff nothing was pending whenever `update_time`
    completed with the network disabled. -/
theorem pausing_iff {clock₀ : UInt64} {frequency : R} {type : Int} {fs : FS}
    {socket : ℕ → SendResult} {draws : ℕ → Draw} {w₀ : World R FS} {calls : List (Call R)}
    {last : Call R} (hw : readoutCreate clock₀ frequency type fs socket draws = .ok w₀)
    (hc : ∀ call ∈ calls, call.Pausing) (hn : (runCalls w₀ calls).obj.network = true)
    (hl : last = .send ∨ last = .destroy) :
    Delivers (runCalls w₀ (calls ++ [last])) (placed w₀ calls) ↔
      Along step (fun w call => call.Keeps w) w₀ calls := by
  obtain ⟨-, hP, hk⟩ := clocked_create hw
  have h0 : Pausable w₀.obj.period w₀ ∧ w₀.history = [] := by
    have hwire := wire_make hw
    obtain ⟨d, prev, -, -, rfl⟩ := make_ok hw
    exact ⟨⟨hwire, hk, rfl⟩, rfl⟩
  obtain ⟨h1, h2⟩ := history_placed h0.1 hP hc
  rw [h0.2, List.nil_append] at h1
  rw [h0.2, List.length_nil, Nat.zero_add] at h2
  have hend : runCalls w₀ (calls ++ [last]) = (runCalls w₀ calls).flushed := by
    rw [runCalls, run_append]
    rcases hl with rfl | rfl
    · exact final_of_ok (step_send _)
    · exact final_of_ok (step_destroy _)
  have hwire := wire_flushed (wire_runCalls (wire_make hw) calls)
  have hhist := history_flushed hn
  rw [World.history, records_flushed hn, List.append_nil] at hhist
  rw [hend]
  constructor
  · intro hd
    by_contra hks
    have hlen := hd.perm.length_eq
    rw [hhist] at hlen
    exact absurd (h2 hks) (by omega)
  · intro hks
    exact ⟨hwire.sent, by rw [hhist, h1 hks]⟩

end
end

/-- The network is paused after the packet is sent. -/
theorem pausing_iff_atTen :
    let calls : List (Call ℚ) := [.add 11500000000 1 2 (1 / 10) 0 VoidPtr.blank, .send,
      .disableNetwork, .setPulseTime 12500000000, .enableNetwork,
      .add 12500000000 3 4 (1 / 5) 0 VoidPtr.blank]
    Delivers (runCalls (atTen .BIFROST) (calls ++ [.destroy])) (placed (atTen .BIFROST) calls) ∧
      (placed (atTen .BIFROST) calls).map (fun r => r.head.ring) = [1, 3] :=
  ⟨(pausing_iff (create_atTen .BIFROST) (by decide +kernel) (by decide +kernel) (Or.inr rfl)).2
    (by decide +kernel), by decide +kernel⟩

/-- The network is paused while a readout is pending, and the clock moves on. -/
theorem pending_lost : ∃ (w₀ : World ℚ (Disk ℚ)) (calls : List (Call ℚ)),
    readoutCreate 10000000000 (1 : ℚ) 0x34 Disk.blank openSocket ones = .ok w₀ ∧
    (∀ call ∈ calls, call.Pausing) ∧ (runCalls w₀ calls).obj.network = true ∧
    (placed w₀ calls).length = 1 ∧
    ¬ Delivers (runCalls w₀ (calls ++ [.send])) (placed w₀ calls) := by
  refine ⟨atTen .BIFROST, [.add 11500000000 1 2 (1 / 10) 0 VoidPtr.blank, .disableNetwork,
    .setPulseTime 12500000000, .enableNetwork], create_atTen .BIFROST, by decide +kernel,
    by decide +kernel, by decide +kernel, ?_⟩
  intro hd
  have hlen := hd.perm.length_eq
  revert hlen
  decide +kernel

end ReadoutMaster
