/-
  What `command_shutdown` does, as equations.

  With the network enabled EXIT is sent first, and `afterExit` goes on with the
  result: a negative one is a failure to send.  A message that is not sent in
  full has such a result only if the failure is printed; one that is sent in
  full has the result zero, which is taken for a failure to read the answer.
  Only an error code that is not printed starts the loop.

  * `probing_ends_iff`: the loop ends with the first result that is not
    positive, however many come before;
  * `reports_iff`: a shutdown ends and returns a failure as it should iff EXIT
    is not sent in full, and the error code is not taken for a success.
-/
import ReadoutMaster.Console
import ReadoutMaster.Concrete

namespace ReadoutMaster

open Machine

variable {R FS : Type}

/-- The TCP side with a message sent. -/
def Remote.asked (r : Remote) (m : TcpMessage) : Remote :=
  { r with answers := fun n => r.answers (n + 1), messages := r.messages ++ [m] }

namespace Console

/-- The message `command_shutdown` sends. -/
def exitMessage (c : Console R FS) : TcpMessage :=
  ⟨c.remote.ipaddr, UInt16.ofInt c.remote.tcpPort, "EXIT\n"⟩

/-- The network is enabled, and the EXIT a shutdown would send now is not sent
    in full. -/
def LosesExit (c : Console R FS) : Prop :=
  c.world.obj.network = true ∧ (c.remote.answers 0).bytes ≠ 5

instance (c : Console R FS) : Decidable (LosesExit c) := inferInstanceAs (Decidable (_ ∧ _))

/-- Errors are printed. -/
def Loud (c : Console R FS) : Prop := c.world.obj.verbosity > -1

instance (c : Console R FS) : Decidable (Loud c) := inferInstanceAs (Decidable (_ > _))

theorem print_eq (verbosity level : Int) (text : String) (c : Console R FS) :
    ∃ out, print verbosity level text c = .ok () { c with stdout := out } := by
  unfold print
  split_ifs
  · exact ⟨_, rfl⟩
  · exact ⟨c.stdout, rfl⟩

/-- The result of sending EXIT. -/
def exitResult (c : Console R FS) : Int :=
  if (c.remote.answers 0).bytes ≠ 5 ∧ Loud c then -1 else (c.remote.answers 0).errorCode

theorem exit_eq (c : Console R FS) :
    ∃ out, checkAndSendTcp c.remote.ipaddr (UInt16.ofInt c.remote.tcpPort) (.ok "EXIT\n")
        c.world.obj.verbosity c =
      .ok (exitResult c) { c with remote := c.remote.asked c.exitMessage, stdout := out } := by
  show ∃ out, (if (c.remote.answers 0).bytes ≠ 5 ∧ Loud c then _ else _ : Session R FS Int)
    { c with remote := c.remote.asked c.exitMessage } = _
  rw [exitResult]
  split_ifs
  · obtain ⟨out, hp⟩ := print_eq c.world.obj.verbosity (-1) _
      { c with remote := c.remote.asked c.exitMessage }
    exact ⟨out, by rw [bind_of_ok hp]; rfl⟩
  · exact ⟨c.stdout, rfl⟩

section
variable (probe : ℕ → Session R FS Int) (limit : ℕ)

theorem afterExit_failed {ok : Int} (h : ok < 0) (c : Console R FS) :
    ∃ out, afterExit probe limit ok c = .ok (some (-3)) { c with stdout := out } := by
  obtain ⟨out, hp⟩ := print_eq c.world.obj.verbosity (-1)
    ("Could not connect to " ++ c.remote.ipaddr ++ ":" ++ toString c.remote.tcpPort ++ "\n") c
  refine ⟨out, ?_⟩
  show (if ok < 0 then _ else _ : Session R FS (Option Int)) c = _
  rw [if_pos h, bind_of_ok hp]
  rfl

theorem afterExit_zero {ok : Int} (h : ok = 0) (c : Console R FS) :
    ∃ out, afterExit probe limit ok c = .ok (some (-2)) { c with stdout := out } := by
  obtain ⟨out, hp⟩ := print_eq c.world.obj.verbosity (-1)
    "Could not read response from EXIT command\n" c
  refine ⟨out, ?_⟩
  show (if ok < 0 then _ else if ok = 0 then _ else _ : Session R FS (Option Int)) c = _
  rw [if_neg h.not_lt, if_pos h, bind_of_ok hp]
  rfl

/-- A positive result is the only one to start the loop, and no failure whatever
    the probes are. -/
theorem afterExit_pos {ok value : Int} {c c' : Console R FS} (h : 0 < ok)
    (hr : afterExit probe limit ok c = .ok (some value) c') : value = 0 := by
  change (if ok < 0 then _ else if ok = 0 then _ else _ : Session R FS (Option Int)) c = _ at hr
  rw [if_neg h.not_gt, if_neg h.ne', bind_eq_ok] at hr
  obtain ⟨_ | ok, s, -, hr⟩ := hr
  · cases hr
  change (if ok > 0 then _ else _ : Session R FS (Option Int)) s = _ at hr
  split_ifs at hr
  · obtain ⟨_, _, -, hr⟩ := bind_eq_ok.1 hr
    cases hr
    rfl
  · cases hr
    rfl

/-- A failure is returned only for a negative result. -/
theorem afterExit_ne_failed {ok value : Int} {c c' : Console R FS} (h : 0 ≤ ok)
    (hr : afterExit probe limit ok c = .ok (some value) c') : value ≠ -3 := by
  rcases h.eq_or_lt with h | h
  · obtain ⟨out, h0⟩ := afterExit_zero probe limit h.symm c
    rw [h0] at hr
    cases hr
    decide
  · rw [afterExit_pos probe limit h hr]
    decide

end

/-! ## The loop -/

/-- A loop that has ended goes on no further if it may. -/
theorem probing_mono {probe : ℕ → Session R FS Int} {limit limit' : ℕ} (hle : limit ≤ limit') :
    ∀ {i : ℕ} {ok value : Int} {s s' : Console R FS},
      probing probe limit i ok s = .ok (some value) s' →
      probing probe limit' i ok s = .ok (some value) s' := by
  induction limit generalizing limit' with
  | zero =>
    intro i ok value s s' h
    have hok : ¬ ok > 0 := by
      intro hok
      rw [probing, if_pos hok] at h
      cases h
    rw [probing, if_neg hok] at h
    cases limit' with
    | zero =>
      rw [probing, if_neg hok]
      exact h
    | succ limit' =>
      rw [probing, if_neg hok]
      exact h
  | succ limit ih =>
    obtain ⟨limit', rfl⟩ : ∃ k, limit' = k + 1 := ⟨limit' - 1, by omega⟩
    intro i ok value s s' h
    rw [probing] at h ⊢
    split_ifs at h ⊢
    · obtain ⟨result, t, hprobe, hrest⟩ := bind_eq_ok.1 h
      exact bind_eq_ok.2 ⟨result, t, hprobe, ih (by omega) hrest⟩
    · exact h

theorem afterExit_mono {probe : ℕ → Session R FS Int} {limit limit' : ℕ} (hle : limit ≤ limit')
    {ok value : Int} {c c' : Console R FS}
    (h : afterExit probe limit ok c = .ok (some value) c') :
    afterExit probe limit' ok c = .ok (some value) c' := by
  change (if ok < 0 then _ else if ok = 0 then _ else _ : Session R FS (Option Int)) c = _ at h ⊢
  split_ifs at h ⊢
  · exact h
  · exact h
  · obtain ⟨_ | ok, s, hloop, h⟩ := bind_eq_ok.1 h
    · cases h
    · exact bind_eq_ok.2 ⟨some ok, s, probing_mono hle hloop, h⟩

/-- The loop ends with the first result that is not positive. -/
theorem probing_ends_iff (results : ℕ → Int) (limit : ℕ) :
    ∀ (i : ℕ) (ok : Int) (s : Console R FS), ∃ r : Option Int,
      probing (fun i => pure (results i)) limit i ok s = .ok r s ∧
        (r.isSome ↔ ok ≤ 0 ∨ ∃ j < limit, results (i + j) ≤ 0) := by
  induction limit with
  | zero =>
    intro i ok s
    rw [probing]
    split_ifs with hok
    · exact ⟨none, rfl, iff_of_false (by decide) (by omega)⟩
    · exact ⟨some (ok - 1), rfl, iff_of_true rfl (Or.inl (Int.not_lt.1 hok))⟩
  | succ limit ih =>
    intro i ok s
    rw [probing]
    split_ifs with hok
    · obtain ⟨r, hr, hends⟩ := ih (i + 1) (results i) s
      refine ⟨r, hr, hends.trans ?_⟩
      constructor
      · rintro (h | ⟨j, hj, h⟩)
        · exact Or.inr ⟨0, Nat.succ_pos _, h⟩
        · exact Or.inr ⟨j + 1, Nat.succ_lt_succ hj, by rwa [Nat.add_comm j, ← Nat.add_assoc]⟩
      · rintro (h | ⟨_ | j, hj, h⟩)
        · exact absurd hok (Int.not_lt.2 h)
        · exact Or.inl h
        · exact Or.inr ⟨j, Nat.lt_of_succ_lt_succ hj, by
            rwa [Nat.add_comm j, ← Nat.add_assoc] at h⟩
    · exact ⟨some (ok - 1), rfl, iff_of_true rfl (Or.inl (Int.not_lt.1 hok))⟩

/-- An error code taken for a success, and probes that all give a positive
    result: the loop goes on for ever. -/
theorem afterExit_forever (results : ℕ → Int) (limit : ℕ) (hpos : ∀ j, 0 < results j) {ok : Int}
    (h : 0 < ok) (c : Console R FS) :
    ∃ c', afterExit (fun i => pure (results i)) limit ok c = .ok none c' := by
  obtain ⟨r, hr, hends⟩ := probing_ends_iff results limit 0 (ok * 100) c
  have hnone : r = none := by
    rw [← Option.not_isSome_iff_eq_none, hends]
    rintro (hle | ⟨j, -, hle⟩)
    · omega
    · rw [Nat.zero_add] at hle
      exact absurd (hpos j) (Int.not_lt.2 hle)
  refine ⟨c, ?_⟩
  show (if ok < 0 then _ else if ok = 0 then _ else _ : Session R FS (Option Int)) c = _
  rw [if_neg h.not_gt, if_neg h.ne', bind_of_ok hr, hnone]
  rfl

/-! ## Shutting down -/

section
variable (probe : ℕ → Session R FS Int) (limit : ℕ) {c c' : Console R FS}

theorem shutdown_disabled (h : c.world.obj.network = false) :
    ∃ out, shutdownWith probe limit c = .ok (some 0) { c with stdout := out } := by
  obtain ⟨out, hp⟩ := print_eq c.world.obj.verbosity 1
    "No shutdown command sent due to disabled network\n" c
  refine ⟨out, ?_⟩
  show (if c.world.obj.network = false then _ else _ : Session R FS (Option Int)) c = _
  rw [if_pos h, bind_of_ok hp]
  rfl

/-- With the network enabled EXIT is sent, and its result decides. -/
theorem shutdown_enabled (h : c.world.obj.network = true) :
    ∃ out, shutdownWith probe limit c = afterExit probe limit (exitResult c)
      { c with remote := c.remote.asked c.exitMessage, stdout := out } := by
  obtain ⟨out, he⟩ := exit_eq c
  refine ⟨out, ?_⟩
  show (if c.world.obj.network = false then _ else _ : Session R FS (Option Int)) c = _
  rw [if_neg (by simp [h]), bind_of_ok he]

/-- No error code, and nothing printed: the answer is taken for missing. -/
theorem shutdown_zero (h : c.world.obj.network = true) (hr : exitResult c = 0) :
    ∃ out, shutdownWith probe limit c = .ok (some (-2))
      { c with remote := c.remote.asked c.exitMessage, stdout := out } := by
  obtain ⟨out, hs⟩ := shutdown_enabled probe limit h
  rw [hs]
  exact afterExit_zero _ _ hr _

/-- A shutdown that has ended does the same if it may probe more often. -/
theorem shutdown_mono {limit' : ℕ} (hle : limit ≤ limit') {value : Int}
    (h : shutdownWith probe limit c = .ok (some value) c') :
    shutdownWith probe limit' c = .ok (some value) c' := by
  change (if c.world.obj.network = false then _ else _ : Session R FS (Option Int)) c = _ at h ⊢
  split_ifs at h ⊢
  · exact h
  · obtain ⟨ok, s, hexit, h⟩ := bind_eq_ok.1 h
    exact bind_eq_ok.2 ⟨ok, s, hexit, afterExit_mono hle h⟩

theorem shutdown_full (h : c.world.obj.network = true) (hb : (c.remote.answers 0).bytes = 5) :
    ∃ out, shutdownWith probe limit c = .ok (some (-2))
      { c with remote := c.remote.asked c.exitMessage, stdout := out } := by
  refine shutdown_zero probe limit h ?_
  rw [exitResult, if_neg fun h => h.1 hb]
  rcases (c.remote.answers 0).contract with ⟨-, h0⟩ | ⟨h1, -⟩
  · exact h0
  · rw [hb] at h1; cases h1

theorem shutdown_loud (h : LosesExit c) (hl : Loud c) :
    ∃ s, shutdownWith probe limit c = .ok (some (-3)) s := by
  obtain ⟨out, hs⟩ := shutdown_enabled probe limit h.1
  have hr : exitResult c = -1 := if_pos ⟨h.2, hl⟩
  obtain ⟨out', hf⟩ := afterExit_failed probe limit (by decide : (-1 : Int) < 0)
    { c with remote := c.remote.asked c.exitMessage, stdout := out }
  exact ⟨_, by rw [hs, hr]; exact hf⟩

theorem shutdown_silent (h : LosesExit c) (hl : ¬ Loud c) {value : Int} {s : Console R FS}
    (hs : shutdownWith probe limit c = .ok (some value) s) : value ≠ -3 := by
  obtain ⟨out, hs'⟩ := shutdown_enabled probe limit h.1
  have hr : 0 ≤ exitResult c := by
    rw [exitResult, if_neg fun h => hl h.2]
    rcases (c.remote.answers 0).contract with ⟨-, h0⟩ | ⟨-, h1⟩
    · exact h0.ge
    · exact h1.le
  rw [hs'] at hs
  exact afterExit_ne_failed _ _ hr hs

end

/-! ## Reporting -/

/-- A shutdown ends after at most 100 probes, and returns a negative value iff
    the five bytes of EXIT are not sent in full. -/
def Reports (probe : ℕ → Session R FS Int) (c : Console R FS) : Prop :=
  ∃ value c', shutdownWith probe 100 c = .ok (some value) c' ∧
    (value < 0 ↔ (c.remote.answers 0).bytes ≠ 5)

/-- **A shutdown** with the network enabled, whatever its probes do, ends in time
    and reports what happened iff EXIT is not sent in full, and an error of the
    connection is printed. -/
theorem reports_iff (probe : ℕ → Session R FS Int) {c : Console R FS}
    (h : c.world.obj.network = true) :
    Reports probe c ↔
      (c.remote.answers 0).bytes ≠ 5 ∧ (Loud c ∨ 0 ≤ (c.remote.answers 0).bytes) := by
  by_cases hb : (c.remote.answers 0).bytes = 5
  · refine iff_of_false ?_ (fun hc => hc.1 hb)
    rintro ⟨value, c', hs, hv⟩
    obtain ⟨out, hf⟩ := shutdown_full probe 100 h hb
    cases hf.symm.trans hs
    exact hv.1 (by decide) hb
  by_cases hl : Loud c
  · obtain ⟨s, hs⟩ := shutdown_loud probe 100 ⟨h, hb⟩ hl
    exact iff_of_true ⟨-3, s, hs, iff_of_true (by decide) hb⟩ ⟨hb, Or.inl hl⟩
  have hr : exitResult c = (c.remote.answers 0).errorCode := if_neg fun h => hl h.2
  rcases (c.remote.answers 0).contract with ⟨hpart, h0⟩ | ⟨hlost, hpos⟩
  · -- a part of it is sent
    obtain ⟨out, hs⟩ := shutdown_zero probe 100 h (hr.trans h0)
    exact iff_of_true ⟨-2, _, hs, iff_of_true (by decide) hb⟩ ⟨hb, Or.inr hpart⟩
  · -- the error code is taken for a success
    refine iff_of_false ?_ (by rw [hlost]; simp [hl])
    rintro ⟨value, c', hs, hv⟩
    obtain ⟨out, hs'⟩ := shutdown_enabled probe 100 h
    rw [hs', hr] at hs
    have hzero := afterExit_pos probe 100 hpos hs
    exact absurd (hv.2 hb) (by rw [hzero]; decide)

/-- A console of a readout of type BIFROST, whose EXIT is answered so. -/
def atTenWith (answer : TcpResult) : Console ℚ (Disk ℚ) where
  world := atTen .BIFROST
  remote := { ipaddr := "127.0.0.1", tcpPort := 10800, answers := fun _ => answer }

/-- Two bytes of the EXIT are sent. -/
theorem reports_iff_part : Reports (fun _ => probeNull) (atTenWith ⟨2, 0, by decide⟩) :=
  (reports_iff _ rfl).2 (by decide)

/-- `ECONNREFUSED` -/
def refused : TcpResult := ⟨-1, 111, by decide⟩

/-- A console that prints no errors, of a readout without connection. -/
def silentRefused : Console ℚ (Disk ℚ) :=
  { atTenWith refused with world := final (readoutVerbose (-1)) (atTen .BIFROST) }

/-- An EXIT sent in full is reported as a failure; and a connection that is
    refused, with errors not printed, is probed for ever if every probe gives
    one. -/
theorem full_exit_fails :
    (∃ c', shutdownWith (fun _ => pure 0) 100 (atTenWith ⟨5, 0, by decide⟩) =
      .ok (some (-2)) c') ∧
    (∀ limit, ∃ c', shutdownWith (fun _ => pure 1) limit silentRefused = .ok none c') ∧
    ¬ Reports (fun _ => pure 0) (atTenWith ⟨5, 0, by decide⟩) ∧
    ¬ Reports (fun _ => pure 1) silentRefused := by
  have hfull : ∃ out, shutdownWith (fun _ => pure 0) 100 (atTenWith ⟨5, 0, by decide⟩) =
      .ok (some (-2)) _ := shutdown_full _ 100 rfl rfl
  have hever : ∀ limit, ∃ c', shutdownWith (fun _ => pure 1) limit silentRefused =
      .ok none c' := by
    intro limit
    have herror : 0 < exitResult silentRefused := by decide
    obtain ⟨out, hs⟩ := shutdown_enabled (fun _ => pure 1) limit (c := silentRefused) rfl
    obtain ⟨c', hc⟩ := afterExit_forever (fun _ => 1) limit (fun _ => Int.zero_lt_one) herror _
    exact ⟨c', hs.trans hc⟩
  refine ⟨?_, hever, ?_, ?_⟩
  · obtain ⟨out, h⟩ := hfull
    exact ⟨_, h⟩
  · rintro ⟨value, c', hs, hv⟩
    obtain ⟨out, h⟩ := hfull
    cases h.symm.trans hs
    exact hv.1 (by decide) rfl
  · rintro ⟨value, c', hs, -⟩
    obtain ⟨c, h⟩ := hever 100
    cases h.symm.trans hs

end Console

end ReadoutMaster
