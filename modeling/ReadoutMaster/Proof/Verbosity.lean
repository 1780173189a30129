/-
  Verbosity and what a run does besides printing.

  Two runs of the same calls, with verbosity levels of their own set in
  between, go through consoles that are the same but for the verbosity and what
  was printed (`Alike`), until a `readout_shutdown` whose EXIT is not sent in
  full.  There `check_and_send_tcp` returns its failure only if it also prints
  it.

  * `alike_step`: the calls that do not shut down;
  * `alike_shutdown`: the shutdowns that lose no EXIT, or lose it as loudly;
  * `verbosity_iff`: the runs look the same besides what they print iff every
    EXIT lost is lost loudly in both or in neither.
-/
import ReadoutMaster.Concrete
import ReadoutMaster.Proof.Printing
import ReadoutMaster.Proof.Shutdown

namespace ReadoutMaster

open Machine

variable {R FS : Type}

namespace Console

/-- The consoles are the same but for the verbosity and what was printed. -/
structure Alike (c c' : Console R FS) : Prop where
  remote : c.remote = c'.remote
  world : SameBut c.world c'.world

theorem alike_of_shows {remote : Remote} {c c' : Console R FS} {w : World R FS}
    (h : Shows remote c w) (h' : Shows remote c' w) : Alike c c' := by
  obtain ⟨hr, level, rfl⟩ := h
  obtain ⟨hr', level', hw⟩ := h'
  refine ⟨hr.trans hr'.symm, c'.world.obj.verbosity, ?_⟩
  -- both worlds are the one shown, set back to a level
  have h := congrArg (World.withLevel · c'.world.obj.verbosity) hw
  exact h.symm

theorem alike_step [HighFive R FS] [CDouble R] [Host] {c c' : Console R FS} (h : Alike c c')
    (call : Call R) : Outcomes Alike Eq (step call c) (step call c') := by
  have h1 := prints_step call c'.remote c c'.world ⟨h.remote, h.world⟩
  have h2 := prints_step call c'.remote c' c'.world ⟨rfl, c'.world.obj.verbosity, rfl⟩
  exact (h1.join h2).mono fun _ _ ⟨_, hs, hs'⟩ => alike_of_shows hs hs'

/-! ## Shutdown -/

/-- The consoles of two runs inside a shutdown, which leaves the worlds alone. -/
structure Beside (w w' : World R FS) (c c' : Console R FS) : Prop where
  left : c.world = w
  right : c'.world = w'
  remote : c.remote = c'.remote

section
variable {w w' : World R FS}

/-- A value returned after something was printed. -/
theorem relates_printed {α : Type} (verbosity verbosity' level : Int) (text text' : String)
    (a : α) :
    Relates (Beside w w') Eq (print verbosity level text >>= fun _ => pure a)
      (print verbosity' level text' >>= fun _ => pure a) := by
  have hprint : Relates (Beside w w') Eq (print (R := R) verbosity level text)
      (print verbosity' level text') := by
    rintro c c' ⟨h1, h2, h3⟩
    refine .ok rfl ⟨?_, ?_, ?_⟩
    all_goals split_ifs <;> assumption
  exact relates_bind_eq hprint fun _ => relates_pure rfl

theorem relates_sendTcp (addr : String) (port : UInt16) (data : String) :
    Relates (Beside w w') Eq (sendTcp addr port data) (sendTcp addr port data) := by
  rintro ⟨_, remote, out⟩ ⟨_, _, out'⟩ ⟨h1, h2, rfl⟩
  exact .ok rfl ⟨h1, h2, rfl⟩

/-- The result of a message is the same if both runs print errors or neither
    does. -/
theorem relates_checkAndSendTcp (addr : String) (port : UInt16) (message : Except Exn String)
    {verbosity verbosity' : Int} (hv : verbosity > -1 ↔ verbosity' > -1) :
    Relates (Beside w w') Eq (checkAndSendTcp addr port message verbosity)
      (checkAndSendTcp addr port message verbosity') := by
  refine relates_bind_eq (relates_lift message) ?_
  intro message
  refine relates_bind_eq (relates_sendTcp addr port message) ?_
  intro result
  refine relates_ite (and_congr_right fun _ => hv) ?_ (relates_pure rfl)
  exact relates_printed _ _ _ _ _ _

theorem relates_probing {probe probe' : ℕ → Session R FS Int}
    (h : ∀ i, Relates (Beside w w') Eq (probe i) (probe' i)) (limit i : ℕ) (ok : Int) :
    Relates (Beside w w') Eq (probing probe limit i ok) (probing probe' limit i ok) := by
  induction limit generalizing i ok with
  | zero => exact relates_pure rfl
  | succ limit ih =>
    refine relates_ite Iff.rfl ?_ (relates_pure rfl)
    exact relates_bind_eq (h i) fun ok => ih (i + 1) ok

/-- The object and the address are those of the worlds of the two runs. -/
theorem relates_get {α : Type} {f g : Console R FS → Session R FS α}
    (h : ∀ c c', Beside w w' c c' → Relates (Beside w w') Eq (f c) (g c')) :
    Relates (Beside w w') Eq (get >>= f) (get >>= g) := by
  intro c c' hc
  exact h c c' hc c c' hc

variable [StdString] (hv : w.obj.verbosity > -1 ↔ w'.obj.verbosity > -1)
include hv

theorem relates_probeNull :
    Relates (Beside w w') Eq (probeNull : Session R FS Int) probeNull := by
  refine relates_get ?_
  rintro c c' ⟨rfl, rfl, hr⟩
  rw [hr]
  exact relates_checkAndSendTcp _ _ _ hv

theorem relates_afterExit (limit : ℕ) (ok : Int) :
    Relates (Beside w w') Eq (afterExit (fun _ => (probeNull : Session R FS Int)) limit ok)
      (afterExit (fun _ => probeNull) limit ok) := by
  refine relates_get ?_
  rintro c c' hc
  refine relates_ite Iff.rfl (relates_printed _ _ _ _ _ _) ?_
  refine relates_ite Iff.rfl (relates_printed _ _ _ _ _ _) ?_
  refine relates_bind_eq (relates_probing (fun _ => relates_probeNull hv) _ _ _) ?_
  rintro (_ | ok)
  · exact relates_pure rfl
  · refine relates_ite Iff.rfl ?_ (relates_pure rfl)
    exact relates_printed _ _ _ _ _ _

/-- A shutdown goes the same way if both runs print errors or neither does. -/
theorem relates_shutdown (hn : w.obj.network = w'.obj.network) (limit : ℕ) :
    Relates (Beside w w') Eq (commandShutdown limit : Session R FS (Option Int))
      (commandShutdown limit) := by
  refine relates_get ?_
  rintro c c' ⟨rfl, rfl, hr⟩
  rw [hr]
  refine relates_ite (by rw [hn]) ?_ ?_
  · exact relates_printed _ _ _ _ _ _
  refine relates_bind_eq (relates_checkAndSendTcp _ _ _ hv) ?_
  intro ok
  exact relates_afterExit hv limit ok

end

section
variable [StdString] (limit : ℕ) {c c' : Console R FS}

/-- A shutdown that sends its EXIT in full, or prints errors in both runs or in
    neither, goes the same way in both. -/
theorem alike_shutdown (h : Alike c c') (hl : LosesExit c → (Loud c ↔ Loud c')) :
    Outcomes Alike Eq (commandShutdown limit c) (commandShutdown limit c') := by
  obtain ⟨hr, level, hw⟩ := h
  have hn : c.world.obj.network = c'.world.obj.network := by rw [hw]; rfl
  by_cases hv : Loud c ↔ Loud c'
  · have h := relates_shutdown hv hn limit c c' ⟨rfl, rfl, hr⟩
    exact h.mono fun s s' hs => ⟨hs.remote, level, by rw [hs.left, hs.right, hw]⟩
  unfold commandShutdown
  cases he : c.world.obj.network with
  | false =>
    obtain ⟨out, h1⟩ := shutdown_disabled (fun _ => probeNull) limit he
    obtain ⟨out', h2⟩ := shutdown_disabled (fun _ => probeNull) limit (hn ▸ he)
    rw [h1, h2]
    exact .ok rfl ⟨hr, level, hw⟩
  | true =>
    have hb : (c.remote.answers 0).bytes = 5 := by
      by_contra hb
      exact hv (hl ⟨he, hb⟩)
    obtain ⟨out, h1⟩ := shutdown_full (fun _ => probeNull) limit he hb
    obtain ⟨out', h2⟩ := shutdown_full (fun _ => probeNull) limit (hn ▸ he) (hr ▸ hb)
    rw [h1, h2]
    refine .ok rfl ⟨?_, level, hw⟩
    show c.remote.asked c.exitMessage = c'.remote.asked c'.exitMessage
    rw [exitMessage, exitMessage, hr]

end

/-! ## Runs -/

/-- What an observer of a run sees besides what it prints. -/
structure Observed (FS : Type) where
  replies : List Reply
  datagrams : List (List UInt8)
  messages : List TcpMessage
  files : FS

def view (end' : List Reply × Console R FS) : Observed FS :=
  ⟨end'.1, end'.2.world.datagrams, end'.2.remote.messages, end'.2.world.fs⟩

/-- The run without its verbosity setters. -/
def others (run : List (Command R)) : List (Command R) := run.filter fun command => !command.sets

/-- Whether errors are printed, if the command is a shutdown that loses its
    EXIT. -/
def lostAt (command : Command R) (c : Console R FS) : List Bool :=
  match command with
  | .shutdown => if LosesExit c then [decide (Loud c)] else []
  | .call _ => []

theorem view_alike {replies : List Reply} {c c' : Console R FS} (h : Alike c c') :
    view (replies, c) = view (replies, c') := by
  obtain ⟨hr, level, hw⟩ := h
  simp only [view, hr, hw]
  rfl

theorem losesExit_alike {c c' : Console R FS} (h : Alike c c') : LosesExit c' ↔ LosesExit c := by
  obtain ⟨hr, level, hw⟩ := h
  rw [LosesExit, hw, ← hr]
  rfl

theorem Alike.symm {c c' : Console R FS} (h : Alike c c') : Alike c' c := by
  obtain ⟨hr, level, hw⟩ := h
  exact ⟨hr.symm, c.world.obj.verbosity, by rw [hw]; rfl⟩

theorem Alike.trans {c c' c'' : Console R FS} (h : Alike c c') (h' : Alike c' c'') :
    Alike c c'' := by
  obtain ⟨hr, level, hw⟩ := h
  obtain ⟨hr', level', hw'⟩ := h'
  exact ⟨hr.trans hr', level', by rw [hw', hw]; rfl⟩

section
variable [StdString] [HighFive R FS] [CDouble R] [Host]

/-- What an observer sees of a run. -/
def observed (limit : ℕ) (c : Console R FS) (run : List (Command R)) : Observed FS :=
  view (session limit c run)

/-- Whether errors are printed, at each shutdown of a run that loses its
    EXIT. -/
def lostExits (limit : ℕ) : Console R FS → List (Command R) → List Bool
  | _, [] => []
  | c, command :: commands =>
    let answer := perform limit command c
    lostAt command c ++ if answer.1 = .running then [] else lostExits limit answer.2 commands

section
variable (limit : ℕ)

/-- A setter leaves the console alike and the rest of the run as it is. -/
theorem skip {command : Command R} (h : command.sets = true) (c : Console R FS) :
    ∃ d, Alike c d ∧ ∀ rest, session limit c (command :: rest) = session limit d rest ∧
      lostExits limit c (command :: rest) = lostExits limit d rest := by
  match command, h with
  | .call (.verbose v), _ =>
    exact ⟨{ c with world := c.world.withLevel v }, ⟨rfl, v, rfl⟩, fun rest => ⟨rfl, rfl⟩⟩

theorem skip_nil {run : List (Command R)} (h : others run = []) (c : Console R FS) :
    ∃ d, Alike c d ∧ session limit c run = ([], d) ∧ lostExits limit c run = [] := by
  induction run generalizing c with
  | nil => exact ⟨c, ⟨rfl, c.world.obj.verbosity, rfl⟩, rfl, rfl⟩
  | cons command rest ih =>
    rw [others, List.filter_cons] at h
    split_ifs at h with hs
    obtain ⟨d, hd, hrest⟩ := skip limit (by simpa using hs) c
    obtain ⟨d', hd', h1, h2⟩ := ih h d
    exact ⟨d', hd.trans hd', (hrest rest).1.trans h1, (hrest rest).2.trans h2⟩

theorem skip_cons {run : List (Command R)} {command : Command R} {commands : List (Command R)}
    (h : others run = command :: commands) (c : Console R FS) :
    ∃ d rest, Alike c d ∧ others rest = commands ∧
      session limit c run = session limit d (command :: rest) ∧
      lostExits limit c run = lostExits limit d (command :: rest) := by
  induction run generalizing c with
  | nil => cases h
  | cons first rest ih =>
    rw [others, List.filter_cons] at h
    split_ifs at h with hs
    · injection h with h1 h2
      subst h1
      exact ⟨c, rest, ⟨rfl, c.world.obj.verbosity, rfl⟩, h2, rfl, rfl⟩
    · obtain ⟨d, hd, hrest⟩ := skip limit (by simpa using hs) c
      obtain ⟨d', rest', hd', h0, h1, h2⟩ := ih h d
      exact ⟨d', rest', hd.trans hd', h0, (hrest rest).1.trans h1, (hrest rest).2.trans h2⟩

variable {c c' : Console R FS}

/-- A command that loses no EXIT, or loses it as loudly in both runs, has the
    same reply. -/
theorem perform_alike (h : Alike c c') {command : Command R}
    (hl : lostAt command c = lostAt command c') :
    (perform limit command c).1 = (perform limit command c').1 ∧
      Alike (perform limit command c).2 (perform limit command c').2 := by
  cases command with
  | call call =>
    have h := alike_step h call
    simp only [perform]
    generalize step call c = u at h ⊢
    generalize step call c' = v at h ⊢
    cases h with
    | ok _ hs => exact ⟨rfl, hs⟩
    | error hs => exact ⟨rfl, hs⟩
  | shutdown =>
    have hv : LosesExit c → (Loud c ↔ Loud c') := by
      intro he
      have he' : LosesExit c' := (losesExit_alike h).2 he
      simpa [lostAt, he, he'] using hl
    have h := alike_shutdown limit h hv
    simp only [perform]
    generalize commandShutdown limit c = u at h ⊢
    generalize commandShutdown limit c' = v at h ⊢
    cases h with
    | ok hq hs =>
      subst hq
      rename_i value _ _
      cases value with
      | none => exact ⟨rfl, hs⟩
      | some value => exact ⟨rfl, hs⟩
    | error hs => exact ⟨rfl, hs⟩

theorem session_running {command : Command R} (h : (perform limit command c).1 = .running)
    (rest : List (Command R)) :
    session limit c (command :: rest) = ([.running], (perform limit command c).2) ∧
      lostExits limit c (command :: rest) = lostAt command c := by
  rw [session, lostExits, if_pos h, if_pos h, List.append_nil]
  exact ⟨rfl, rfl⟩

theorem session_cons {command : Command R} (hs : command.sets = false)
    (h : (perform limit command c).1 ≠ .running) (rest : List (Command R)) :
    session limit c (command :: rest) =
        ((perform limit command c).1 :: (session limit (perform limit command c).2 rest).1,
          (session limit (perform limit command c).2 rest).2) ∧
      lostExits limit c (command :: rest) =
        lostAt command c ++ lostExits limit (perform limit command c).2 rest := by
  rw [session, lostExits, if_neg h, if_neg h]
  refine ⟨?_, rfl⟩
  rw [hs]
  rfl

/-- The reply to a command that is no setter stands first, and so does the
    EXIT it loses. -/
theorem session_head {command : Command R} (hs : command.sets = false) (c : Console R FS)
    (rest : List (Command R)) :
    (session limit c (command :: rest)).1.head? = some (perform limit command c).1 ∧
      ∃ later, lostExits limit c (command :: rest) = lostAt command c ++ later := by
  by_cases h : (perform limit command c).1 = .running
  · obtain ⟨h1, h2⟩ := session_running limit h rest
    rw [h1, h2, h]
    exact ⟨rfl, [], (List.append_nil _).symm⟩
  · obtain ⟨h1, h2⟩ := session_cons limit hs h rest
    rw [h1, h2]
    exact ⟨rfl, _, rfl⟩

/-- An EXIT lost is replied to as lost iff errors are printed. -/
theorem shutdown_reply (h : LosesExit c) :
    (perform limit .shutdown c).1 = .returned (-3) ↔ Loud c := by
  constructor
  · intro hr
    by_contra hl
    rw [perform] at hr
    cases hs : commandShutdown limit c with
    | ok value s =>
      rw [hs] at hr
      cases value with
      | none => cases hr
      | some value =>
        injection hr with hr
        exact shutdown_silent (fun _ => probeNull) limit h hl hs hr
    | error e s => rw [hs] at hr; cases hr
  · intro hl
    obtain ⟨s, hs⟩ := shutdown_loud (fun _ => probeNull) limit h hl
    rw [perform, commandShutdown, hs]

/-- Of two runs that lose an EXIT, one printing errors and one not, the replies
    differ. -/
theorem perform_differs (h : Alike c c') {command : Command R}
    (hl : lostAt command c ≠ lostAt command c') :
    ∃ b b', lostAt command c = [b] ∧ lostAt command c' = [b'] ∧ b ≠ b' ∧
      (perform limit command c).1 ≠ (perform limit command c').1 := by
  cases command with
  | call call => exact absurd rfl hl
  | shutdown =>
    have he : LosesExit c' ↔ LosesExit c := losesExit_alike h
    by_cases hc : LosesExit c
    · have h1 : lostAt .shutdown c = [decide (Loud c)] := if_pos hc
      have h2 : lostAt .shutdown c' = [decide (Loud c')] := if_pos (he.2 hc)
      rw [h1, h2] at hl
      have hb : decide (Loud c) ≠ decide (Loud c') := by simpa using hl
      refine ⟨_, _, h1, h2, hb, ?_⟩
      intro hr
      refine hb (decide_eq_decide.2 ?_)
      rw [← shutdown_reply limit hc, ← shutdown_reply limit (he.2 hc), hr]
    · have h1 : lostAt .shutdown c = [] := if_neg hc
      have h2 : lostAt .shutdown c' = [] := if_neg (hc ∘ he.1)
      exact absurd (h1.trans h2.symm) hl

/-- Runs part at a shutdown that loses its EXIT loudly in one of them alone. -/
theorem observed_parts (h : Alike c c') {command : Command R} (hs : command.sets = false)
    (hl : lostAt command c ≠ lostAt command c') (rest rest' : List (Command R)) :
    observed limit c (command :: rest) ≠ observed limit c' (command :: rest') ∧
      lostExits limit c (command :: rest) ≠ lostExits limit c' (command :: rest') := by
  obtain ⟨b, b', hb, hb', hne, hreply⟩ := perform_differs limit h hl
  obtain ⟨h1, later, h2⟩ := session_head limit hs c rest
  obtain ⟨h1', later', h2'⟩ := session_head limit hs c' rest'
  constructor
  · intro ho
    have ho := congrArg (fun o => o.replies.head?) ho
    exact hreply (Option.some.inj (h1.symm.trans (ho.trans h1')))
  · rw [h2, h2', hb, hb']
    intro ho
    exact hne (List.cons_eq_cons.1 ho).1

/-- Runs of the same commands from consoles that are alike. -/
theorem observed_alike {commands run run' : List (Command R)} (h : Alike c c')
    (hr : others run = commands) (hr' : others run' = commands) :
    observed limit c run = observed limit c' run' ↔
      lostExits limit c run = lostExits limit c' run' := by
  induction commands generalizing run run' c c' with
  | nil =>
    obtain ⟨d, hd, hs, hl⟩ := skip_nil limit hr c
    obtain ⟨d', hd', hs', hl'⟩ := skip_nil limit hr' c'
    rw [observed, observed, hs, hs', hl, hl']
    exact iff_of_true (view_alike (hd.symm.trans (h.trans hd'))) rfl
  | cons command commands ih =>
    have hsets : command.sets = false := by
      have hm : command ∈ others run := hr ▸ List.mem_cons_self
      simpa using (List.mem_filter.1 hm).2
    obtain ⟨d, rest, hd, hrest, hs, hl⟩ := skip_cons limit hr c
    obtain ⟨d', rest', hd', hrest', hs', hl'⟩ := skip_cons limit hr' c'
    have hdd : Alike d d' := hd.symm.trans (h.trans hd')
    rw [observed, observed, hs, hs', hl, hl']
    by_cases hlost : lostAt command d = lostAt command d'
    · obtain ⟨hreply, halike⟩ := perform_alike limit hdd hlost
      by_cases hrun : (perform limit command d).1 = .running
      · -- both runs end here
        obtain ⟨h1, h2⟩ := session_running limit hrun rest
        obtain ⟨h1', h2'⟩ := session_running limit (hreply ▸ hrun) rest'
        rw [h1, h2, h1', h2']
        exact iff_of_true (view_alike halike) hlost
      · obtain ⟨h1, h2⟩ := session_cons limit hsets hrun rest
        obtain ⟨h1', h2'⟩ := session_cons limit hsets (hreply ▸ hrun) rest'
        have ih := ih halike hrest hrest'
        rw [h1, h2, h1', h2', hlost, List.append_cancel_left_eq, ← ih, hreply]
        simp [view, observed]
    · obtain ⟨h1, h2⟩ := observed_parts limit hdd hsets hlost rest rest'
      exact iff_of_false h1 h2

end

/-- **Two runs of the same calls, with verbosity levels of their own in
    between, look the same besides what they print iff at every shutdown that
    loses its EXIT errors are printed in both or in neither.** -/
theorem verbosity_iff (limit : ℕ) (c : Console R FS) {run run' : List (Command R)}
    (h : others run = others run') :
    observed limit c run = observed limit c run' ↔
      lostExits limit c run = lostExits limit c run' :=
  observed_alike limit ⟨rfl, c.world.obj.verbosity, rfl⟩ h rfl

end

/-- The EXIT is sent in full. -/
theorem verbosity_iff_full :
    observed 1 (atTenWith ⟨5, 0, by decide⟩) [.call (.verbose 3), .call .send, .shutdown] =
      observed 1 (atTenWith ⟨5, 0, by decide⟩)
        [.call .send, .call (.verbose (-1)), .shutdown] := by
  have h : others ([.call (.verbose 3), .call .send, .shutdown] : List (Command ℚ)) =
      others [.call .send, .call (.verbose (-1)), .shutdown] := rfl
  exact (verbosity_iff 1 _ h).2 (by decide +kernel)

/-- Three bytes of the EXIT are sent: a failure to send, or an answer that
    could not be read. -/
theorem exit_lost : ∃ (c : Console ℚ (Disk ℚ)) (run run' : List (Command ℚ)),
    others run = others run' ∧
    (observed 1 c run).replies = [.returned (-3)] ∧
    (observed 1 c run').replies = [.returned (-2)] ∧
    observed 1 c run ≠ observed 1 c run' := by
  have h1 : (observed 1 (atTenWith ⟨3, 0, by decide⟩) [.shutdown]).replies =
      [.returned (-3)] := by decide +kernel
  have h2 : (observed 1 (atTenWith ⟨3, 0, by decide⟩) [.call (.verbose (-1)), .shutdown]).replies =
      [.returned (-2)] := by decide +kernel
  refine ⟨atTenWith ⟨3, 0, by decide⟩, [.shutdown], [.call (.verbose (-1)), .shutdown], rfl,
    h1, h2, ?_⟩
  intro h
  rw [h, h2] at h1
  exact absurd h1 (by decide)

end Console

end ReadoutMaster
