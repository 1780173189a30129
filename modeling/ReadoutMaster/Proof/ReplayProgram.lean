/-
  What the command line of `readout-replay` means.

  `said occs` is what the occurrences of a command line say together: a flag is
  matched if it occurs, a flag with values has the last value given, and the
  file is the positional.  `takeAll_iff` says that the parser computes this.

  * `reads_iff`: the command lines that are accepted, and as what;
  * `reordered`: the order of different options does not matter;
  * `ends_iff`: on which lines the program replays, prints its usage, or is
    terminated by an exception that nobody catches;
  * `spelled`: there is a command line for all options that a replay may have;
  * `line_replays`: what the program transmits for a line it accepts.
-/
import ReadoutMaster.Proof.CommandLine
import ReadoutMaster.Proof.Subset
import ReadoutMaster.ReplayProgram

namespace ReadoutMaster

namespace Replay

open Args Machine ArgumentParser

/-! ## The meaning of a command line -/

def said (occs : List (Occ Flag)) : Arguments where
  matched f := !(given f occs).isEmpty
  number n := ((lastGiven (.number n) occs).bind readInt).getD 0
  address := (lastGiven .address occs).getD []
  filename := (positionals occs).getLast?.getD []
  ready := (positionals occs).isEmpty

/-- An occurrence that does not ask for help, and whose value is a number if it
    should be. -/
def Readable : Occ Flag → Prop
  | .flag .help _ => False
  | .flag (.number _) values => ∀ value ∈ values.head?, readInt value ≠ none
  | _ => True

/-- What the parser accepts. -/
structure Accepted (occs : List (Occ Flag)) : Prop where
  readable : ∀ o ∈ occs, Readable o
  positional : (positionals occs).length ≤ 1
  exclusive : given .sequential occs = [] ↔ given .random occs ≠ []

section
variable {f : Flag} {values : List Str} {occs : List (Occ Flag)} {a : Arguments}

/-- A flag that reads nothing. -/
theorem said_flag (hn : ∀ n, f ≠ .number n) (ha : f ≠ .address) :
    said (occs ++ [.flag f values]) = (said occs).mark f := by
  refine Arguments.ext isGiven_flag ?_ ?_ ?_ ?_
  · funext n
    show ((lastGiven _ _).bind readInt).getD 0 = ((lastGiven _ _).bind readInt).getD 0
    rw [lastGiven_other (hn n).symm]
  · show (lastGiven _ _).getD [] = (lastGiven _ _).getD []
    rw [lastGiven_other ha.symm]
  · show (positionals _).getLast?.getD [] = (positionals _).getLast?.getD []
    rw [positionals_flag]
  · show (positionals _).isEmpty = (positionals _).isEmpty
    rw [positionals_flag]

theorem said_number {n : Number} {value : Str} {i : Int32} (hi : readInt value = some i) :
    said (occs ++ [.flag (.number n) [value]]) =
      { (said occs).mark (.number n) with number := Function.update (said occs).number n i } := by
  refine Arguments.ext isGiven_flag ?_ ?_ ?_ ?_
  · funext m
    show ((lastGiven _ _).bind readInt).getD 0 = Function.update (said occs).number n i m
    by_cases hm : m = n
    · subst hm
      simp [hi]
    · rw [lastGiven_other (by simpa using hm), Function.update_of_ne hm]
      rfl
  · show (lastGiven _ _).getD [] = (lastGiven _ _).getD []
    rw [lastGiven_other (by simp)]
  · show (positionals _).getLast?.getD [] = (positionals _).getLast?.getD []
    rw [positionals_flag]
  · show (positionals _).isEmpty = (positionals _).isEmpty
    rw [positionals_flag]

theorem said_address {value : Str} :
    said (occs ++ [.flag .address [value]]) =
      { (said occs).mark .address with address := value } := by
  refine Arguments.ext isGiven_flag ?_ ?_ ?_ ?_
  · funext m
    show ((lastGiven _ _).bind readInt).getD 0 = ((lastGiven _ _).bind readInt).getD 0
    rw [lastGiven_other (by simp)]
  · show (lastGiven _ _).getD [] = value
    rw [lastGiven_flag]
    rfl
  · show (positionals _).getLast?.getD [] = (positionals _).getLast?.getD []
    rw [positionals_flag]
  · show (positionals _).isEmpty = (positionals _).isEmpty
    rw [positionals_flag]

theorem said_positional {c : Str} : said (occs ++ [.positional c]) =
    { said occs with filename := c, ready := false } := by
  refine Arguments.ext ?_ ?_ ?_ ?_ ?_ <;> simp [said]

/-! ## One occurrence -/

theorem valueReader_eq_ok {name : String} {value : Str} {i : Int32} :
    valueReader name value = .ok i ↔ readInt value = some i := by
  rw [valueReader]
  cases readInt value with
  | none => exact ⟨fun h => (by cases h), fun h => (by cases h)⟩
  | some j => exact ⟨fun h => congrArg some (Except.ok.inj h), fun h => (by rw [Option.some.inj h])⟩

/-- The values of an occurrence, by what its flag takes. -/
theorem values_of_fed (h : parser.Fed (.flag f values)) :
    f.nargs = .exactly 0 ∧ values = [] ∨ f.nargs = .exactly 1 ∧ ∃ value, values = [value] := by
  obtain ⟨hmin, hmax⟩ := h
  cases f with
  | help | verbose | sequential | random =>
    exact Or.inl ⟨rfl, List.length_eq_zero_iff.1 (Nat.le_zero.1 hmax)⟩
  | number n => exact Or.inr ⟨rfl, List.length_eq_one_iff.1 (Nat.le_antisymm hmax hmin)⟩
  | address => exact Or.inr ⟨rfl, List.length_eq_one_iff.1 (Nat.le_antisymm hmax hmin)⟩

/-- An occurrence after others is taken if it can be read and a positional is
    the first, and adds what it says. -/
theorem take_iff {o : Occ Flag} (ho : parser.Fed o) : parser.take o (said occs) = .ok a ↔
    Readable o ∧ (chunk o ≠ none → positionals occs = []) ∧ a = said (occs ++ [o]) := by
  cases o with
  | positional c =>
    have hready : parser.ready (said occs) = (positionals occs).isEmpty := rfl
    rw [take, hready, said_positional]
    by_cases hp : positionals occs = []
    · rw [if_pos (by simp [hp])]
      exact ⟨fun h => ⟨trivial, fun _ => hp, (Except.ok.inj h).symm⟩,
        fun h => congrArg _ h.2.2.symm⟩
    · rw [if_neg (by simp [hp])]
      exact ⟨fun h => (by cases h), fun h => absurd (h.2.1 (by simp [chunk])) hp⟩
  | flag f values =>
    have hchunk : chunk (.flag f values) ≠ none → positionals occs = [] := fun h => absurd rfl h
    rw [take]
    rcases values_of_fed ho with ⟨hf, rfl⟩ | ⟨hf, value, rfl⟩
    · cases f with
      | number | address => cases hf
      | help => exact ⟨fun h => (by cases h), fun h => h.1.elim⟩
      | verbose | sequential | random =>
        rw [said_flag (by simp) (by simp)]
        exact ⟨fun h => ⟨trivial, hchunk, (Except.ok.inj h).symm⟩, fun h => congrArg _ h.2.2.symm⟩
    · cases f with
      | help | verbose | sequential | random => cases hf
      | address =>
        rw [said_address]
        exact ⟨fun h => ⟨trivial, hchunk, (Except.ok.inj h).symm⟩, fun h => congrArg _ h.2.2.symm⟩
      | number n =>
        have hpv : parser.parseValue (.number n) [value] (parser.mark (.number n) (said occs)) =
            (do
              let i ← valueReader n.name value
              return { (said occs).mark (.number n) with
                number := Function.update (said occs).number n i }) := rfl
        rw [hpv, except_bind_eq_ok]
        constructor
        · rintro ⟨i, hi, h⟩
          have hi' := valueReader_eq_ok.1 hi
          refine ⟨fun v hv => ?_, hchunk, ?_⟩
          · obtain rfl := Option.some.inj hv
            rw [hi']
            exact Option.some_ne_none i
          · rw [said_number hi']
            exact (Except.ok.inj h).symm
        · rintro ⟨hread, -, rfl⟩
          obtain ⟨i, hi⟩ := Option.ne_none_iff_exists'.1 (hread value rfl)
          exact ⟨i, valueReader_eq_ok.2 hi, by rw [said_number hi]; rfl⟩

/-! ## All occurrences -/

theorem takeAll_iff (hfed : ∀ o ∈ occs, parser.Fed o) : parser.takeAll occs .reset = .ok a ↔
    (∀ o ∈ occs, Readable o) ∧ (positionals occs).length ≤ 1 ∧ a = said occs := by
  rw [← and_assoc]
  refine takeAll_iff_of_take said
    (fun occs => (∀ o ∈ occs, Readable o) ∧ (positionals occs).length ≤ 1)
    ⟨fun o ho => (by cases ho), Nat.zero_le _⟩ ?_ hfed
  intro occs o a ho
  have hlen : (positionals (occs ++ [o])).length ≤ 1 ↔
      (positionals occs).length ≤ 1 ∧ (chunk o ≠ none → positionals occs = []) := by
    cases o with
    | flag f values => simp [chunk]
    | positional c =>
      rw [positionals_positional, List.length_append, List.length_singleton]
      constructor
      · intro h
        have h0 : positionals occs = [] := List.length_eq_zero_iff.1 (by omega)
        exact ⟨by omega, fun _ => h0⟩
      · rintro ⟨-, h⟩
        rw [h (by simp [chunk])]
        exact Nat.le_refl _
  rw [List.forall_mem_append, List.forall_mem_singleton, hlen, take_iff ho]
  constructor
  · rintro ⟨⟨hread, hpos⟩, hr, hc, ha⟩
    exact ⟨⟨⟨hread, hr⟩, hpos, hc⟩, ha⟩
  · rintro ⟨⟨⟨hread, hr⟩, hpos, hc⟩, ha⟩
    exact ⟨⟨hread, hpos⟩, hr, hc, ha⟩

end

/-! ## Command lines -/

theorem validate_iff {occs : List (Occ Flag)} : parser.validate (said occs) = .ok () ↔
    (given .sequential occs = [] ↔ given .random occs ≠ []) := by
  have hcount : playbackType.countP (said occs).matched = 1 ↔
      (given .sequential occs = [] ↔ given .random occs ≠ []) := by
    show [Flag.sequential, Flag.random].countP (fun f => !(given f occs).isEmpty) = 1 ↔ _
    by_cases hs : given .sequential occs = [] <;> by_cases hr : given .random occs = [] <;>
      simp [hs, hr]
  show (if playbackType.countP (said occs).matched = 1 then _ else _) = _ ↔ _
  by_cases h : given .sequential occs = [] ↔ given .random occs ≠ []
  · rw [if_pos (hcount.2 h)]
    exact ⟨fun _ => h, fun _ => rfl⟩
  · rw [if_neg (mt hcount.1 h)]
    exact ⟨fun h' => (by cases h'), fun h' => absurd h' h⟩

/-- **What the program reads**: the lines of the grammar that ask for no help,
    whose numbers are numbers, with one file at most and one way to replay, as
    the last values given. -/
theorem reads_iff (args : List Str) (a : Arguments) : parser.parseCLI .reset args = .ok a ↔
    ∃ occs, parser.Line args occs ∧ Accepted occs ∧ a = said occs := by
  rw [parseCLI_eq_ok]
  constructor
  · rintro ⟨occs, hline, htake, hval⟩
    obtain ⟨hread, hpos, rfl⟩ := (takeAll_iff hline.fed).1 htake
    exact ⟨occs, hline, ⟨hread, hpos, validate_iff.1 hval⟩, rfl⟩
  · rintro ⟨occs, hline, ⟨hread, hpos, hexcl⟩, rfl⟩
    exact ⟨occs, hline, (takeAll_iff hline.fed).2 ⟨hread, hpos, rfl⟩, validate_iff.2 hexcl⟩

/-! ## The order of the options -/

theorem readable_iff {occs : List (Occ Flag)} : (∀ o ∈ occs, Readable o) ↔
    given .help occs = [] ∧ ∀ n, ∀ values ∈ given (.number n) occs, ∀ value ∈ values.head?,
      readInt value ≠ none := by
  constructor
  · intro h
    refine ⟨List.eq_nil_iff_forall_not_mem.2 fun values hv => ?_, fun n values hv => ?_⟩
    · exact h _ (mem_given.1 hv)
    · exact h _ (mem_given.1 hv)
  · rintro ⟨hhelp, hnum⟩ o ho
    cases o with
    | positional c => trivial
    | flag f values =>
      have hv := mem_given.2 ho
      cases f with
      | help =>
        rw [hhelp] at hv
        cases hv
      | number n => exact hnum n values hv
      | verbose | sequential | random | address => trivial

section
variable {occs occs' : List (Occ Flag)}

theorem accepted_congr (hgiven : ∀ f, given f occs = given f occs')
    (hpos : positionals occs = positionals occs') (h : Accepted occs) : Accepted occs' := by
  obtain ⟨hread, hlen, hexcl⟩ := h
  obtain ⟨hhelp, hnum⟩ := readable_iff.1 hread
  refine ⟨readable_iff.2 ⟨hgiven .help ▸ hhelp, fun n => hgiven (.number n) ▸ hnum n⟩,
    hpos ▸ hlen, ?_⟩
  rwa [← hgiven, ← hgiven]

theorem said_congr (hgiven : ∀ f, given f occs = given f occs')
    (hpos : positionals occs = positionals occs') : said occs = said occs' := by
  have hlast : ∀ f, lastGiven f occs = lastGiven f occs' := fun f => by
    rw [lastGiven, hgiven, lastGiven]
  simp only [said, hgiven, hlast, hpos]

end

/-- Two of three events. -/
def twoOfThree : List (Occ Flag) :=
  [.flag .sequential [], .flag (.number .count) ["2".toList], .flag (.number .every) ["2".toList],
    .positional "in.h5".toList]

/-- Lines that give each option the same values, in whatever order the options
    come and however they are spelled, are read alike. -/
theorem reordered (args args' : List Str) (occs occs' : List (Occ Flag)) (a : Arguments)
    (h : parser.Line args occs) (h' : parser.Line args' occs')
    (hgiven : ∀ f, given f occs = given f occs') (hpos : positionals occs = positionals occs') :
    parser.parseCLI .reset args = .ok a ↔ parser.parseCLI .reset args' = .ok a := by
  rw [reads_iff, reads_iff]
  constructor
  · rintro ⟨o, ho, hacc, rfl⟩
    obtain rfl := ho.unique h
    exact ⟨occs', h', accepted_congr hgiven hpos hacc, said_congr hgiven hpos⟩
  · rintro ⟨o, ho, hacc, rfl⟩
    obtain rfl := ho.unique h'
    exact ⟨occs, h, accepted_congr (fun f => (hgiven f).symm) hpos.symm hacc,
      (said_congr hgiven hpos).symm⟩

theorem reordered_twoOfThree :
    parser.parseCLI .reset ["--every=2".toList, "in.h5".toList, "-n".toList, "2".toList,
      "-s".toList] = .ok (said twoOfThree) ↔
      parser.parseCLI .reset ["-sn2".toList, "--every=2".toList, "in.h5".toList] =
        .ok (said twoOfThree) := by
  refine reordered _ _ [.flag (.number .every) ["2".toList], .positional "in.h5".toList,
    .flag (.number .count) ["2".toList], .flag .sequential []] twoOfThree _
    (lex_iff.1 rfl) (lex_iff.1 rfl) (fun f => ?_) rfl
  cases f with
  | number n => cases n <;> rfl
  | help | verbose | sequential | random | address => rfl

/-! ## Other endings -/

/-- An occurrence fails if it asks for help, or with a parse error. -/
theorem take_error {o : Occ Flag} {a : Arguments} {e : Error} (h : parser.take o a = .error e) :
    (∃ values, o = .flag .help values) ∧ e = .help "help".toList ∨ ∃ text, e = .parse text := by
  cases o with
  | positional c =>
    rw [take] at h
    split_ifs at h
    · cases h
    · exact Or.inr ⟨_, (Except.error.inj h).symm⟩
  | flag f values =>
    cases f with
    | help => exact Or.inl ⟨⟨values, rfl⟩, (Except.error.inj h).symm⟩
    | verbose | sequential | random => cases h
    | address => cases values <;> cases h
    | number n =>
      cases values with
      | nil => cases h
      | cons value more =>
        have hv : (valueReader n.name value >>= _) = Except.error e := h
        rw [valueReader] at hv
        cases hi : readInt value with
        | some i => rw [hi] at hv; cases hv
        | none =>
          rw [hi] at hv
          exact Or.inr ⟨_, (Except.error.inj hv).symm⟩

theorem validate_error {a : Arguments} {e : Error} (h : parser.validate a = .error e) :
    e = .validation "Group validation failed somewhere!".toList ∧ parser.validate a ≠ .ok () := by
  have hv : (if playbackType.countP a.matched = 1 then Except.ok ()
      else .error (.validation "Group validation failed somewhere!".toList)) = Except.error e := h
  split_ifs at hv
  refine ⟨(Except.error.inj hv).symm, ?_⟩
  rw [h]
  simp

/-- Help is shown for the first `-h` before which everything can be read. -/
theorem parse_help_iff {args : List Str} :
    (∃ text, parser.parseCLI .reset args = .error (.help text)) ↔
      ∃ pre values post, (parser.lex args).occs = pre ++ .flag .help values :: post ∧
        (∀ o ∈ pre, Readable o) ∧ (positionals pre).length ≤ 1 := by
  have hfed : ∀ o ∈ (parser.lex args).occs, parser.Fed o := lexFrom_fed
  simp only [parseCLI_eq_error]
  constructor
  · rintro ⟨text, ⟨pre, o, post, a, hsplit, htake, herr⟩ | ⟨a, -, herr | ⟨-, hval⟩⟩⟩
    · rw [hsplit] at hfed
      obtain ⟨hread, hpos, rfl⟩ := (takeAll_iff fun o ho => hfed o (by simp [ho])).1 htake
      rcases take_error herr with ⟨⟨values, rfl⟩, -⟩ | ⟨_, h'⟩
      · exact ⟨pre, values, post, hsplit, hread, hpos⟩
      · cases h'
    · obtain ⟨_, h'⟩ := lexFrom_error herr
      cases h'
    · cases (validate_error hval).1
  · rintro ⟨pre, values, post, hsplit, hread, hpos⟩
    rw [hsplit] at hfed
    have htake : parser.takeAll pre .reset = .ok (said pre) :=
      (takeAll_iff fun o ho => hfed o (by simp [ho])).2 ⟨hread, hpos, rfl⟩
    exact ⟨"help".toList, Or.inl ⟨pre, _, post, _, hsplit, htake, rfl⟩⟩

/-- Validation fails on lines that are read but do not say how to replay, or
    say it twice. -/
theorem parse_validation_iff {args : List Str} {text : Str} :
    parser.parseCLI .reset args = .error (.validation text) ↔
      text = "Group validation failed somewhere!".toList ∧ ∃ occs, parser.Line args occs ∧
        (∀ o ∈ occs, Readable o) ∧ (positionals occs).length ≤ 1 ∧
        (given .sequential occs = [] ↔ given .random occs = []) := by
  have hnot : ∀ occs, parser.validate (said occs) ≠ .ok () ↔
      (given .sequential occs = [] ↔ given .random occs = []) := fun occs => by
    rw [ne_eq, validate_iff]
    tauto
  rw [parseCLI_eq_error]
  constructor
  · rintro (⟨_, o, _, a, -, -, herr⟩ | ⟨a, htake, herr | ⟨hnone, hval⟩⟩)
    · rcases take_error herr with ⟨-, h'⟩ | ⟨_, h'⟩ <;> cases h'
    · obtain ⟨_, h'⟩ := lexFrom_error herr
      cases h'
    · have hline : parser.Line args (parser.lex args).occs := lex_iff.1 (Lexed.ext rfl hnone)
      obtain ⟨hread, hpos, rfl⟩ := (takeAll_iff hline.fed).1 htake
      obtain ⟨htext, hne⟩ := validate_error hval
      exact ⟨Error.validation.inj htext, _, hline, hread, hpos, (hnot _).1 hne⟩
  · rintro ⟨rfl, occs, hline, hread, hpos, hexcl⟩
    have htake := (takeAll_iff hline.fed).2 ⟨hread, hpos, rfl⟩
    refine Or.inr ⟨said occs, by rw [lex_iff.2 hline, htake], Or.inr ⟨by rw [lex_iff.2 hline], ?_⟩⟩
    cases hval : parser.validate (said occs) with
    | ok u => exact absurd hval ((hnot occs).2 hexcl)
    | error e => rw [(validate_error hval).1]

/-- No reader of a value throws. -/
theorem parse_ne_reader {args : List Str} {text : Str} :
    parser.parseCLI .reset args ≠ .error (.reader text) := by
  rw [ne_eq, parseCLI_eq_error]
  rintro (⟨_, o, _, a, -, -, herr⟩ | ⟨a, -, herr | ⟨-, hval⟩⟩)
  · rcases take_error herr with ⟨-, h'⟩ | ⟨_, h'⟩ <;> cases h'
  · obtain ⟨_, h'⟩ := lexFrom_error herr
    cases h'
  · cases (validate_error hval).1

section
variable {R FS : Type} [HighFive R FS] [CDouble R] [Host]

omit [HighFive R FS] [CDouble R] [Host] in
theorem ending_eq_replayed {o : Outcome R FS} {out stdout : Str}
    {world : Option (World R FS)} :
    o.ending out = .replayed stdout world ↔ stdout = out ∧ o = ⟨.ok (), world⟩ := by
  obtain ⟨result, w⟩ := o
  cases result with
  | error e => simp [Outcome.ending]
  | ok u => simp [Outcome.ending, eq_comm]

omit [HighFive R FS] [CDouble R] [Host] in
theorem ending_eq_terminate {o : Outcome R FS} {out stdout : Str} {e : Exn}
    {world : Option (World R FS)} :
    o.ending out = .terminate stdout e world ↔ stdout = out ∧ o = ⟨.error e, world⟩ := by
  obtain ⟨result, w⟩ := o
  cases result with
  | error e => simp [Outcome.ending, eq_comm]
  | ok u => simp [Outcome.ending]

/-- A line that is accepted is replayed. -/
theorem readoutReplay_line {args : List Str} {occs : List (Occ Flag)} {clock : UInt64} {fs : FS}
    {socket : ℕ → SendResult} {draws : ℕ → Draw} (hline : parser.Line args occs)
    (hacc : Accepted occs) :
    readoutReplay args clock fs socket draws =
      (main (said occs).options clock fs socket draws).ending (said occs).announcement := by
  rw [readoutReplay, (reads_iff args _).2 ⟨occs, hline, hacc, rfl⟩]

/-- An ending that only a replay has. -/
theorem readoutReplay_eq_iff {args : List Str} {clock : UInt64} {fs : FS}
    {socket : ℕ → SendResult} {draws : ℕ → Draw} {ending : Ending R FS} (hhelp : ending ≠ .help)
    (husage : ∀ text, ending ≠ .usage text)
    (hval : ∀ text, parser.parseCLI .reset args = .error (.validation text) →
      ending ≠ .terminate [] (.runtimeError (String.ofList text)) none) :
    readoutReplay args clock fs socket draws = ending ↔
      ∃ occs, parser.Line args occs ∧ Accepted occs ∧
        (main (said occs).options clock fs socket draws).ending (said occs).announcement =
          ending := by
  constructor
  · intro h
    cases hp : parser.parseCLI .reset args with
    | ok a =>
      obtain ⟨occs, hline, hacc, rfl⟩ := (reads_iff args a).1 hp
      exact ⟨occs, hline, hacc, by rw [← readoutReplay_line hline hacc, h]⟩
    | error e =>
      rw [readoutReplay, hp] at h
      cases e with
      | help text => exact absurd h.symm hhelp
      | parse text => exact absurd h.symm (husage text)
      | validation text => exact absurd h.symm (hval text hp)
      | reader text => exact absurd hp parse_ne_reader
  · rintro ⟨occs, hline, hacc, h⟩
    rw [readoutReplay_line hline hacc, h]

/-- **How the program ends**: on the lines it accepts it ends as the replay
    does, it shows its usage for the first `-h` before which all can be read,
    and it is terminated by an exception that nobody catches if a replay throws
    or a line can be read but does not choose one way to replay.  On other
    lines it complains. -/
theorem ends_iff (args : List Str) (clock : UInt64) (fs : FS) (socket : ℕ → SendResult)
    (draws : ℕ → Draw) :
    (∀ (stdout : Str) (world : Option (World R FS)),
      readoutReplay args clock fs socket draws = .replayed stdout world ↔
        ∃ occs, parser.Line args occs ∧ Accepted occs ∧ stdout = (said occs).announcement ∧
          main (said occs).options clock fs socket draws = ⟨.ok (), world⟩) ∧
    (readoutReplay (R := R) args clock fs socket draws = .help ↔
      ∃ pre values post, (parser.lex args).occs = pre ++ .flag .help values :: post ∧
        (∀ o ∈ pre, Readable o) ∧ (positionals pre).length ≤ 1) ∧
    (∀ (stdout : Str) (e : Exn) (world : Option (World R FS)),
      readoutReplay args clock fs socket draws = .terminate stdout e world ↔
        (∃ occs, parser.Line args occs ∧ Accepted occs ∧ stdout = (said occs).announcement ∧
          main (said occs).options clock fs socket draws = ⟨.error e, world⟩) ∨
        ((∃ occs, parser.Line args occs ∧ (∀ o ∈ occs, Readable o) ∧
            (positionals occs).length ≤ 1 ∧
            (given .sequential occs = [] ↔ given .random occs = [])) ∧
          stdout = [] ∧ e = .runtimeError "Group validation failed somewhere!" ∧
          world = none)) := by
  refine ⟨fun stdout world => ?_, ?_, fun stdout e world => ?_⟩
  · rw [readoutReplay_eq_iff (by simp) (by simp) (by simp)]
    simp only [ending_eq_replayed]
  · rw [← parse_help_iff, readoutReplay]
    cases parser.parseCLI .reset args with
    | ok a =>
      show (main a.options clock fs socket draws).ending _ = _ ↔ _
      rw [Outcome.ending]
      cases (main (R := R) a.options clock fs socket draws).result <;> simp
    | error e => cases e <;> simp
  · simp only [← ending_eq_terminate]
    by_cases hv : ∃ text, parser.parseCLI .reset args = .error (.validation text)
    · obtain ⟨text, hv⟩ := hv
      obtain ⟨rfl, hline⟩ := parse_validation_iff.1 hv
      have hno : ¬ ∃ occs, parser.Line args occs ∧ Accepted occs ∧
          (main (said occs).options clock fs socket draws).ending (said occs).announcement =
            .terminate stdout e world := by
        rintro ⟨occs, hl, hacc, -⟩
        rw [(reads_iff args _).2 ⟨occs, hl, hacc, rfl⟩] at hv
        cases hv
      rw [or_iff_right hno, and_iff_right hline, readoutReplay, hv]
      dsimp only
      rw [String.ofList_toList, Ending.terminate.injEq]
      tauto
    · rw [readoutReplay_eq_iff (by simp) (by simp) fun text h => absurd ⟨text, h⟩ hv, or_iff_left]
      rintro ⟨hline, -⟩
      exact hv ⟨_, parse_validation_iff.2 ⟨rfl, hline⟩⟩

end

/-! ## A command line for all options -/

/-- What a user may want. -/
structure Request where
  options : Options
  verbose : Bool
  address : Option Str
  port : Option Int32

/-- The long name of a flag. -/
def Flag.long (f : Flag) : Str := f.matcher.longFlags.flatten

/-- A flag by its long name, with the value joined to it. -/
def argument (f : Flag) (value : Option Str) : Str :=
  longPrefix ++ f.long ++ value.elim [] (longSeparator :: ·)

namespace Request

variable (q : Request)

def number : Number → Option Int32
  | .count => q.options.count
  | .first => q.options.first
  | .every => q.options.every
  | .port => q.port

/-- Whether a flag is given, and its value if it has one. -/
def value : Flag → Option (Option Str)
  | .help => none
  | .verbose => if q.verbose then some none else none
  | .sequential => if q.options.sequential then some none else none
  | .random => if q.options.random then some none else none
  | .number n => (q.number n).map fun i => some (toString i.toInt).toList
  | .address => q.address.map some

def arguments (fs : List Flag) : List Str := fs.filterMap fun f => (q.value f).map (argument f)

def occs (fs : List Flag) : List (Occ Flag) :=
  fs.filterMap fun f => (q.value f).map fun value => .flag f value.toList

/-- The options, and the file where it is not taken for an option. -/
def commandLine : List Str :=
  q.arguments parser.flags ++ [terminator, q.options.filename.toList]

variable {q}

theorem find_long (f : Flag) : parser.find (.long f.long) = some f := by
  cases f with
  | number n => cases n <;> rfl
  | help | verbose | sequential | random | address => rfl

theorem longSeparator_long (f : Flag) : longSeparator ∉ f.long ∧ f.long ≠ [] := by
  cases f with
  | number n => cases n <;> decide
  | help | verbose | sequential | random | address => decide

theorem nargs_value {f : Flag} {value : Option Str} (h : q.value f = some value) :
    value = none ∧ f.nargs = .exactly 0 ∨ value ≠ none ∧ f.nargs = .exactly 1 := by
  cases f with
  | help => cases h
  | verbose | sequential | random =>
    rw [Request.value] at h
    split_ifs at h
    exact Or.inl ⟨(Option.some.inj h).symm, rfl⟩
  | number n =>
    obtain ⟨i, -, rfl⟩ := Option.map_eq_some_iff.1 h
    exact Or.inr ⟨by simp, rfl⟩
  | address =>
    obtain ⟨a, -, rfl⟩ := Option.map_eq_some_iff.1 h
    exact Or.inr ⟨by simp, rfl⟩

/-- One flag more at the front of a line. -/
theorem line_argument {f : Flag} {value : Option Str} {args : List Str} {occs : List (Occ Flag)}
    (hv : q.value f = some value) (h : parser.Line args occs) :
    parser.Line (argument f value :: args) (.flag f value.toList :: occs) := by
  obtain ⟨hsep, hne⟩ := longSeparator_long f
  rcases nargs_value hv with ⟨rfl, hn⟩ | ⟨hsome, hn⟩
  · have ht : Takes (parser.nargs f) [] args := by
      show Takes f.nargs [] args
      rw [hn]
      exact ⟨Nat.le_refl _, Nat.le_refl _, fun v hv => (by cases hv), Or.inl rfl⟩
    show parser.Line ((longPrefix ++ f.long ++ []) :: ([] ++ args)) _
    rw [List.append_nil]
    exact .long hne hsep (find_long f) ht h
  · obtain ⟨v, rfl⟩ := Option.ne_none_iff_exists'.1 hsome
    have hn' : parser.nargs f = .exactly 1 := hn
    refine .longJoined hsep (find_long f) ?_ ?_ h
    · rw [hn']
      exact Nat.le_refl _
    · rw [hn']
      exact Nat.le_refl _

theorem line_arguments {args : List Str} {occs : List (Occ Flag)} (h : parser.Line args occs) :
    ∀ fs : List Flag, parser.Line (q.arguments fs ++ args) (q.occs fs ++ occs)
  | [] => h
  | f :: fs => by
    have ih := line_arguments h fs
    rw [arguments, Request.occs]
    cases hv : q.value f with
    | none =>
      rw [List.filterMap_cons_none (by rw [hv]; rfl), List.filterMap_cons_none (by rw [hv]; rfl)]
      exact ih
    | some value =>
      rw [List.filterMap_cons_some (b := argument f value) (by rw [hv]; rfl),
        List.filterMap_cons_some (b := Occ.flag f value.toList) (by rw [hv]; rfl)]
      exact line_argument hv ih

theorem line_commandLine : parser.Line q.commandLine
    (q.occs parser.flags ++ [.positional q.options.filename.toList]) :=
  line_arguments (.terminated [q.options.filename.toList]) parser.flags

theorem mem_flags (f : Flag) : f ∈ parser.flags := by
  cases f with
  | number n => cases n <;> decide
  | help | verbose | sequential | random | address => decide

theorem given_occs {f : Flag} : ∀ {fs : List Flag}, fs.Nodup → f ∈ fs →
    given f (q.occs fs) = ((q.value f).map Option.toList).toList := by
  have hnone : ∀ {fs : List Flag}, f ∉ fs → given f (q.occs fs) = [] := by
    intro fs hf
    rw [given, Request.occs, List.filterMap_filterMap, List.filterMap_eq_nil_iff]
    intro g hg
    have hne : g ≠ f := fun h => hf (h ▸ hg)
    cases q.value g with
    | none => rfl
    | some value => exact if_neg hne
  intro fs hnodup hf
  induction fs with
  | nil => cases hf
  | cons g fs ih =>
    obtain ⟨hg, hfs⟩ := List.nodup_cons.1 hnodup
    have hcons : given f (q.occs (g :: fs)) =
        given f ((q.value g).map fun value => .flag g value.toList).toList ++
          given f (q.occs fs) := by
      rw [given, given, given, ← List.filterMap_append, Request.occs, List.filterMap_cons]
      cases q.value g <;> rfl
    rw [hcons]
    by_cases h : g = f
    · subst h
      rw [hnone hg, List.append_nil]
      cases q.value g with
      | none => rfl
      | some value => simp [given, valuesOf]
    · have htail : f ∈ fs := (List.mem_cons.1 hf).resolve_left fun he => h he.symm
      rw [ih hfs htail]
      cases q.value g with
      | none => rfl
      | some value => simp [given, valuesOf, h]

theorem positionals_occs (fs : List Flag) : positionals (q.occs fs) = [] := by
  rw [positionals, Request.occs, List.filterMap_filterMap, List.filterMap_eq_nil_iff]
  intro g _
  cases q.value g <;> rfl

variable (q) in
/-- What the command line says. -/
def line : List (Occ Flag) := q.occs parser.flags ++ [.positional q.options.filename.toList]

theorem given_line (f : Flag) : given f q.line = ((q.value f).map Option.toList).toList := by
  rw [line, given_positional]
  exact given_occs (by decide) (mem_flags f)

theorem positionals_line : positionals q.line = [q.options.filename.toList] := by
  rw [line, positionals_positional, positionals_occs, List.nil_append]

theorem accepted_line (h : q.options.sequential ≠ q.options.random) : Accepted q.line := by
  refine ⟨readable_iff.2 ⟨by rw [given_line]; rfl, fun n values hv value hvalue => ?_⟩, ?_, ?_⟩
  · rw [given_line] at hv
    cases hq : q.number n with
    | none =>
      rw [Request.value, hq] at hv
      cases hv
    | some i =>
      rw [Request.value, hq] at hv
      obtain rfl := List.mem_singleton.1 hv
      obtain rfl := Option.some.inj hvalue
      rw [readInt_toString]
      exact Option.some_ne_none i
  · rw [positionals_line]
    exact Nat.le_refl _
  · rw [given_line, given_line, Request.value, Request.value]
    cases hs : q.options.sequential <;> cases hr : q.options.random <;> simp_all

theorem matched_line (f : Flag) : (said q.line).matched f = (q.value f).isSome := by
  show (!(given f q.line).isEmpty) = _
  rw [given_line]
  cases q.value f <;> rfl

theorem number_line (n : Number) : (said q.line).number? n = q.number n := by
  have hnum : (said q.line).number n = (q.number n).getD 0 := by
    show ((lastGiven (.number n) q.line).bind readInt).getD 0 = _
    rw [lastGiven, given_line, Request.value]
    cases q.number n with
    | none => rfl
    | some i =>
      show (readInt (toString i.toInt).toList).getD 0 = i
      rw [readInt_toString]
      rfl
  rw [Arguments.number?, matched_line, hnum, Request.value]
  cases q.number n <;> rfl

theorem target_line : (said q.line).target = q.address.getD "127.0.0.1".toList := by
  have haddr : (said q.line).address = q.address.getD [] := by
    show (lastGiven .address q.line).getD [] = _
    rw [lastGiven, given_line, Request.value]
    cases q.address <;> rfl
  rw [Arguments.target, matched_line, haddr, Request.value]
  cases q.address <;> rfl

theorem options_line : (said q.line).options = q.options := by
  have hs : (said q.line).matched .sequential = q.options.sequential := by
    rw [matched_line, Request.value]
    cases q.options.sequential <;> rfl
  have hr : (said q.line).matched .random = q.options.random := by
    rw [matched_line, Request.value]
    cases q.options.random <;> rfl
  have hfile : String.ofList (said q.line).filename = q.options.filename := by
    show String.ofList ((positionals q.line).getLast?.getD []) = _
    rw [positionals_line]
    exact String.ofList_toList
  rw [Arguments.options, hs, hr, hfile, number_line, number_line, number_line]
  rfl

end Request

/-- **Every request can be made**: whatever the options, the address, the port
    and the name of the file, the parser reads them back from the command line
    that spells them out. -/
theorem spelled (q : Request) (h : q.options.sequential ≠ q.options.random) :
    ∃ a, parser.parseCLI .reset q.commandLine = .ok a ∧ a.options = q.options ∧
      a.matched .verbose = q.verbose ∧ a.target = q.address.getD "127.0.0.1".toList ∧
      a.port = q.port.getD 9000 := by
  have hread := (reads_iff q.commandLine (said q.line)).2
    ⟨q.line, Request.line_commandLine, Request.accepted_line h, rfl⟩
  refine ⟨_, hread, Request.options_line, ?_, Request.target_line, ?_⟩
  · rw [Request.matched_line, Request.value]
    cases q.verbose <;> rfl
  · rw [Arguments.port, Request.number_line]
    rfl

theorem spelled_loud :
    let q : Request := ⟨⟨true, false, some 0, none, none, "-r"⟩, true, none, some (-1)⟩
    ∃ a, parser.parseCLI .reset q.commandLine = .ok a ∧ a.options = q.options ∧
      a.matched .verbose = true ∧ a.port = -1 := by
  intro q
  obtain ⟨a, h, h1, h2, -, h4⟩ := spelled q (by decide)
  exact ⟨a, h, h1, h2, h4⟩

/-! ## From the command line to the wire -/

/-- The conversion of an `int` that is not negative. -/
theorem toNat_size_t {i : Int32} (h : 0 ≤ i.toInt) : i.toInt64.toUInt64.toNat = i.toInt.toNat := by
  have h64 : i.toInt64.toInt = i.toInt := Int32.toInt_toInt64 i
  have hcond : i.toInt64.toInt = if 2 * i.toInt64.toUInt64.toNat < 2 ^ 64
      then (i.toInt64.toUInt64.toNat : Int) else i.toInt64.toUInt64.toNat - 2 ^ 64 :=
    BitVec.toInt_eq_toNat_cond i.toInt64.toBitVec
  have hlt : i.toInt64.toUInt64.toNat < 2 ^ 64 := UInt64.toNat_lt _
  split_ifs at hcond <;> omega

theorem choice_and_random (sequential random : Bool) :
    (NONE ||| (if sequential then SEQUENTIAL else 0) ||| (if random then RANDOM else 0)) &&& RANDOM
      = 0 ↔ random = false := by
  cases sequential <;> cases random <;> decide

/-- `COUNT`, `FIRST` and `EVERY` as a command line gives them. -/
def countOf (o : Options) : Int := (o.count.getD (-1)).toInt
def firstOf (o : Options) : Int := (o.first.getD 0).toInt
def everyOf (o : Options) : Int := (o.every.getD 1).toInt

/-- The events that a command line selects. -/
def selected (o : Options) : List ℕ :=
  (List.range (countOf o).toNat).map fun j => (firstOf o).toNat + j * (everyOf o).toNat

section
variable {R FS : Type} [HighFive R FS] [CDouble R] [Host]

/-- **From the command line to the wire.**  The program replays the events that
    an accepted command line selects, if they are in its file: it transmits
    their items, in order with `-s` and in some order with `-r`. -/
theorem line_replays {args : List Str} {occs : List (Occ Flag)} {fs : FS} {f : H5File R}
    {name : String} {d : DetectorType} {t : ReadoutType} {ds : DataSet R} {clock : UInt64}
    {socket : ℕ → SendResult} {draws : ℕ → Draw} {w : World R FS}
    (hline : parser.Line args occs) (hacc : Accepted occs)
    (hf : HighFive.openReadOnly fs (said occs).options.filename = some f)
    (hs : f.Stores name d t ds) (ht : readoutTypeFromDetectorType d = .ok t) (hM : t ≠ .MAGIC)
    (hcount : 0 < countOf (said occs).options) (hfirst : 0 ≤ firstOf (said occs).options)
    (hevery : 0 ≤ everyOf (said occs).options)
    (hin : ∀ i ∈ selected (said occs).options, i < ds.rows.length)
    (hm : (countOf (said occs).options).toNat * 8 ≤ Host.memory)
    (hw : Readout.make d.code.toNat ⟨1, 0⟩ (EfuTime.now clock) fs socket draws = .ok w) :
    ∃ order : List ℕ, order.Perm (selected (said occs).options) ∧
      (given .sequential occs ≠ [] → order = selected (said occs).options) ∧
      ∃ calls : List (AddCall R),
        calls.map some = order.map (fun i => (eventCalls FS t ds)[i]?) ∧
        ∃ replayed, readoutReplay args clock fs socket draws =
            .replayed (said occs).announcement (some replayed) ∧
          Transmits t replayed (itemsOf t draws calls) := by
  set o := (said occs).options with ho
  set number := (o.count.getD (-1)).toInt64.toUInt64 with hnumber
  set first := (o.first.getD 0).toInt64.toUInt64 with hfst
  set every := (o.every.getD 1).toInt64.toUInt64 with hevr
  set control := NONE ||| (if o.sequential then SEQUENTIAL else 0) |||
    (if o.random then RANDOM else 0) with hcontrol
  have hn : number.toNat = (countOf o).toNat := toNat_size_t (Int.le_of_lt hcount)
  have h1 : first.toNat = (firstOf o).toNat := toNat_size_t hfirst
  have h2 : every.toNat = (everyOf o).toNat := toNat_size_t hevery
  have hindexes : selected o = subsetIndexes first number every := by
    rw [selected, subsetIndexes, hn, h1, h2]
  have hpos : 0 < number.toNat := by omega
  have hlt : first.toNat + (number.toNat - 1) * every.toNat < ds.rows.length := by
    refine hin _ ?_
    rw [hindexes]
    exact List.mem_map.2 ⟨number.toNat - 1, List.mem_range.2 (by omega), rfl⟩
  have hlen : (eventCalls FS t ds).length = ds.rows.length := List.length_map _
  obtain ⟨order, hperm, hseq, hcalls⟩ : Picks (eventCalls FS t ds)
      (subsetIndexes first number every) control
      (subsetCalls (eventCalls FS t ds) first number every control) :=
    picks_subsetCalls (hlen ▸ hlt) (hlen ▸ ds.length_lt)
  obtain ⟨hall, htrans⟩ := transmits_run ht hM hw
    (subsetCalls (eventCalls FS t ds) first number every control)
  rw [← hindexes] at hperm hseq
  refine ⟨order, hperm, fun hgiven => hseq ?_, _, hcalls, _, ?_, htrans⟩
  · rw [hcontrol, choice_and_random]
    have hnone : given .random occs = [] := by
      by_contra hr
      exact hgiven (hacc.exclusive.2 hr)
    show (!(given .random occs).isEmpty) = false
    rw [hnone]
    rfl
  · have hrun : chunkReplay FS ⟨some ds, d, t⟩ Readout.addReadout first number every control w =
        .ok () (run (AddCall.perform Readout.addReadout) w
          (subsetCalls (eventCalls FS t ds) first number every control)) := by
      rw [chunkReplay_subset hM hlt (by rwa [hn])]
      exact forM_eq_ok.2 ⟨hall, rfl⟩
    have hne : o.count.getD (-1) ≠ 0 := by
      intro h0
      rw [countOf, h0] at hcount
      exact absurd hcount (by decide)
    have hmain : main o clock fs socket draws =
        replaySubset o.filename first number every control clock fs socket draws := if_pos hne
    rw [readoutReplay_line hline hacc, ending_eq_replayed]
    exact ⟨rfl, hmain.trans (replaySubset_ok hf hs hM hpos (by rwa [hn]) hw hrun)⟩

end

theorem line_replays_twoOfThree :
    ∃ replayed stdout, readoutReplay ["-sn2".toList, "--every=2".toList, "in.h5".toList] 10000000000
        Disk.withEvents openSocket ones = .replayed stdout (some replayed) ∧
      ∃ calls : List (AddCall ℚ), calls.map some =
          [0, 2].map (fun i => (eventCalls (Disk ℚ) .CAEN threeEvents)[i]?) ∧
        Transmits .CAEN replayed (itemsOf .CAEN ones calls) := by
  have hnow : (EfuTime.now 10000000000).sub ⟨1, 0⟩ = .ok ⟨9, 0⟩ := by decide +kernel
  have hline : parser.Line ["-sn2".toList, "--every=2".toList, "in.h5".toList] twoOfThree :=
    lex_iff.1 rfl
  have hacc : Accepted twoOfThree :=
    ⟨readable_iff.2 ⟨rfl, fun n => by cases n <;> decide +kernel⟩, by decide, by decide⟩
  have hsel : selected (said twoOfThree).options = [0, 2] := by decide +kernel
  obtain ⟨order, -, hseq, calls, hcalls, replayed, hend, htrans⟩ :=
    line_replays hline hacc open_withEvents H5File.stores_written rfl (by decide)
      (by decide +kernel) (by decide +kernel) (by decide +kernel) (by rw [hsel]; decide)
      (by decide +kernel)
      (make_eq (detectorTypeFromInt_code .LOKI) hnow)
  rw [hseq (by decide), hsel] at hcalls
  exact ⟨replayed, _, hend, calls, hcalls, htrans⟩

end Replay

end ReadoutMaster
