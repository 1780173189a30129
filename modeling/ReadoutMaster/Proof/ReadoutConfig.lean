/-
  What `readout-config` answers.

  An occurrence of a placeholder starts with its only `<`, so two of them do not
  overlap, and none reaches from a path into the text around it.  The loop that
  expands placeholders therefore ends unless the path holds one itself.

  * `version_order`: the integers of versions are in their order;
  * `linkerFlags_iff`, `compilerFlags_iff`: when there are flags, and which;
  * `answers_iff`: what the program answers to command lines;
  * `shows_flags`: command lines that ask for flags.
-/
import ReadoutMaster.Proof.CommandLine
import ReadoutMaster.ReadoutConfig

namespace ReadoutMaster

namespace Config

open Args Machine ArgumentParser

/-! ## Versions -/

/-- A version with what follows it. -/
structure Version where
  major : ℕ
  minor : ℕ
  patch : ℕ
  suffix : Str

namespace Version

def text (v : Version) : Str :=
  Nat.toDigits 10 v.major ++ '.' :: (Nat.toDigits 10 v.minor ++ '.' ::
    (Nat.toDigits 10 v.patch ++ v.suffix))

/-- The numbers are those of an `int`, and what follows them is none. -/
structure Plain (v : Version) : Prop where
  major : v.major ≤ 2147483647
  minor : v.minor ≤ 2147483647
  patch : v.patch ≤ 2147483647
  suffix : v.suffix.takeWhile Char.isDigit = []

def Before (v v' : Version) : Prop :=
  v.major < v'.major ∨ v.major = v'.major ∧
    (v.minor < v'.minor ∨ v.minor = v'.minor ∧ v.patch < v'.patch)

end Version

theorem dropWhile_toDigits (n : ℕ) (rest : Str) :
    (Nat.toDigits 10 n ++ rest).dropWhile (· ≠ '.') = rest.dropWhile (· ≠ '.') := by
  refine List.dropWhile_append_of_pos fun c hc => ?_
  have hd := isDigit_toDigits hc
  refine decide_eq_true ?_
  rintro rfl
  exact absurd hd (by decide)

theorem versionLoop_dot {k : ℕ} {result : Int} {n : ℕ} (hn : n ≤ 2147483647) (rest : Str) :
    versionLoop (k + 1) result (Nat.toDigits 10 n ++ '.' :: rest) =
      versionLoop k (result * 100 + n) rest := by
  have htake : takeInt (Nat.toDigits 10 n ++ '.' :: rest) = some ((n : Int), '.' :: rest) :=
    takeInt_toDigits hn rfl
  rw [versionLoop, htake, dropWhile_toDigits]
  rfl

theorem versionLoop_last {result : Int} {n : ℕ} (hn : n ≤ 2147483647) {suffix : Str}
    (hs : suffix.takeWhile Char.isDigit = []) :
    versionLoop 1 result (Nat.toDigits 10 n ++ suffix) = .ok (result * 100 + n) := by
  rw [versionLoop, takeInt_toDigits hn hs, dropWhile_toDigits]
  cases suffix.dropWhile (· ≠ '.') <;> rfl

theorem versionInteger_text {v : Version} (h : v.Plain) :
    versionInteger v.text = .ok (v.major * 10000 + v.minor * 100 + v.patch) := by
  rw [versionInteger, Version.text, versionLoop_dot h.major, versionLoop_dot h.minor,
    versionLoop_last h.patch h.suffix]
  exact congrArg _ (by omega)

/-- **The integers of versions are in their order** as long as there are less
    than a hundred minor versions and patches, and the major one fits into an
    `int`. -/
theorem version_order {v v' : Version} (h : v.Plain) (h' : v'.Plain)
    (hminor : v.minor < 100) (hpatch : v.patch < 100) (hminor' : v'.minor < 100)
    (hpatch' : v'.patch < 100) :
    ∃ i i', versionInteger v.text = .ok i ∧ versionInteger v'.text = .ok i' ∧
      (i < i' ↔ v.Before v') := by
  refine ⟨_, _, versionInteger_text h, versionInteger_text h', ?_⟩
  rw [Version.Before]
  omega

theorem version_order_minor :
    ∃ i i', versionInteger "0.9.12-rc1".toList = .ok i ∧ versionInteger "0.10.2".toList = .ok i' ∧
      i < i' := by
  have hold : Version.Plain ⟨0, 9, 12, "-rc1".toList⟩ := ⟨by decide, by decide, by decide, rfl⟩
  have hnew : Version.Plain ⟨0, 10, 2, []⟩ := ⟨by decide, by decide, by decide, rfl⟩
  obtain ⟨i, i', h, h', hlt⟩ := version_order hold hnew (by decide) (by decide) (by decide)
    (by decide)
  exact ⟨i, i', h, h', hlt.2 (Or.inr ⟨rfl, Or.inl (by decide)⟩)⟩

/-! ## Placeholders -/

section
variable {str s t r dir line : Str} {x c : Char} {xs : Str}

/-- A prefix without a character ends before it. -/
theorem prefix_of_not_mem (h : str <+: s ++ c :: t) (hc : c ∉ str) : str <+: s := by
  rcases List.prefix_or_prefix_of_prefix h (List.prefix_append s (c :: t)) with hs | ⟨u, rfl⟩
  · exact hs
  · rw [List.prefix_append_right_inj] at h
    cases u with
    | nil => simp
    | cons d u =>
      obtain ⟨rfl, -⟩ := List.cons_prefix_cons.1 h
      exact absurd (List.mem_append_right s List.mem_cons_self) hc

/-- An occurrence without a character is on one side of it. -/
theorem infix_of_not_mem (h : str <:+: s ++ c :: t) (hc : c ∉ str) : str <:+: s ∨ str <:+: t := by
  induction s with
  | nil =>
    rcases List.infix_cons_iff.1 h with hp | hi
    · exact Or.inl (prefix_of_not_mem (s := []) hp hc).isInfix
    · exact Or.inr hi
  | cons d s ih =>
    rcases List.infix_cons_iff.1 h with hp | hi
    · exact Or.inl (prefix_of_not_mem (s := d :: s) hp hc).isInfix
    · exact (ih hi).imp_left fun hs => hs.trans (List.suffix_cons d s).isInfix

/-- An occurrence is not in a text without its first character. -/
theorem infix_of_first (h : x :: xs <:+: s ++ t) (hx : x ∉ s) : x :: xs <:+: t := by
  induction s with
  | nil => exact h
  | cons d s ih =>
    rcases List.infix_cons_iff.1 h with hp | hi
    · exact absurd ((List.cons_prefix_cons.1 hp).1 ▸ List.mem_cons_self) hx
    · exact ih hi (List.not_mem_of_not_mem_cons hx)

theorem find_eq_none_iff (hne : str ≠ []) : find str s = none ↔ ¬ str <:+: s := by
  induction s with
  | nil => simp [find, hne]
  | cons c cs ih =>
    rw [find, List.infix_cons_iff, ← List.isPrefixOf_iff_prefix]
    by_cases hp : str.isPrefixOf (c :: cs) = true
    · simp [hp]
    · simp [hp, ih]

/-- The first occurrence, if the text before it has none. -/
theorem find_append (hxs : x ∉ xs) (hs : ¬ x :: xs <:+: s) (t : Str) :
    find (x :: xs) (s ++ (x :: xs ++ t)) = some s.length := by
  induction s with
  | nil =>
    show find (x :: xs) (x :: (xs ++ t)) = some 0
    rw [find, if_pos]
    exact List.isPrefixOf_iff_prefix.2 (List.prefix_append (x :: xs) t)
  | cons d s ih =>
    rw [List.infix_cons_iff, not_or] at hs
    rw [List.cons_append, find, if_neg, ih hs.2]
    · rfl
    · rw [List.isPrefixOf_iff_prefix, List.cons_prefix_cons]
      rintro ⟨rfl, hp⟩
      exact hs.1 (List.cons_prefix_cons.2 ⟨rfl, prefix_of_not_mem hp hxs⟩)

/-! ## Expanding -/

/-- One iteration. -/
theorem expand_append {n : ℕ} (hxs : x ∉ xs) (hs : ¬ x :: xs <:+: s) (t : Str) :
    expand (x :: xs) r (n + 1) (s ++ (x :: xs ++ t)) = expand (x :: xs) r n (s ++ r ++ t) := by
  have hdrop : (s ++ (x :: xs ++ t)).drop (s.length + (x :: xs).length) = t := by
    rw [← List.append_assoc, ← List.length_append, List.drop_left]
  rw [expand, find_append hxs hs]
  dsimp only
  rw [List.take_left, hdrop]

theorem expand_done {n : ℕ} (hne : str ≠ []) (hs : ¬ str <:+: s) :
    expand str r (n + 1) s = some s := by
  rw [expand, (find_eq_none_iff hne).2 hs]

/-- The number of iterations does not matter if there are enough. -/
theorem expand_unique : ∀ {n m : ℕ} {s line line' : Str}, expand str r n s = some line →
    expand str r m s = some line' → line = line'
  | 0, _, _, _, _, h, _ => by cases h
  | _, 0, _, _, _, _, h => by cases h
  | n + 1, m + 1, s, line, line', h, h' => by
    rw [expand] at h h'
    cases hf : find str s with
    | none =>
      rw [hf] at h h'
      exact Option.some.inj (h.symm.trans h')
    | some pos =>
      rw [hf] at h h'
      exact expand_unique h h'

/-- What is put in place of a placeholder that it holds is expanded for ever. -/
theorem expand_never (hne : str ≠ []) (hr : str <:+: r) : ∀ {n : ℕ} {s : Str}, str <:+: s →
    expand str r n s = none
  | 0, _, _ => rfl
  | n + 1, s, hs => by
    rw [expand]
    cases hf : find str s with
    | none => exact absurd hs ((find_eq_none_iff hne).1 hf)
    | some pos =>
      have hin : r <:+: s.take pos ++ r ++ s.drop (pos + str.length) :=
        ⟨_, _, rfl⟩
      exact expand_never hne hr (hr.trans hin)

/-- A text of a directory and others, which neither holds the placeholder. -/
theorem no_occurrence {a : Str} (hc : c ∉ x :: xs) (ha : x ∉ a) (hdir : ¬ x :: xs <:+: dir)
    (ht : ¬ x :: xs <:+: t) : ¬ x :: xs <:+: a ++ dir ++ c :: t := by
  intro h
  rw [List.append_assoc] at h
  exact (infix_of_not_mem (infix_of_first h ha) hc).elim hdir ht

theorem no_occurrence_of_first (hx : x ∉ s) : ¬ x :: xs <:+: s :=
  fun h => hx (h.subset List.mem_cons_self)

/-- A single placeholder. -/
theorem expand_one {a : Str} (hxs : x ∉ xs) (ha : x ∉ a) (hdir : ¬ x :: xs <:+: dir) :
    expand (x :: xs) dir 2 (a ++ x :: xs) = some (a ++ dir) := by
  have hfirst := expand_append (r := dir) (n := 1) hxs (no_occurrence_of_first ha) []
  rw [List.append_nil, List.append_nil] at hfirst
  rw [hfirst]
  exact expand_done (List.cons_ne_nil x xs) fun h => hdir (infix_of_first h ha)

/-- Two of them, with a character between them that they do not have. -/
theorem expand_two {a b e : Str} (hxs : x ∉ xs) (hc : c ∉ x :: xs) (ha : x ∉ a) (hb : x ∉ b)
    (he : x ∉ e) (hdir : ¬ x :: xs <:+: dir) :
    expand (x :: xs) dir 3 (a ++ x :: xs ++ c :: b ++ x :: xs ++ c :: e) =
      some (a ++ dir ++ c :: b ++ dir ++ c :: e) := by
  have hfirst := expand_append (r := dir) (n := 2) hxs (no_occurrence_of_first ha)
    (c :: b ++ (x :: xs ++ c :: e))
  have hsecond := expand_append (r := dir) (n := 1) hxs
    (no_occurrence hc ha hdir (no_occurrence_of_first hb)) (c :: e)
  have htail : ¬ x :: xs <:+: b ++ dir ++ c :: e :=
    no_occurrence hc hb hdir (no_occurrence_of_first he)
  have hdone : ¬ x :: xs <:+: a ++ dir ++ c :: (b ++ dir ++ c :: e) :=
    no_occurrence hc ha hdir htail
  simp only [List.append_assoc, List.cons_append] at hfirst hsecond hdone ⊢
  rw [hfirst, hsecond]
  exact expand_done (List.cons_ne_nil x xs) hdone

end

/-! ## Flags -/

section
variable {inst : Installation} {dir : Str}

/-- The flags of the linker, with a directory of the library. -/
def Installation.linkerFlags (inst : Installation) (dir : Str) : Str :=
  "-Wl,-rpath,".toList ++ dir ++ " -L".toList ++ dir ++ " -l".toList ++ inst.libname

def compilerFlags (dir : Str) : Str := "-I".toList ++ dir

theorem info_ldflags : inst.info .LDFLAGS = inst.linkerFlags placeholderLibdir := rfl

theorem linkerFlags_eq : inst.linkerFlags dir =
    "-Wl,-rpath,".toList ++ dir ++ ' ' :: ['-', 'L'] ++ dir ++
      ' ' :: (['-', 'l'] ++ inst.libname) := by
  have hL : " -L".toList = ' ' :: ['-', 'L'] := rfl
  have hl : " -l".toList = ' ' :: ['-', 'l'] := rfl
  show "-Wl,-rpath,".toList ++ dir ++ " -L".toList ++ dir ++ " -l".toList ++ inst.libname = _
  rw [List.append_assoc _ " -l".toList, hL, hl]
  rfl

theorem expand_linkerFlags (hdir : ¬ placeholderLibdir <:+: dir) :
    expand placeholderLibdir dir 3 (inst.linkerFlags placeholderLibdir) =
      some (inst.linkerFlags dir) := by
  have hlib : '<' ∉ ['-', 'l'] ++ inst.libname := by
    rw [List.mem_append, not_or]
    exact ⟨by decide, inst.plain⟩
  rw [linkerFlags_eq]
  exact (expand_two (by decide) (by decide) (by decide) (by decide) hlib hdir).trans
    (congrArg some linkerFlags_eq.symm)

theorem expand_compilerFlags (hdir : ¬ placeholderIncludedir <:+: dir) :
    expand placeholderIncludedir dir 2 (compilerFlags placeholderIncludedir) =
      some (compilerFlags dir) :=
  expand_one (by decide) (by decide) hdir

/-- The flags of the linker are there if and only if the directory of the
    library holds no placeholder. -/
theorem linkerFlags_iff {line : Str} : (∃ n, lookupChoice inst n .LDFLAGS = some line) ↔
    ¬ placeholderLibdir <:+: inst.path inst.libdir ∧
      line = inst.linkerFlags (inst.path inst.libdir) := by
  constructor
  · rintro ⟨n, h⟩
    have hdir : ¬ placeholderLibdir <:+: inst.path inst.libdir := by
      intro hdir
      have hin : placeholderLibdir <:+: inst.info .LDFLAGS := by
        rw [info_ldflags, linkerFlags_eq, List.append_assoc, List.append_assoc]
        exact List.infix_append _ _ _
      have hnever : lookupChoice inst n .LDFLAGS = none := expand_never (by decide) hdir hin
      rw [hnever] at h
      cases h
    exact ⟨hdir, expand_unique h (expand_linkerFlags hdir)⟩
  · rintro ⟨hdir, rfl⟩
    exact ⟨3, expand_linkerFlags hdir⟩

theorem compilerFlags_iff {line : Str} : (∃ n, lookupChoice inst n .CFLAGS = some line) ↔
    ¬ placeholderIncludedir <:+: inst.path inst.includedir ∧
      line = compilerFlags (inst.path inst.includedir) := by
  constructor
  · rintro ⟨n, h⟩
    have hdir : ¬ placeholderIncludedir <:+: inst.path inst.includedir := by
      intro hdir
      have hin : placeholderIncludedir <:+: inst.info .CFLAGS := (List.suffix_append _ _).isInfix
      have hnever : lookupChoice inst n .CFLAGS = none := expand_never (by decide) hdir hin
      rw [hnever] at h
      cases h
    exact ⟨hdir, expand_unique h (expand_compilerFlags hdir)⟩
  · rintro ⟨hdir, rfl⟩
    exact ⟨2, expand_compilerFlags hdir⟩

end

/-! ## The meaning of a command line -/

def said (occs : List (Occ Flag)) : Arguments where
  matched f := !(given f occs).isEmpty
  choice := ((lastGiven .choice occs).bind choiceOf).getD .LIBDIR

/-- An occurrence that does not ask for help and names a choice if it should. -/
def Readable : Occ Flag → Prop
  | .flag .help _ | .positional _ => False
  | .flag .choice values => ∀ value ∈ values.head?, choiceOf value ≠ none
  | _ => True

section
variable {f : Flag} {values : List Str} {o : Occ Flag} {occs : List (Occ Flag)} {a : Arguments}

theorem said_flag (hf : f ≠ .choice) : said (occs ++ [.flag f values]) = (said occs).mark f := by
  refine Arguments.ext isGiven_flag ?_
  show ((lastGiven _ _).bind choiceOf).getD _ = ((lastGiven _ _).bind choiceOf).getD _
  rw [lastGiven_other hf.symm]

theorem said_choice {value : Str} {choice : ConfigShow} (h : choiceOf value = some choice) :
    said (occs ++ [.flag .choice [value]]) = { (said occs).mark .choice with choice } := by
  refine Arguments.ext isGiven_flag ?_
  show ((lastGiven _ _).bind choiceOf).getD _ = choice
  rw [lastGiven_flag]
  simp [h]

theorem confgShowReader_eq_ok {name : String} {value : Str} {choice : ConfigShow} :
    confgShowReader name value = .ok choice ↔ choiceOf value = some choice := by
  rw [confgShowReader]
  cases choiceOf value with
  | none => exact ⟨fun h => (by cases h), fun h => (by cases h)⟩
  | some c => exact ⟨fun h => congrArg some (Except.ok.inj h), fun h => (by rw [Option.some.inj h])⟩

/-- The values of an occurrence, by what its flag takes. -/
theorem values_of_fed (h : parser.Fed (.flag f values)) :
    f ≠ .choice ∧ values = [] ∨ f = .choice ∧ ∃ value, values = [value] := by
  obtain ⟨hmin, hmax⟩ := h
  cases f with
  | help | version | intversion =>
    exact Or.inl ⟨by decide, List.length_eq_zero_iff.1 (Nat.le_zero.1 hmax)⟩
  | choice => exact Or.inr ⟨rfl, List.length_eq_one_iff.1 (Nat.le_antisymm hmax hmin)⟩

/-- An occurrence is taken if it can be read, and adds what it says. -/
theorem take_iff (ho : parser.Fed o) :
    parser.take o (said occs) = .ok a ↔ Readable o ∧ a = said (occs ++ [o]) := by
  cases o with
  | positional c => exact ⟨fun h => (by cases h), fun h => h.1.elim⟩
  | flag f values =>
    rcases values_of_fed ho with ⟨hf, rfl⟩ | ⟨rfl, value, rfl⟩
    · rw [said_flag hf]
      cases f with
      | choice => exact absurd rfl hf
      | help => exact ⟨fun h => (by cases h), fun h => h.1.elim⟩
      | version | intversion =>
        exact ⟨fun h => ⟨trivial, (Except.ok.inj h).symm⟩, fun h => congrArg _ h.2.symm⟩
    · have htake : parser.take (.flag .choice [value]) (said occs) = (do
          let choice ← confgShowReader "CHOICE" value
          return { (said occs).mark .choice with choice }) := rfl
      rw [htake, except_bind_eq_ok]
      constructor
      · rintro ⟨choice, hc, h⟩
        have hc' := confgShowReader_eq_ok.1 hc
        refine ⟨fun v hv => ?_, ?_⟩
        · obtain rfl := Option.some.inj hv
          rw [hc']
          exact Option.some_ne_none choice
        · rw [said_choice hc']
          exact (Except.ok.inj h).symm
      · rintro ⟨hread, rfl⟩
        obtain ⟨choice, hc⟩ := Option.ne_none_iff_exists'.1 (hread value rfl)
        exact ⟨choice, confgShowReader_eq_ok.2 hc, by rw [said_choice hc]; rfl⟩

theorem takeAll_iff (hfed : ∀ o ∈ occs, parser.Fed o) :
    parser.takeAll occs .reset = .ok a ↔ (∀ o ∈ occs, Readable o) ∧ a = said occs := by
  refine takeAll_iff_of_take said (fun occs => ∀ o ∈ occs, Readable o)
    (fun o ho => (by cases ho)) ?_ hfed
  intro occs o a ho
  rw [List.forall_mem_append, List.forall_mem_singleton, take_iff ho, and_assoc]

theorem reads_iff {args : List Str} : parser.parseCLI .reset args = .ok a ↔
    ∃ occs, parser.Line args occs ∧ (∀ o ∈ occs, Readable o) ∧ a = said occs := by
  rw [parseCLI_eq_ok]
  constructor
  · rintro ⟨occs, hline, htake, -⟩
    exact ⟨occs, hline, (takeAll_iff hline.fed).1 htake⟩
  · rintro ⟨occs, hline, h⟩
    exact ⟨occs, hline, (takeAll_iff hline.fed).2 h, rfl⟩

/-! ## Endings -/

/-- An occurrence fails if it asks for help, is a positional, or names no choice. -/
theorem take_error {e : Error} (ho : parser.Fed o) (h : parser.take o a = .error e) :
    (∃ values, o = .flag .help values) ∧ e = .help "help".toList ∨ (∃ text, e = .parse text) ∨
      ∃ value, o = .flag .choice [value] ∧ choiceOf value = none ∧
        e = .reader (invalidChoice "CHOICE" value) := by
  cases o with
  | positional c => exact Or.inr (Or.inl ⟨_, (Except.error.inj h).symm⟩)
  | flag f values =>
    rcases values_of_fed ho with ⟨hf, rfl⟩ | ⟨rfl, value, rfl⟩
    · cases f with
      | choice => exact absurd rfl hf
      | help => exact Or.inl ⟨⟨[], rfl⟩, (Except.error.inj h).symm⟩
      | version | intversion => cases h
    · have hv : (confgShowReader "CHOICE" value >>= _) = Except.error e := h
      rw [confgShowReader] at hv
      cases hc : choiceOf value with
      | some choice => rw [hc] at hv; cases hv
      | none =>
        rw [hc] at hv
        exact Or.inr (Or.inr ⟨value, rfl, hc, (Except.error.inj hv).symm⟩)

/-- Where an error that is no parse error comes from. -/
theorem parse_error_iff {args : List Str} {e : Error} (he : ∀ text, e ≠ .parse text) :
    parser.parseCLI .reset args = .error e ↔
      ∃ pre o post, (parser.lex args).occs = pre ++ o :: post ∧ (∀ o ∈ pre, Readable o) ∧
        ((∃ values, o = .flag .help values) ∧ e = .help "help".toList ∨
          ∃ value, o = .flag .choice [value] ∧ choiceOf value = none ∧
            e = .reader (invalidChoice "CHOICE" value)) := by
  have hfed : ∀ o ∈ (parser.lex args).occs, parser.Fed o := lexFrom_fed
  rw [parseCLI_eq_error]
  constructor
  · rintro (⟨pre, o, post, a, hsplit, htake, herr⟩ | ⟨a, -, herr | ⟨-, hval⟩⟩)
    · rw [hsplit] at hfed
      have hread := ((takeAll_iff fun o ho => hfed o (by simp [ho])).1 htake).1
      refine ⟨pre, o, post, hsplit, hread, ?_⟩
      rcases take_error (hfed o (by simp)) herr with h | ⟨text, h⟩ | h
      · exact Or.inl h
      · exact absurd h (he text)
      · exact Or.inr h
    · obtain ⟨text, h⟩ := lexFrom_error herr
      exact absurd h (he text)
    · cases hval
  · rintro ⟨pre, o, post, hsplit, hread, h⟩
    rw [hsplit] at hfed
    have htake : parser.takeAll pre .reset = .ok (said pre) :=
      (takeAll_iff fun o ho => hfed o (by simp [ho])).2 ⟨hread, rfl⟩
    refine Or.inl ⟨pre, o, post, _, hsplit, htake, ?_⟩
    rcases h with ⟨⟨values, rfl⟩, rfl⟩ | ⟨value, rfl, hc, rfl⟩
    · rfl
    · show (confgShowReader "CHOICE" value >>= _) = _
      rw [confgShowReader, hc]
      rfl

end

/-- A line that can be read is answered. -/
theorem readoutConfig_line {inst : Installation} {n : ℕ} {args : List Str} {occs : List (Occ Flag)}
    (hline : parser.Line args occs) (hread : ∀ o ∈ occs, Readable o) :
    readoutConfig inst n args = answer inst n (said occs) := by
  rw [readoutConfig, reads_iff.2 ⟨occs, hline, hread, rfl⟩]

/-- An ending that only an answer has. -/
theorem readoutConfig_eq_iff {inst : Installation} {n : ℕ} {args : List Str} {e : Ending}
    (hhelp : e ≠ .help) (husage : ∀ text, e ≠ .usage text) (hterm : ∀ text, e ≠ .terminate text) :
    readoutConfig inst n args = e ↔ ∃ occs, parser.Line args occs ∧ (∀ o ∈ occs, Readable o) ∧
      answer inst n (said occs) = e := by
  constructor
  · intro h
    cases hp : parser.parseCLI .reset args with
    | ok a =>
      obtain ⟨occs, hline, hread, rfl⟩ := reads_iff.1 hp
      exact ⟨occs, hline, hread, by rw [← readoutConfig_line hline hread, h]⟩
    | error err =>
      rw [readoutConfig, hp] at h
      cases err with
      | help text => exact absurd h.symm hhelp
      | parse text => exact absurd h.symm (husage text)
      | validation text | reader text => exact absurd h.symm (hterm text)
  · rintro ⟨occs, hline, hread, h⟩
    rw [readoutConfig_line hline hread, h]

theorem matched_iff {f : Flag} {occs : List (Occ Flag)} :
    (said occs).matched f = true ↔ given f occs ≠ [] := by
  simp [said]

/-- The line asks for what is looked up: neither for the version nor for its
    integer, and for a choice but `VERSION`. -/
structure Looks (occs : List (Occ Flag)) : Prop where
  version : given .version occs = []
  intversion : given .intversion occs = []
  choice : given .choice occs ≠ []
  other : (said occs).choice ≠ .VERSION

theorem answer_of_looks {inst : Installation} {n : ℕ} {occs : List (Occ Flag)} (h : Looks occs) :
    answer inst n (said occs) =
      (lookupChoice inst n (said occs).choice).elim .unfinished .printed := by
  rw [answer]
  simp only [matched_iff, h.version, h.intversion, h.choice, h.other, ne_eq, not_true_eq_false,
    not_false_eq_true, and_self, if_true, if_false]
  cases lookupChoice inst n (said occs).choice <;> rfl

theorem answer_eq_printed {inst : Installation} {n : ℕ} {occs : List (Occ Flag)} {line : Str} :
    answer inst n (said occs) = .printed line ↔
      (given .version occs ≠ [] ∧ line = inst.version) ∨
      (given .version occs = [] ∧ given .intversion occs ≠ [] ∧
        ∃ i, versionInteger inst.version = .ok i ∧ line = (toString i).toList) ∨
      (Looks occs ∧ lookupChoice inst n (said occs).choice = some line) := by
  rw [answer]
  simp only [matched_iff]
  split_ifs with hv hi hc
  · constructor
    · intro h
      exact Or.inl ⟨hv, (Ending.printed.inj h).symm⟩
    · rintro (⟨-, rfl⟩ | ⟨h, -⟩ | ⟨h, -⟩)
      · rfl
      · exact absurd h hv
      · exact absurd h.version hv
  · have hl : ¬ Looks occs := fun h => hi h.intversion
    cases versionInteger inst.version with
    | error text => simp [not_not.1 hv, hl]
    | ok i =>
      constructor
      · intro h
        exact Or.inr (Or.inl ⟨not_not.1 hv, hi, i, rfl, (Ending.printed.inj h).symm⟩)
      · rintro (⟨h, -⟩ | ⟨-, -, j, hj, rfl⟩ | ⟨h, -⟩)
        · exact absurd h hv
        · rw [Except.ok.inj hj]
        · exact absurd h hl
  · have hl : Looks occs := ⟨not_not.1 hv, not_not.1 hi, hc.1, hc.2⟩
    cases lookupChoice inst n (said occs).choice <;> simp [hl, not_not.1 hv, not_not.1 hi]
  · have hl : ¬ Looks occs := fun h => hc ⟨h.choice, h.other⟩
    simp [hl, not_not.1 hv, not_not.1 hi]

theorem answer_eq_unfinished {inst : Installation} {n : ℕ} {occs : List (Occ Flag)} :
    answer inst n (said occs) = .unfinished ↔
      Looks occs ∧ lookupChoice inst n (said occs).choice = none := by
  constructor
  · intro h
    have hl : Looks occs := by
      rw [answer] at h
      simp only [matched_iff] at h
      split_ifs at h with hv hi hc
      · cases hver : versionInteger inst.version <;> rw [hver] at h <;> cases h
      · exact ⟨not_not.1 hv, not_not.1 hi, hc.1, hc.2⟩
    rw [answer_of_looks hl] at h
    refine ⟨hl, ?_⟩
    cases hlook : lookupChoice inst n (said occs).choice with
    | none => rfl
    | some line => rw [hlook] at h; cases h
  · rintro ⟨hl, hnone⟩
    rw [answer_of_looks hl, hnone]
    rfl

theorem answer_eq_hint {inst : Installation} {n : ℕ} {occs : List (Occ Flag)} :
    answer inst n (said occs) = .hint ↔ given .version occs = [] ∧ given .intversion occs = [] ∧
      (given .choice occs = [] ∨ (said occs).choice = .VERSION) := by
  rw [answer]
  simp only [matched_iff]
  split_ifs with hv hi hc
  · simp [hv]
  · cases versionInteger inst.version <;> simp [hi]
  · cases lookupChoice inst n (said occs).choice <;> simp [hc]
  · rw [not_and_or, not_not, not_not] at hc
    exact ⟨fun _ => ⟨not_not.1 hv, not_not.1 hi, hc⟩, fun _ => rfl⟩

theorem answer_eq_terminate {inst : Installation} {n : ℕ} {occs : List (Occ Flag)} {text : Str} :
    answer inst n (said occs) = .terminate text ↔ given .version occs = [] ∧
      given .intversion occs ≠ [] ∧ versionInteger inst.version = .error text := by
  rw [answer]
  simp only [matched_iff]
  split_ifs with hv hi hc
  · simp [hv]
  · cases versionInteger inst.version with
    | ok i => simp
    | error text => simp [hi, not_not.1 hv]
  · cases lookupChoice inst n (said occs).choice <;> simp [not_not.1 hi]
  · simp [not_not.1 hi]

theorem parse_help_iff {args : List Str} :
    (∃ text, parser.parseCLI .reset args = .error (.help text)) ↔ ∃ pre values post,
      (parser.lex args).occs = pre ++ .flag .help values :: post ∧ ∀ o ∈ pre, Readable o := by
  constructor
  · rintro ⟨text, h⟩
    obtain ⟨pre, o, post, hsplit, hread, ⟨⟨values, rfl⟩, -⟩ | ⟨_, -, -, h'⟩⟩ :=
      (parse_error_iff (by simp)).1 h
    · exact ⟨pre, values, post, hsplit, hread⟩
    · cases h'
  · rintro ⟨pre, values, post, hsplit, hread⟩
    exact ⟨_, (parse_error_iff (by simp)).2
      ⟨pre, _, post, hsplit, hread, Or.inl ⟨⟨values, rfl⟩, rfl⟩⟩⟩

theorem parse_reader_iff {args : List Str} {text : Str} :
    parser.parseCLI .reset args = .error (.reader text) ↔ ∃ pre value post,
      (parser.lex args).occs = pre ++ .flag .choice [value] :: post ∧ (∀ o ∈ pre, Readable o) ∧
        choiceOf value = none ∧ text = invalidChoice "CHOICE" value := by
  rw [parse_error_iff (by simp)]
  constructor
  · rintro ⟨pre, o, post, hsplit, hread, ⟨-, h'⟩ | ⟨value, rfl, hc, h'⟩⟩
    · cases h'
    · exact ⟨pre, value, post, hsplit, hread, hc, Error.reader.inj h'⟩
  · rintro ⟨pre, value, post, hsplit, hread, hc, rfl⟩
    exact ⟨pre, _, post, hsplit, hread, Or.inr ⟨value, rfl, hc, rfl⟩⟩

/-- There is nothing to validate. -/
theorem parse_ne_validation {args : List Str} {text : Str} :
    parser.parseCLI .reset args ≠ .error (.validation text) := by
  rw [ne_eq, parse_error_iff (by simp)]
  rintro ⟨_, _, _, -, -, ⟨-, h⟩ | ⟨_, -, -, h⟩⟩ <;> cases h

theorem answer_ne {inst : Installation} {n : ℕ} {a : Arguments} :
    answer inst n a ≠ .help ∧ ∀ text, answer inst n a ≠ .usage text := by
  rw [answer]
  split_ifs
  · simp
  · cases versionInteger inst.version <;> simp
  · cases lookupChoice inst n a.choice <;> simp
  · simp

/-- **What the program answers**: to command lines that it can read the
    version, its integer, what is looked up, or a hint, and its usage to the
    first `-h` before which all can be read.  A choice that it does not know
    terminates it, and so does a version that is no number; a look-up need not
    end. -/
theorem answers_iff (inst : Installation) (n : ℕ) (args : List Str) :
    (∀ line, readoutConfig inst n args = .printed line ↔ ∃ occs, parser.Line args occs ∧
      (∀ o ∈ occs, Readable o) ∧
      ((given .version occs ≠ [] ∧ line = inst.version) ∨
        (given .version occs = [] ∧ given .intversion occs ≠ [] ∧
          ∃ i, versionInteger inst.version = .ok i ∧ line = (toString i).toList) ∨
        (Looks occs ∧ lookupChoice inst n (said occs).choice = some line))) ∧
    (readoutConfig inst n args = .unfinished ↔ ∃ occs, parser.Line args occs ∧
      (∀ o ∈ occs, Readable o) ∧ Looks occs ∧ lookupChoice inst n (said occs).choice = none) ∧
    (readoutConfig inst n args = .hint ↔ ∃ occs, parser.Line args occs ∧
      (∀ o ∈ occs, Readable o) ∧ given .version occs = [] ∧ given .intversion occs = [] ∧
      (given .choice occs = [] ∨ (said occs).choice = .VERSION)) ∧
    (readoutConfig inst n args = .help ↔ ∃ pre values post,
      (parser.lex args).occs = pre ++ .flag .help values :: post ∧ ∀ o ∈ pre, Readable o) ∧
    (∀ text, readoutConfig inst n args = .terminate text ↔
      (∃ pre value post, (parser.lex args).occs = pre ++ .flag .choice [value] :: post ∧
        (∀ o ∈ pre, Readable o) ∧ choiceOf value = none ∧
        text = invalidChoice "CHOICE" value) ∨
      ∃ occs, parser.Line args occs ∧ (∀ o ∈ occs, Readable o) ∧ given .version occs = [] ∧
        given .intversion occs ≠ [] ∧ versionInteger inst.version = .error text) := by
  refine ⟨fun line => ?_, ?_, ?_, ?_, fun text => ?_⟩
  · rw [readoutConfig_eq_iff (by simp) (by simp) (by simp)]
    simp only [answer_eq_printed]
  · rw [readoutConfig_eq_iff (by simp) (by simp) (by simp)]
    simp only [answer_eq_unfinished]
  · rw [readoutConfig_eq_iff (by simp) (by simp) (by simp)]
    simp only [answer_eq_hint]
  · rw [← parse_help_iff, readoutConfig]
    cases parser.parseCLI .reset args with
    | ok a => simp [answer_ne.1]
    | error e => cases e <;> simp
  · rw [← parse_reader_iff]
    simp only [← answer_eq_terminate (n := n)]
    cases h : parser.parseCLI .reset args with
    | ok a =>
      obtain ⟨occs, hline, hread, rfl⟩ := reads_iff.1 h
      rw [readoutConfig_line hline hread]
      constructor
      · intro ha
        exact Or.inr ⟨occs, hline, hread, ha⟩
      · rintro (he | ⟨occs', hline', -, ha⟩)
        · cases he
        · rwa [hline.unique hline']
    | error e =>
      have hno : ¬ ∃ occs, parser.Line args occs ∧ (∀ o ∈ occs, Readable o) ∧
          answer inst n (said occs) = .terminate text := by
        rintro ⟨occs, hline, hread, -⟩
        rw [reads_iff.2 ⟨occs, hline, hread, rfl⟩] at h
        cases h
      rw [or_iff_left hno, readoutConfig, h]
      cases e with
      | validation text => exact absurd h parse_ne_validation
      | help | parse | reader => simp

/-! ## Command lines that ask for flags -/

section
variable {args : List Str} {occs : List (Occ Flag)} {line : Str}

/-- What the last choice prints. -/
theorem printed_iff {inst : Installation} {c : ConfigShow} (hline : parser.Line args occs)
    (hread : ∀ o ∈ occs, Readable o) (hversion : given .version occs = [])
    (hint : given .intversion occs = []) (hc : c ≠ .VERSION)
    (hlast : (lastGiven .choice occs).bind choiceOf = some c) {n : ℕ} :
    readoutConfig inst n args = .printed line ↔ lookupChoice inst n c = some line := by
  have hgiven : given .choice occs ≠ [] := by
    intro h
    rw [lastGiven, h] at hlast
    cases hlast
  have hchoice : (said occs).choice = c := by
    show ((lastGiven .choice occs).bind choiceOf).getD .LIBDIR = c
    rw [hlast]
    rfl
  have hlooks : Looks occs := ⟨hversion, hint, hgiven, hchoice ▸ hc⟩
  rw [readoutConfig_line hline hread, answer_of_looks hlooks, hchoice]
  cases lookupChoice inst n c <;> simp

/-- **The flags are printed if and only if the directory holds no placeholder**:
    otherwise the program never ends. -/
theorem shows_flags (inst : Installation) (hline : parser.Line args occs)
    (hread : ∀ o ∈ occs, Readable o) (hversion : given .version occs = [])
    (hint : given .intversion occs = []) :
    ((lastGiven .choice occs).bind choiceOf = some .LDFLAGS →
      ((∃ n, readoutConfig inst n args = .printed line) ↔
        ¬ placeholderLibdir <:+: inst.path inst.libdir ∧
          line = inst.linkerFlags (inst.path inst.libdir))) ∧
    ((lastGiven .choice occs).bind choiceOf = some .CFLAGS →
      ((∃ n, readoutConfig inst n args = .printed line) ↔
        ¬ placeholderIncludedir <:+: inst.path inst.includedir ∧
          line = compilerFlags (inst.path inst.includedir))) := by
  constructor
  · intro hlast
    simp only [printed_iff hline hread hversion hint (by decide) hlast]
    exact linkerFlags_iff
  · intro hlast
    simp only [printed_iff hline hread hversion hint (by decide) hlast]
    exact compilerFlags_iff

end

/-- An installation below `/usr`. -/
def usr : Installation where
  libdir := "../lib".toList
  includedir := "../include".toList
  compdir := "../share".toList
  libname := "libreadout.so".toList
  version := "0.4.1".toList
  path relative := "/usr/bin/".toList ++ relative
  plain := by decide

theorem shows_flags_usr :
    ∃ n, readoutConfig usr n ["-s".toList, "LdFlags".toList] =
      .printed (usr.linkerFlags "/usr/bin/../lib".toList) := by
  have hline : parser.Line ["-s".toList, "LdFlags".toList]
      [.flag .choice ["LdFlags".toList]] := lex_iff.1 rfl
  have hread : ∀ o ∈ ([.flag .choice ["LdFlags".toList]] : List (Occ Flag)), Readable o := by
    intro o ho
    obtain rfl := List.mem_singleton.1 ho
    intro value hv
    obtain rfl := Option.some.inj hv
    decide
  exact ((shows_flags usr hline hread rfl rfl).1 (by decide)).2
    ⟨no_occurrence_of_first (by decide), rfl⟩

end Config

end ReadoutMaster
