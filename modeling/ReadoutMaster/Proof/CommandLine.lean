/-
  Which command lines the parser accepts, and what they say.

  Parsing is lexing and then evaluation: `lexFrom` splits the arguments into
  occurrences of flags with their values and of positionals, without regard to
  the state, and `parseFrom_eq` says that the parser evaluates the occurrences
  one after the other, up to the first error.  `Line` is a grammar of command
  lines, for any flags and numbers of values; `lex_iff` says that lexing
  decides it.

  * `parse_iff`: the grammar is unambiguous, and the parser accepts exactly its
    lines whose occurrences evaluate and validate, and returns what they
    evaluate to.
-/
import Mathlib.Data.List.Induction
import Mathlib.Data.List.TakeWhile
import Mathlib.Logic.Function.Basic
import ReadoutMaster.Args
import ReadoutMaster.Lib.Machine

namespace ReadoutMaster

namespace Args

open Machine

/-! ## Values -/

/-- What an option takes of the arguments after it: values enough, and then
    positionals as long as there are any and it may take more. -/
structure Takes (nargs : Nargs) (values rest : List Str) : Prop where
  min_le : nargs.min ≤ values.length
  le_max : values.length ≤ nargs.max
  optional : ∀ v ∈ values.drop nargs.min, parseOption v = .Positional
  greedy : values.length = nargs.max ∨ ∀ v ∈ rest.head?, parseOption v ≠ .Positional

variable {nargs : Nargs} {values rest args : List Str} {arg : Str}

/-- The loop takes what it should, after what it has. -/
theorem takeValues_append : ∀ {values pre : List Str}, Takes nargs (pre ++ values) rest →
    takeValues nargs pre (values ++ rest) = (pre ++ values, rest)
  | [], pre, h => by
    rw [List.nil_append, List.append_nil]
    rw [List.append_nil] at h
    cases rest with
    | nil => rfl
    | cons v rest =>
      rw [takeValues, if_neg]
      rintro ⟨hmax, hmore⟩
      rcases h.greedy with heq | hhead
      · omega
      · rcases hmore with hmin | hpos
        · exact absurd h.min_le (by omega)
        · exact hhead v rfl hpos
  | v :: values, pre, h => by
    have hlen := h.le_max
    rw [List.length_append, List.length_cons] at hlen
    have hmore : pre.length < nargs.min ∨ parseOption v = .Positional := by
      rcases Nat.lt_or_ge pre.length nargs.min with hmin | hmin
      · exact Or.inl hmin
      · refine Or.inr (h.optional v ?_)
        rw [List.drop_append, Nat.sub_eq_zero_of_le hmin, List.drop_zero]
        exact List.mem_append_right _ List.mem_cons_self
    rw [List.cons_append, takeValues, if_pos ⟨by omega, hmore⟩, List.append_cons pre v values]
    rw [List.append_cons] at h
    exact takeValues_append h

/-- What the loop takes, if it takes enough. -/
theorem takeValues_spec : ∀ {args pre : List Str}, pre.length ≤ nargs.max →
    (∀ v ∈ pre.drop nargs.min, parseOption v = .Positional) →
    nargs.min ≤ (takeValues nargs pre args).1.length →
      (∃ values, (takeValues nargs pre args).1 = pre ++ values ∧
        args = values ++ (takeValues nargs pre args).2) ∧
      Takes nargs (takeValues nargs pre args).1 (takeValues nargs pre args).2
  | [], pre, hmax, hopt, hmin => by
    refine ⟨⟨[], (List.append_nil pre).symm, rfl⟩, ⟨hmin, hmax, hopt, Or.inr ?_⟩⟩
    intro v hv
    cases hv
  | v :: rest, pre, hmax, hopt, hmin => by
    rw [takeValues] at hmin ⊢
    split_ifs at hmin ⊢ with h
    · have hmax' : (pre ++ [v]).length ≤ nargs.max := by
        rw [List.length_append, List.length_singleton]
        exact h.1
      have hopt' : ∀ w ∈ (pre ++ [v]).drop nargs.min, parseOption w = .Positional := by
        intro w hw
        rw [List.drop_append] at hw
        rcases List.mem_append.1 hw with hw | hw
        · exact hopt w hw
        · obtain rfl := List.mem_singleton.1 (List.mem_of_mem_drop hw)
          refine h.2.resolve_left fun hlt => ?_
          rw [List.drop_eq_nil_of_le (by rw [List.length_singleton]; omega)] at hw
          cases hw
      obtain ⟨⟨values, h1, h2⟩, htakes⟩ := takeValues_spec hmax' hopt' hmin
      refine ⟨⟨v :: values, ?_, congrArg (v :: ·) h2⟩, htakes⟩
      rw [h1, List.append_assoc, List.singleton_append]
    · refine ⟨⟨[], (List.append_nil pre).symm, rfl⟩, ⟨hmin, hmax, hopt, ?_⟩⟩
      by_cases hlen : pre.length = nargs.max
      · exact Or.inl hlen
      · refine Or.inr fun w hw hpos => h ⟨?_, Or.inr ?_⟩
        · omega
        · obtain rfl := Option.some.inj hw
          exact hpos

/-- Enough values are taken, and no more than there may be. -/
theorem parseArgsValues_eq_ok {joined : Option Str} {canDiscard : Bool}
    {taken : List Str × List Str} :
    parseArgsValues nargs arg joined canDiscard args = .ok taken ↔
      taken = Args.values nargs joined canDiscard args ∧
        nargs.min ≤ taken.1.length ∧ taken.1.length ≤ nargs.max := by
  simp only [parseArgsValues]
  constructor
  · intro h
    split_ifs at h with hmax hmin
    injection h with h
    subst h
    exact ⟨rfl, by omega, by omega⟩
  · rintro ⟨rfl, hmin, hmax⟩
    rw [if_neg (by omega), if_neg (by omega)]

/-- Separate values. -/
theorem parseArgsValues_separate {canDiscard : Bool} :
    parseArgsValues nargs arg none canDiscard args = .ok (values, rest) ↔
      args = values ++ rest ∧ Takes nargs values rest := by
  rw [parseArgsValues_eq_ok, Args.values]
  constructor
  · rintro ⟨htaken, hmin, -⟩
    have hv := congrArg Prod.fst htaken
    have hr := congrArg Prod.snd htaken
    dsimp only at hv hr
    have hlen : ([] : List Str).length ≤ nargs.max := Nat.zero_le _
    have hpre : ∀ v ∈ ([] : List Str).drop nargs.min, parseOption v = .Positional := by simp
    obtain ⟨⟨more, h1, h2⟩, htakes⟩ := takeValues_spec hlen hpre (hv ▸ hmin)
    rw [← hv, ← hr] at htakes
    rw [← hv, List.nil_append] at h1
    rw [← hr, ← h1] at h2
    exact ⟨h2, htakes⟩
  · rintro ⟨rfl, htakes⟩
    have htaken : takeValues nargs [] (values ++ rest) = ([] ++ values, rest) :=
      takeValues_append htakes
    exact ⟨htaken.symm, htakes.min_le, htakes.le_max⟩

/-- A joined value. -/
theorem parseArgsValues_joined {value : Str} {canDiscard : Bool}
    (h : canDiscard = false ∨ nargs.max ≠ 0) :
    parseArgsValues nargs arg (some value) canDiscard args = .ok (values, rest) ↔
      values = [value] ∧ rest = args ∧ nargs.min ≤ 1 ∧ 1 ≤ nargs.max := by
  rw [parseArgsValues_eq_ok, Args.values, if_pos h]
  constructor
  · rintro ⟨heq, hmin, hmax⟩
    obtain ⟨rfl, rfl⟩ := Prod.mk.inj heq
    exact ⟨rfl, rfl, hmin, hmax⟩
  · rintro ⟨rfl, rfl, hmin, hmax⟩
    exact ⟨rfl, hmin, hmax⟩

/-- What follows in the argument is no value of a flag without values. -/
theorem parseArgsValues_discarded {value : Str} (h : nargs.max = 0) :
    parseArgsValues nargs arg (some value) true args = .ok (values, rest) ↔
      values = [] ∧ rest = args := by
  rw [parseArgsValues_eq_ok, Args.values, if_neg (by simp [h])]
  constructor
  · rintro ⟨heq, -⟩
    exact Prod.mk.inj heq
  · rintro ⟨rfl, rfl⟩
    exact ⟨rfl, Nat.le_trans nargs.min_le_max (Nat.le_of_eq h), Nat.zero_le _⟩

/-! ## Lexing -/

/-- An option with its values, or a positional. -/
inductive Occ (ι : Type) where
  | flag (flag : ι) (values : List Str)
  | positional (chunk : Str)
  deriving DecidableEq

section
variable {ι : Type} [DecidableEq ι]

/-- The values that an occurrence gives to a flag. -/
def valuesOf (f : ι) : Occ ι → Option (List Str)
  | .flag g values => if g = f then some values else none
  | .positional _ => none

def chunk : Occ ι → Option Str
  | .flag _ _ => none
  | .positional chunk => some chunk

/-- The values given to a flag, in order. -/
def given (f : ι) (occs : List (Occ ι)) : List (List Str) := occs.filterMap (valuesOf f)

def positionals (occs : List (Occ ι)) : List Str := occs.filterMap chunk

/-- The last value given to a flag. -/
def lastGiven (f : ι) (occs : List (Occ ι)) : Option Str := (given f occs).getLast?.bind List.head?

variable {f g : ι} {values : List Str} {occs : List (Occ ι)} {c : Str}

@[simp] theorem given_flag : given f (occs ++ [.flag f values]) = given f occs ++ [values] := by
  simp [given, valuesOf]

theorem given_other (h : g ≠ f) : given g (occs ++ [.flag f values]) = given g occs := by
  simp [given, valuesOf, h.symm]

/-- The flags that are given, with one more of them. -/
theorem isGiven_flag : (fun g => !(given g (occs ++ [.flag f values])).isEmpty) =
    Function.update (fun g => !(given g occs).isEmpty) f true := by
  funext g
  by_cases hg : g = f
  · subst hg
    simp
  · rw [given_other hg, Function.update_of_ne hg]

@[simp] theorem given_positional : given f (occs ++ [.positional c]) = given f occs := by
  simp [given, valuesOf]

omit [DecidableEq ι] in
@[simp] theorem positionals_flag : positionals (occs ++ [.flag f values]) = positionals occs := by
  simp [positionals, chunk]

omit [DecidableEq ι] in
@[simp] theorem positionals_positional :
    positionals (occs ++ [.positional c]) = positionals occs ++ [c] := by
  simp [positionals, chunk]

@[simp] theorem lastGiven_flag : lastGiven f (occs ++ [.flag f values]) = values.head? := by
  simp [lastGiven]

theorem lastGiven_other (h : g ≠ f) :
    lastGiven g (occs ++ [.flag f values]) = lastGiven g occs := by
  rw [lastGiven, given_other h, lastGiven]

@[simp] theorem lastGiven_positional :
    lastGiven f (occs ++ [.positional c]) = lastGiven f occs := by
  rw [lastGiven, given_positional, lastGiven]

theorem mem_given : values ∈ given f occs ↔ .flag f values ∈ occs := by
  rw [given, List.mem_filterMap]
  constructor
  · rintro ⟨o, ho, h⟩
    cases o with
    | positional c => cases h
    | flag g vs =>
      rw [valuesOf] at h
      split_ifs at h with hg
      rw [← hg, ← Option.some.inj h]
      exact ho
  · intro h
    exact ⟨_, h, if_pos rfl⟩

end

/-- What some arguments say, up to the first error. -/
@[ext] structure Lexed (ι : Type) where
  occs : List (Occ ι)
  error : Option Error

namespace ArgumentParser

variable {ι σ : Type} (P : ArgumentParser ι σ)

/-- Evaluate an occurrence. -/
def take : Occ ι → σ → Except Error σ
  | .flag f values, s => P.parseValue f values (P.mark f s)
  | .positional chunk, s =>
    if P.ready s then P.parsePositional chunk s else .error (noPositional chunk)

def takeAll (occs : List (Occ ι)) (s : σ) : Except Error σ := occs.foldlM (fun s o => P.take o s) s

def lexLong (argchunk : Str) (rest : List Str) : Except Error (Occ ι × List Str) :=
  match P.find (.long (splitLong argchunk).1) with
  | none => .error (unmatched (splitLong argchunk).1)
  | some flag => do
    let (values, rest) ← parseArgsValues (P.nargs flag) (splitLong argchunk).1
      (splitLong argchunk).2 false rest
    return (.flag flag values, rest)

/-- The occurrences in an argument of short flags, and the arguments that are
    left. -/
def lexShort : Str → List Str → List (Occ ι) × Except Error (List Str)
  | [], rest => ([], .ok rest)
  | arg :: value, rest =>
    match P.find (.short arg) with
    | none => ([], .error (unmatched ("'".toList ++ arg :: "'".toList)))
    | some flag =>
      match parseArgsValues (P.nargs flag) [arg] (if value = [] then none else some value)
          (value ≠ []) rest with
      | .error e => ([], .error e)
      | .ok (values, rest) =>
        if values ≠ [] then ([.flag flag values], .ok rest)
        else (.flag flag values :: (lexShort value rest).1, (lexShort value rest).2)

def lexFrom : ℕ → Bool → List Str → Lexed ι
  | _, _, [] => ⟨[], none⟩
  | 0, _, _ :: _ => ⟨[], none⟩
  | n + 1, terminated, chunk :: rest =>
    if !terminated && chunk = terminator then lexFrom n true rest
    else if !terminated && parseOption chunk = .LongFlag then
      match P.lexLong (chunk.drop longPrefix.length) rest with
      | .error e => ⟨[], some e⟩
      | .ok (occ, rest) =>
        ⟨occ :: (lexFrom n terminated rest).occs, (lexFrom n terminated rest).error⟩
    else if !terminated && parseOption chunk = .ShortFlag then
      match P.lexShort (chunk.drop shortPrefix.length) rest with
      | (occs, .error e) => ⟨occs, some e⟩
      | (occs, .ok rest) =>
        ⟨occs ++ (lexFrom n terminated rest).occs, (lexFrom n terminated rest).error⟩
    else ⟨.positional chunk :: (lexFrom n terminated rest).occs, (lexFrom n terminated rest).error⟩

/-- What a command line says. -/
def lex (args : List Str) : Lexed ι := P.lexFrom args.length false args

/-- The end of a command line. -/
def finish (error : Option Error) (s : σ) : Except Error σ :=
  match error with
  | some e => .error e
  | none => do
    P.validate s
    return s

variable {P} {s : σ}

theorem takeAll_cons (o : Occ ι) (occs : List (Occ ι)) :
    P.takeAll (o :: occs) s = P.take o s >>= P.takeAll occs := rfl

theorem takeAll_append (occs occs' : List (Occ ι)) :
    P.takeAll (occs ++ occs') s = P.takeAll occs s >>= P.takeAll occs' := List.foldlM_append

theorem parseLong_eq (argchunk : Str) (rest : List Str) :
    P.parseLong argchunk rest s = (do
      let (occ, rest) ← P.lexLong argchunk rest
      let s ← P.take occ s
      return (rest, s)) := by
  rw [parseLong, lexLong]
  dsimp only
  cases P.find (.long (splitLong argchunk).1) with
  | none => rfl
  | some flag =>
    dsimp only
    cases parseArgsValues (P.nargs flag) (splitLong argchunk).1 (splitLong argchunk).2 false
        rest <;> rfl

theorem parseShort_eq : ∀ (cs : Str) (rest : List Str) (s : σ),
    P.parseShort cs rest s = (do
      let s ← P.takeAll (P.lexShort cs rest).1 s
      let rest ← (P.lexShort cs rest).2
      return (rest, s))
  | [], rest, s => rfl
  | arg :: value, rest, s => by
    rw [parseShort, lexShort]
    cases P.find (.short arg) with
    | none => rfl
    | some flag =>
      dsimp only
      cases parseArgsValues (P.nargs flag) [arg] (if value = [] then none else some value)
          (value ≠ []) rest with
      | error e => rfl
      | ok taken =>
        obtain ⟨values, left⟩ := taken
        by_cases hv : values = []
        · subst hv
          simp only [ne_eq, not_true_eq_false, if_false]
          rw [takeAll_cons, take]
          cases hp : P.parseValue flag [] (P.mark flag s) with
          | error e =>
            show (P.parseValue flag [] (P.mark flag s) >>= _) = _
            rw [hp]
            rfl
          | ok s' =>
            show (P.parseValue flag [] (P.mark flag s) >>= _) = _
            rw [hp]
            exact parseShort_eq value left s'
        · simp only [ne_eq, hv, not_false_eq_true, if_true]
          rw [takeAll_cons, take]
          show (P.parseValue flag values (P.mark flag s) >>= _) = _
          cases P.parseValue flag values (P.mark flag s) with
          | error e => rfl
          | ok s' =>
            show (if ¬ values = [] then _ else _) = _
            rw [if_pos hv]
            rfl

theorem takeValues_length (nargs : Nargs) : ∀ (args pre : List Str),
    (takeValues nargs pre args).2.length ≤ args.length
  | [], _ => Nat.le_refl _
  | v :: rest, pre => by
    rw [takeValues]
    split_ifs
    · exact Nat.le_succ_of_le (takeValues_length nargs rest _)
    · exact Nat.le_refl _

theorem parseArgsValues_length {nargs : Nargs} {arg : Str} {joined : Option Str} {canDiscard : Bool}
    {args : List Str} {taken : List Str × List Str}
    (h : parseArgsValues nargs arg joined canDiscard args = .ok taken) :
    taken.2.length ≤ args.length := by
  obtain ⟨rfl, -⟩ := parseArgsValues_eq_ok.1 h
  cases joined with
  | none => exact takeValues_length nargs args []
  | some value => exact Nat.le_refl _

theorem lexLong_length {argchunk : Str} {args : List Str} {r : Occ ι × List Str}
    (h : P.lexLong argchunk args = .ok r) : r.2.length ≤ args.length := by
  rw [lexLong] at h
  cases hf : P.find (.long (splitLong argchunk).1) with
  | none => rw [hf] at h; cases h
  | some flag =>
    rw [hf] at h
    obtain ⟨taken, h1, h2⟩ := except_bind_eq_ok.1 h
    injection h2 with h2
    subst h2
    exact parseArgsValues_length h1

theorem lexShort_length : ∀ {cs : Str} {args left : List Str},
    (P.lexShort cs args).2 = .ok left → left.length ≤ args.length
  | [], args, left, h => by
    injection h with h
    exact Nat.le_of_eq (congrArg List.length h.symm)
  | arg :: value, args, left, h => by
    rw [lexShort] at h
    cases hf : P.find (.short arg) with
    | none => rw [hf] at h; cases h
    | some flag =>
      rw [hf] at h
      dsimp only at h
      cases ht : parseArgsValues (P.nargs flag) [arg] (if value = [] then none else some value)
          (value ≠ []) args with
      | error e => rw [ht] at h; cases h
      | ok taken =>
        have hle := parseArgsValues_length ht
        rw [ht] at h
        dsimp only at h
        split_ifs at h
        · injection h with h
          rwa [← h]
        · exact Nat.le_trans (lexShort_length h) hle

/-- **Parsing is lexing, and then evaluation.** -/
theorem parseFrom_eq : ∀ {n : ℕ} {terminated : Bool} {args : List Str} {s : σ}, args.length ≤ n →
    P.parseFrom n terminated args s = (do
      let s ← P.takeAll (P.lexFrom n terminated args).occs s
      P.finish (P.lexFrom n terminated args).error s)
  | 0, _, [], _, _ => rfl
  | _ + 1, _, [], _, _ => rfl
  | 0, _, _ :: _, _, h => absurd h (by simp)
  | n + 1, terminated, chunk :: rest, s, h => by
    have hn : rest.length ≤ n := Nat.le_of_succ_le_succ h
    rw [parseFrom, lexFrom]
    split_ifs with h1 h2 h3 h4
    · exact parseFrom_eq hn
    · rw [parseLong_eq]
      cases hl : P.lexLong (chunk.drop longPrefix.length) rest with
      | error e => rfl
      | ok r =>
        obtain ⟨occ, left⟩ := r
        have hleft : left.length ≤ n := Nat.le_trans (lexLong_length hl) hn
        show ((P.take occ s >>= _) >>= _) = (P.take occ s >>= _) >>= _
        cases P.take occ s with
        | error e => rfl
        | ok s' => exact parseFrom_eq hleft
    · rw [parseShort_eq]
      cases hl : P.lexShort (chunk.drop shortPrefix.length) rest with
      | mk occs r =>
        cases r with
        | error e =>
          show ((P.takeAll occs s >>= _) >>= _) = (P.takeAll occs s >>= _)
          cases P.takeAll occs s <;> rfl
        | ok left =>
          have hleft : left.length ≤ n := Nat.le_trans (lexShort_length (congrArg Prod.snd hl)) hn
          dsimp only
          rw [takeAll_append]
          show ((P.takeAll occs s >>= _) >>= _) = (P.takeAll occs s >>= _) >>= _
          cases P.takeAll occs s with
          | error e => rfl
          | ok s' => exact parseFrom_eq hleft
    · rw [takeAll_cons, take, if_pos h4]
      cases P.parsePositional chunk s with
      | error e => rfl
      | ok s' => exact parseFrom_eq hn
    · rw [takeAll_cons, take, if_neg h4]
      rfl

/-! ## Occurrences and errors -/

variable (P) in
/-- An occurrence with as many values as its flag takes. -/
def Fed : Occ ι → Prop
  | .flag f values => (P.nargs f).min ≤ values.length ∧ values.length ≤ (P.nargs f).max
  | .positional _ => True

/-- What occurrences evaluate to, if each adds what it says to what those
    before it say. -/
theorem takeAll_iff_of_take (said : List (Occ ι) → σ) (Ok : List (Occ ι) → Prop) (hnil : Ok [])
    (htake : ∀ {occs : List (Occ ι)} {o : Occ ι} {s : σ}, P.Fed o →
      (Ok occs ∧ P.take o (said occs) = .ok s ↔ Ok (occs ++ [o]) ∧ s = said (occs ++ [o])))
    {occs : List (Occ ι)} (hfed : ∀ o ∈ occs, P.Fed o) : ∀ {s : σ},
      P.takeAll occs (said []) = .ok s ↔ Ok occs ∧ s = said occs := by
  induction occs using List.reverseRecOn with
  | nil =>
    intro s
    exact ⟨fun h => ⟨hnil, (Except.ok.inj h).symm⟩, fun h => congrArg _ h.2.symm⟩
  | append_singleton occs o ih =>
    intro s
    have hlast : ∀ s, P.takeAll [o] s = P.take o s := fun s => by
      rw [takeAll_cons]
      cases P.take o s <;> rfl
    rw [takeAll_append, except_bind_eq_ok, ← htake (hfed o (by simp))]
    constructor
    · rintro ⟨s₁, h₁, h₂⟩
      obtain ⟨hok, rfl⟩ := (ih fun o h => hfed o (by simp [h])).1 h₁
      exact ⟨hok, by rwa [hlast] at h₂⟩
    · rintro ⟨hok, h₂⟩
      exact ⟨_, (ih fun o h => hfed o (by simp [h])).2 ⟨hok, rfl⟩, by rwa [hlast]⟩

theorem lexLong_fed {argchunk : Str} {args : List Str} {r : Occ ι × List Str}
    (h : P.lexLong argchunk args = .ok r) : P.Fed r.1 := by
  rw [lexLong] at h
  cases hf : P.find (.long (splitLong argchunk).1) with
  | none => rw [hf] at h; cases h
  | some flag =>
    rw [hf] at h
    obtain ⟨taken, h1, h2⟩ := except_bind_eq_ok.1 h
    injection h2 with h2
    subst h2
    exact (parseArgsValues_eq_ok.1 h1).2

theorem lexShort_fed : ∀ {cs : Str} {args : List Str}, ∀ o ∈ (P.lexShort cs args).1, P.Fed o
  | [], _, _, ho => by cases ho
  | arg :: value, args, o, ho => by
    rw [lexShort] at ho
    cases hf : P.find (.short arg) with
    | none => rw [hf] at ho; cases ho
    | some flag =>
      rw [hf] at ho
      dsimp only at ho
      cases ht : parseArgsValues (P.nargs flag) [arg] (if value = [] then none else some value)
          (value ≠ []) args with
      | error e => rw [ht] at ho; cases ho
      | ok taken =>
        have hfed := (parseArgsValues_eq_ok.1 ht).2
        rw [ht] at ho
        dsimp only at ho
        split_ifs at ho
        · obtain rfl := List.mem_singleton.1 ho
          exact hfed
        · rcases List.mem_cons.1 ho with rfl | ho
          · exact hfed
          · exact lexShort_fed o ho

theorem lexFrom_fed : ∀ {n : ℕ} {terminated : Bool} {args : List Str},
    ∀ o ∈ (P.lexFrom n terminated args).occs, P.Fed o
  | 0, _, [], _, ho => by cases ho
  | _ + 1, _, [], _, ho => by cases ho
  | 0, _, _ :: _, _, ho => by cases ho
  | n + 1, terminated, chunk :: rest, o, ho => by
    rw [lexFrom] at ho
    split_ifs at ho
    · exact lexFrom_fed o ho
    · cases hl : P.lexLong (chunk.drop longPrefix.length) rest with
      | error e => rw [hl] at ho; cases ho
      | ok r =>
        rw [hl] at ho
        rcases List.mem_cons.1 ho with rfl | ho
        · exact lexLong_fed hl
        · exact lexFrom_fed o ho
    · have hfed : ∀ o ∈ (P.lexShort (chunk.drop shortPrefix.length) rest).1, P.Fed o := lexShort_fed
      cases hl : P.lexShort (chunk.drop shortPrefix.length) rest with
      | mk occs r =>
        rw [hl] at ho hfed
        cases r with
        | error e => exact hfed o ho
        | ok left =>
          rcases List.mem_append.1 ho with ho | ho
          · exact hfed o ho
          · exact lexFrom_fed o ho
    · rcases List.mem_cons.1 ho with rfl | ho
      · trivial
      · exact lexFrom_fed o ho

theorem parseArgsValues_error {nargs : Nargs} {arg : Str} {joined : Option Str} {canDiscard : Bool}
    {args : List Str} {e : Error}
    (h : parseArgsValues nargs arg joined canDiscard args = .error e) :
    ∃ text, e = .parse text := by
  simp only [parseArgsValues] at h
  split_ifs at h <;> exact ⟨_, (Except.error.inj h).symm⟩

theorem lexLong_error {argchunk : Str} {args : List Str} {e : Error}
    (h : P.lexLong argchunk args = .error e) : ∃ text, e = .parse text := by
  rw [lexLong] at h
  cases hf : P.find (.long (splitLong argchunk).1) with
  | none =>
    rw [hf] at h
    exact ⟨_, (Except.error.inj h).symm⟩
  | some flag =>
    rw [hf] at h
    dsimp only at h
    cases ht : parseArgsValues (P.nargs flag) (splitLong argchunk).1 (splitLong argchunk).2 false
        args with
    | error e' =>
      rw [ht] at h
      exact Except.error.inj h ▸ parseArgsValues_error ht
    | ok taken => rw [ht] at h; cases h

theorem lexShort_error : ∀ {cs : Str} {args : List Str} {e : Error},
    (P.lexShort cs args).2 = .error e → ∃ text, e = .parse text
  | [], _, _, h => by cases h
  | arg :: value, args, e, h => by
    rw [lexShort] at h
    cases hf : P.find (.short arg) with
    | none =>
      rw [hf] at h
      exact ⟨_, (Except.error.inj h).symm⟩
    | some flag =>
      rw [hf] at h
      dsimp only at h
      cases ht : parseArgsValues (P.nargs flag) [arg] (if value = [] then none else some value)
          (value ≠ []) args with
      | error e' =>
        rw [ht] at h
        exact Except.error.inj h ▸ parseArgsValues_error ht
      | ok taken =>
        rw [ht] at h
        dsimp only at h
        split_ifs at h
        exact lexShort_error h

/-- What cannot be lexed is a parse error. -/
theorem lexFrom_error : ∀ {n : ℕ} {terminated : Bool} {args : List Str} {e : Error},
    (P.lexFrom n terminated args).error = some e → ∃ text, e = .parse text
  | 0, _, [], _, h => by cases h
  | _ + 1, _, [], _, h => by cases h
  | 0, _, _ :: _, _, h => by cases h
  | n + 1, terminated, chunk :: rest, e, h => by
    rw [lexFrom] at h
    split_ifs at h
    · exact lexFrom_error h
    · cases hl : P.lexLong (chunk.drop longPrefix.length) rest with
      | error e' =>
        rw [hl] at h
        exact Option.some.inj h ▸ lexLong_error hl
      | ok r => rw [hl] at h; exact lexFrom_error h
    · cases hl : P.lexShort (chunk.drop shortPrefix.length) rest with
      | mk occs r =>
        rw [hl] at h
        cases r with
        | error e' => exact Option.some.inj h ▸ lexShort_error (congrArg Prod.snd hl)
        | ok left => exact lexFrom_error h
    · exact lexFrom_error h

/-- The first occurrence that fails. -/
theorem takeAll_eq_error {e : Error} : ∀ {occs : List (Occ ι)} {s : σ},
    P.takeAll occs s = .error e ↔ ∃ pre o post s', occs = pre ++ o :: post ∧
      P.takeAll pre s = .ok s' ∧ P.take o s' = .error e
  | [], s => ⟨fun h => (by cases h), fun ⟨_, _, _, _, h, _⟩ => (by simp at h)⟩
  | o :: occs, s => by
    rw [takeAll_cons]
    cases ho : P.take o s with
    | error e' =>
      constructor
      · intro h
        exact ⟨[], o, occs, s, rfl, rfl, ho.trans h⟩
      · rintro ⟨pre, o', post, s', hsplit, htake, herr⟩
        cases pre with
        | nil =>
          obtain ⟨rfl, rfl⟩ := List.cons.inj hsplit
          obtain rfl := Except.ok.inj htake
          exact ho.symm.trans herr
        | cons p pre =>
          obtain ⟨rfl, rfl⟩ := List.cons.inj hsplit
          rw [takeAll_cons, ho] at htake
          cases htake
    | ok s₁ =>
      show P.takeAll occs s₁ = .error e ↔ _
      rw [takeAll_eq_error]
      constructor
      · rintro ⟨pre, o', post, s', rfl, htake, herr⟩
        refine ⟨o :: pre, o', post, s', rfl, ?_, herr⟩
        rw [takeAll_cons, ho]
        exact htake
      · rintro ⟨pre, o', post, s', hsplit, htake, herr⟩
        cases pre with
        | nil =>
          obtain ⟨rfl, rfl⟩ := List.cons.inj hsplit
          obtain rfl := Except.ok.inj htake
          rw [ho] at herr
          cases herr
        | cons p pre =>
          obtain ⟨rfl, rfl⟩ := List.cons.inj hsplit
          rw [takeAll_cons, ho] at htake
          exact ⟨pre, o', post, s', rfl, htake, herr⟩

/-! ## The grammar -/

variable (P)

/-- Short flags in one argument, with the arguments after it: flags without
    values before another character, and at the end either a flag with a joined
    value or one with separate values. -/
inductive Cluster : Str → List Str → List (Occ ι) → List Str → Prop where
  | more {c : Char} {cs : Str} {args left : List Str} {f : ι} {occs : List (Occ ι)}
      (hf : P.find (.short c) = some f) (h0 : (P.nargs f).max = 0) (hcs : cs ≠ [])
      (h : Cluster cs args occs left) : Cluster (c :: cs) args (.flag f [] :: occs) left
  | joined {c : Char} {value : Str} {args : List Str} {f : ι}
      (hf : P.find (.short c) = some f) (hmin : (P.nargs f).min ≤ 1) (hmax : 1 ≤ (P.nargs f).max)
      (hv : value ≠ []) : Cluster (c :: value) args [.flag f [value]] args
  | last {c : Char} {values left : List Str} {f : ι} (hf : P.find (.short c) = some f)
      (ht : Takes (P.nargs f) values left) : Cluster [c] (values ++ left) [.flag f values] left

/-- Command lines, and what they say. -/
inductive Line : List Str → List (Occ ι) → Prop where
  | nil : Line [] []
  | terminated (args : List Str) : Line (terminator :: args) (args.map .positional)
  | positional {chunk : Str} {args : List Str} {occs : List (Occ ι)}
      (hc : parseOption chunk = .Positional) (h : Line args occs) :
      Line (chunk :: args) (.positional chunk :: occs)
  | long {name : Str} {values left : List Str} {f : ι} {occs : List (Occ ι)} (hname : name ≠ [])
      (hsep : longSeparator ∉ name) (hf : P.find (.long name) = some f)
      (ht : Takes (P.nargs f) values left) (h : Line left occs) :
      Line ((longPrefix ++ name) :: (values ++ left)) (.flag f values :: occs)
  | longJoined {name value : Str} {args : List Str} {f : ι} {occs : List (Occ ι)}
      (hsep : longSeparator ∉ name) (hf : P.find (.long name) = some f)
      (hmin : (P.nargs f).min ≤ 1) (hmax : 1 ≤ (P.nargs f).max) (h : Line args occs) :
      Line ((longPrefix ++ name ++ longSeparator :: value) :: args) (.flag f [value] :: occs)
  | short {cs : Str} {args left : List Str} {occs occs' : List (Occ ι)}
      (hcs : cs.head? ≠ some '-') (hc : P.Cluster cs args occs left) (h : Line left occs') :
      Line ((shortPrefix ++ cs) :: args) (occs ++ occs')

variable {P}

theorem Cluster.ne_nil {cs : Str} {args left : List Str} {occs : List (Occ ι)}
    (h : P.Cluster cs args occs left) : cs ≠ [] := by
  cases h <;> exact List.cons_ne_nil _ _

theorem cluster_of_lexShort : ∀ {cs : Str} {args left : List Str} {occs : List (Occ ι)}, cs ≠ [] →
    P.lexShort cs args = (occs, .ok left) → P.Cluster cs args occs left
  | [], _, _, _, h, _ => absurd rfl h
  | c :: value, args, left, occs, _, h => by
    rw [lexShort] at h
    cases hf : P.find (.short c) with
    | none => rw [hf] at h; cases (Prod.mk.inj h).2
    | some f =>
      rw [hf] at h
      dsimp only at h
      cases ht : parseArgsValues (P.nargs f) [c] (if value = [] then none else some value)
          (value ≠ []) args with
      | error e => rw [ht] at h; cases (Prod.mk.inj h).2
      | ok taken =>
        obtain ⟨values, rest⟩ := taken
        rw [ht] at h
        dsimp only at h
        by_cases hval : value = []
        · subst hval
          rw [if_pos rfl] at ht
          obtain ⟨rfl, htakes⟩ := parseArgsValues_separate.1 ht
          have hlast : P.Cluster [c] (values ++ rest) [.flag f values] rest := .last hf htakes
          split_ifs at h with hv
          · obtain ⟨rfl, hleft⟩ := Prod.mk.inj h
            injection hleft with hleft
            exact hleft ▸ hlast
          · obtain ⟨rfl, hleft⟩ := Prod.mk.inj h
            injection hleft with hleft
            exact hleft ▸ hlast
        · rw [if_neg hval, decide_eq_true hval] at ht
          by_cases hmax : (P.nargs f).max = 0
          · obtain ⟨rfl, rfl⟩ := (parseArgsValues_discarded hmax).1 ht
            rw [if_neg (by simp)] at h
            obtain ⟨rfl, hleft⟩ := Prod.mk.inj h
            exact .more hf hmax hval (cluster_of_lexShort hval (Prod.ext rfl hleft))
          · obtain ⟨rfl, rfl, hmin, hmax'⟩ := (parseArgsValues_joined (Or.inr hmax)).1 ht
            rw [if_pos (List.cons_ne_nil _ _)] at h
            obtain ⟨rfl, hleft⟩ := Prod.mk.inj h
            injection hleft with hleft
            exact hleft ▸ .joined hf hmin hmax' hval

theorem lexShort_of_cluster {cs : Str} {args left : List Str} {occs : List (Occ ι)}
    (h : P.Cluster cs args occs left) : P.lexShort cs args = (occs, .ok left) := by
  induction h with
  | @more c cs args left f occs hf h0 hcs _ ih =>
    have ht : parseArgsValues (P.nargs f) [c] (some cs) true args = .ok ([], args) :=
      (parseArgsValues_discarded h0).2 ⟨rfl, rfl⟩
    rw [lexShort, hf]
    dsimp only
    rw [if_neg hcs, decide_eq_true hcs, ht]
    dsimp only
    rw [if_neg (by simp), ih]
  | @joined c value args f hf hmin hmax hv =>
    have ht : parseArgsValues (P.nargs f) [c] (some value) true args = .ok ([value], args) :=
      (parseArgsValues_joined (Or.inr (Nat.ne_of_gt hmax))).2 ⟨rfl, rfl, hmin, hmax⟩
    rw [lexShort, hf]
    dsimp only
    rw [if_neg hv, decide_eq_true hv, ht]
    exact if_pos (List.cons_ne_nil _ _)
  | @last c values left f hf htakes =>
    have ht : parseArgsValues (P.nargs f) [c] none false (values ++ left) = .ok (values, left) :=
      parseArgsValues_separate.2 ⟨rfl, htakes⟩
    rw [lexShort, hf]
    dsimp only
    rw [if_pos rfl, decide_eq_false (by simp), ht]
    dsimp only
    split_ifs with hv
    · rfl
    · obtain rfl : values = [] := not_not.1 hv
      rfl

theorem splitLong_plain {a : Str} (h : longSeparator ∉ a) : splitLong a = (a, none) := by
  have hall : ∀ c ∈ a, decide (c ≠ longSeparator) = true := fun c hc =>
    decide_eq_true fun he => h (he ▸ hc)
  rw [splitLong, List.takeWhile_eq_self_iff.2 hall, List.dropWhile_eq_nil_iff.2 hall]

theorem splitLong_joined {name : Str} (value : Str) (h : longSeparator ∉ name) :
    splitLong (name ++ longSeparator :: value) = (name, some value) := by
  have hall : ∀ c ∈ name, decide (c ≠ longSeparator) = true := fun c hc =>
    decide_eq_true fun he => h (he ▸ hc)
  rw [splitLong, List.takeWhile_append_of_pos hall, List.dropWhile_append_of_pos hall]
  simp

/-- A separator, or none. -/
theorem longSeparator_cases (a : Str) :
    longSeparator ∉ a ∨
      ∃ name value, longSeparator ∉ name ∧ a = name ++ longSeparator :: value := by
  by_cases h : longSeparator ∈ a
  · obtain ⟨name, value, rfl, hname⟩ := List.eq_append_cons_of_mem h
    exact Or.inr ⟨name, value, hname, rfl⟩
  · exact Or.inl h

theorem lexLong_plain {name : Str} {args : List Str} {r : Occ ι × List Str}
    (hsep : longSeparator ∉ name) : P.lexLong name args = .ok r ↔
      ∃ f values, P.find (.long name) = some f ∧ args = values ++ r.2 ∧
        Takes (P.nargs f) values r.2 ∧ r.1 = .flag f values := by
  rw [lexLong, splitLong_plain hsep]
  dsimp only
  cases hf : P.find (.long name) with
  | none => exact ⟨fun h => (by cases h), fun ⟨f, _, h, _⟩ => (by cases h)⟩
  | some f =>
    dsimp only
    rw [except_bind_eq_ok]
    constructor
    · rintro ⟨⟨values, left⟩, h1, h2⟩
      injection h2 with h2
      subst h2
      obtain ⟨hargs, htakes⟩ := parseArgsValues_separate.1 h1
      exact ⟨f, values, rfl, hargs, htakes, rfl⟩
    · rintro ⟨f', values, hf', hargs, htakes, hocc⟩
      obtain rfl := Option.some.inj hf'
      refine ⟨(values, r.2), parseArgsValues_separate.2 ⟨hargs, htakes⟩, ?_⟩
      rw [← hocc]
      rfl

theorem lexLong_joined {name value : Str} {args : List Str} {r : Occ ι × List Str}
    (hsep : longSeparator ∉ name) :
    P.lexLong (name ++ longSeparator :: value) args = .ok r ↔
      ∃ f, P.find (.long name) = some f ∧ (P.nargs f).min ≤ 1 ∧ 1 ≤ (P.nargs f).max ∧
        r = (.flag f [value], args) := by
  rw [lexLong, splitLong_joined value hsep]
  dsimp only
  cases hf : P.find (.long name) with
  | none => exact ⟨fun h => (by cases h), fun ⟨f, h, _⟩ => (by cases h)⟩
  | some f =>
    dsimp only
    rw [except_bind_eq_ok]
    constructor
    · rintro ⟨⟨values, left⟩, h1, h2⟩
      injection h2 with h2
      obtain ⟨rfl, rfl, hmin, hmax⟩ := (parseArgsValues_joined (Or.inl rfl)).1 h1
      exact ⟨f, rfl, hmin, hmax, h2.symm⟩
    · rintro ⟨f', hf', hmin, hmax, rfl⟩
      obtain rfl := Option.some.inj hf'
      exact ⟨([value], args), (parseArgsValues_joined (Or.inl rfl)).2 ⟨rfl, rfl, hmin, hmax⟩, rfl⟩

end ArgumentParser

/-! ## The kinds of arguments -/

theorem longPrefix_eq : longPrefix = ['-', '-'] := by decide

theorem shortPrefix_eq : shortPrefix = ['-'] := by decide

theorem parseOption_long {a : Str} (h : a ≠ []) : parseOption (longPrefix ++ a) = .LongFlag := by
  rw [parseOption, if_pos]
  refine ⟨List.isPrefixOf_iff_prefix.2 (List.prefix_append _ _), ?_⟩
  rw [List.length_append]
  exact Nat.lt_add_of_pos_right (List.length_pos_iff.2 h)

theorem parseOption_short {cs : Str} (h : cs ≠ []) (h' : cs.head? ≠ some '-') :
    parseOption (shortPrefix ++ cs) = .ShortFlag := by
  rw [parseOption, if_neg, if_pos]
  · refine ⟨List.isPrefixOf_iff_prefix.2 (List.prefix_append _ _), ?_⟩
    rw [List.length_append]
    exact Nat.lt_add_of_pos_right (List.length_pos_iff.2 h)
  · rintro ⟨hp, -⟩
    obtain ⟨a, ha⟩ := List.isPrefixOf_iff_prefix.1 hp
    rw [longPrefix_eq, shortPrefix_eq] at ha
    obtain ⟨-, ha⟩ := List.cons.inj ha
    have hcs : '-' :: a = cs := ha
    exact h' (hcs ▸ rfl)

theorem parseOption_eq_long {chunk : Str} (h : parseOption chunk = .LongFlag) :
    ∃ a, a ≠ [] ∧ chunk = longPrefix ++ a := by
  rw [parseOption] at h
  split_ifs at h with h1 h2
  obtain ⟨a, rfl⟩ := List.isPrefixOf_iff_prefix.1 h1.1
  refine ⟨a, ?_, rfl⟩
  rintro rfl
  exact absurd h1.2 (by simp)

theorem parseOption_eq_short {chunk : Str} (h : parseOption chunk = .ShortFlag)
    (hterm : chunk ≠ terminator) :
    ∃ cs, cs ≠ [] ∧ cs.head? ≠ some '-' ∧ chunk = shortPrefix ++ cs := by
  rw [parseOption] at h
  split_ifs at h with h1 h2
  obtain ⟨cs, rfl⟩ := List.isPrefixOf_iff_prefix.1 h2.1
  refine ⟨cs, ?_, ?_, rfl⟩
  · rintro rfl
    exact absurd h2.2 (by simp)
  · intro hhead
    obtain ⟨a, rfl⟩ : ∃ a, cs = '-' :: a := by
      cases cs with
      | nil => cases hhead
      | cons c a => exact ⟨a, by rw [Option.some.inj hhead]⟩
    have hlong : shortPrefix ++ '-' :: a = longPrefix ++ a := by
      rw [longPrefix_eq, shortPrefix_eq]
      rfl
    rw [hlong] at h1 hterm
    by_cases ha : a = []
    · exact hterm (by rw [ha]; decide)
    · refine h1 ⟨List.isPrefixOf_iff_prefix.2 (List.prefix_append _ _), ?_⟩
      rw [List.length_append]
      exact Nat.lt_add_of_pos_right (List.length_pos_iff.2 ha)

theorem parseOption_terminator : parseOption terminator = .ShortFlag := by decide

/-! ## Lexing decides the grammar -/

namespace ArgumentParser

variable {ι σ : Type} {P : ArgumentParser ι σ}

theorem lexFrom_terminated : ∀ {n : ℕ} {args : List Str}, args.length ≤ n →
    P.lexFrom n true args = ⟨args.map .positional, none⟩
  | 0, [], _ => rfl
  | _ + 1, [], _ => rfl
  | 0, _ :: _, h => absurd h (by simp)
  | n + 1, chunk :: rest, h => by
    have ih : P.lexFrom n true rest = ⟨rest.map .positional, none⟩ :=
      lexFrom_terminated (Nat.le_of_succ_le_succ h)
    rw [lexFrom, ih]
    simp

theorem lexFrom_of_line {args : List Str} {occs : List (Occ ι)} (h : P.Line args occs) :
    ∀ {n : ℕ}, args.length ≤ n → P.lexFrom n false args = ⟨occs, none⟩ := by
  induction h with
  | nil =>
    intro n _
    cases n <;> rfl
  | terminated args =>
    rintro (_ | n) hn
    · exact absurd hn (by simp)
    · rw [lexFrom, if_pos (by simp)]
      exact lexFrom_terminated (Nat.le_of_succ_le_succ hn)
  | @positional chunk args occs hc _ ih =>
    rintro (_ | n) hn
    · exact absurd hn (by simp)
    · have hterm : chunk ≠ terminator := by
        rintro rfl
        rw [parseOption_terminator] at hc
        cases hc
      rw [lexFrom, if_neg (by simp [hterm]), if_neg (by simp [hc]), if_neg (by simp [hc]),
        ih (Nat.le_of_succ_le_succ hn)]
  | @long name values left f occs hname hsep hf ht _ ih =>
    rintro (_ | n) hn
    · exact absurd hn (by simp)
    · have hlong := parseOption_long hname
      have hterm : longPrefix ++ name ≠ terminator := by
        intro he
        rw [he, parseOption_terminator] at hlong
        cases hlong
      have hleft : left.length ≤ n := by
        rw [List.length_cons, List.length_append] at hn
        omega
      have hlex : P.lexLong name (values ++ left) = .ok (.flag f values, left) :=
        (lexLong_plain hsep).2 ⟨f, values, hf, rfl, ht, rfl⟩
      rw [lexFrom, if_neg (by simp [hterm]), if_pos (by simp [hlong]), List.drop_left, hlex]
      dsimp only
      rw [ih hleft]
  | @longJoined name value args f occs hsep hf hmin hmax _ ih =>
    rintro (_ | n) hn
    · exact absurd hn (by simp)
    · rw [List.append_assoc] at hn ⊢
      have hlong : parseOption (longPrefix ++ (name ++ longSeparator :: value)) = .LongFlag :=
        parseOption_long (by simp)
      have hterm : longPrefix ++ (name ++ longSeparator :: value) ≠ terminator := by
        intro he
        rw [he, parseOption_terminator] at hlong
        cases hlong
      have hlex : P.lexLong (name ++ longSeparator :: value) args = .ok (.flag f [value], args) :=
        (lexLong_joined hsep).2 ⟨f, hf, hmin, hmax, rfl⟩
      rw [lexFrom, if_neg (by simp [hterm]), if_pos (by simp [hlong]), List.drop_left, hlex]
      dsimp only
      rw [ih (Nat.le_of_succ_le_succ hn)]
  | @short cs args left occs occs' hcs hc _ ih =>
    rintro (_ | n) hn
    · exact absurd hn (by simp)
    · have hshort := parseOption_short hc.ne_nil hcs
      have hterm : shortPrefix ++ cs ≠ terminator := by
        intro he
        rw [shortPrefix_eq] at he
        obtain ⟨-, he⟩ := List.cons.inj he
        have he' : cs = ['-'] := he
        exact hcs (he' ▸ rfl)
      have hlex := lexShort_of_cluster hc
      have hlen : left.length ≤ args.length := lexShort_length (congrArg Prod.snd hlex)
      have hleft : left.length ≤ n := Nat.le_trans hlen (Nat.le_of_succ_le_succ hn)
      rw [lexFrom, if_neg (by simp [hterm]), if_neg (by simp [hshort]), if_pos (by simp [hshort]),
        List.drop_left, hlex]
      dsimp only
      rw [ih hleft]

/-- Arguments that are lexed without error are a line. -/
theorem line_of_lexFrom : ∀ {n : ℕ} {args : List Str} {occs : List (Occ ι)}, args.length ≤ n →
    P.lexFrom n false args = ⟨occs, none⟩ → P.Line args occs
  | 0, [], _, _, h => (Lexed.mk.inj h).1 ▸ .nil
  | _ + 1, [], _, _, h => (Lexed.mk.inj h).1 ▸ .nil
  | 0, _ :: _, _, hn, _ => absurd hn (by simp)
  | n + 1, chunk :: rest, occs, hn, h => by
    have hn' : rest.length ≤ n := Nat.le_of_succ_le_succ hn
    rw [lexFrom] at h
    split_ifs at h with h1 h2 h3
    · have hterm : chunk = terminator := by simpa using h1
      rw [lexFrom_terminated hn'] at h
      obtain ⟨rfl, -⟩ := Lexed.mk.inj h
      exact hterm ▸ .terminated rest
    · obtain ⟨a, ha, rfl⟩ := parseOption_eq_long (by simpa using h2)
      rw [List.drop_left] at h
      cases hl : P.lexLong a rest with
      | error e =>
        rw [hl] at h
        cases (Lexed.mk.inj h).2
      | ok r =>
        obtain ⟨occ, left⟩ := r
        rw [hl] at h
        obtain ⟨rfl, herr⟩ := Lexed.mk.inj h
        have hline : P.Line left (P.lexFrom n false left).occs :=
          line_of_lexFrom (Nat.le_trans (lexLong_length hl) hn') (Lexed.ext rfl herr)
        rcases longSeparator_cases a with hsep | ⟨name, value, hsep, rfl⟩
        · obtain ⟨f, values, hf, rfl, ht, rfl⟩ := (lexLong_plain hsep).1 hl
          exact .long ha hsep hf ht hline
        · obtain ⟨f, hf, hmin, hmax, hr⟩ := (lexLong_joined hsep).1 hl
          obtain ⟨rfl, rfl⟩ := Prod.mk.inj hr
          rw [← List.append_assoc]
          exact .longJoined hsep hf hmin hmax hline
    · have hterm : chunk ≠ terminator := by simpa using h1
      obtain ⟨cs, hne, hcs, rfl⟩ := parseOption_eq_short (by simpa using h3) hterm
      rw [List.drop_left] at h
      cases hl : P.lexShort cs rest with
      | mk occs' r =>
        cases r with
        | error e =>
          rw [hl] at h
          cases (Lexed.mk.inj h).2
        | ok left =>
          rw [hl] at h
          obtain ⟨rfl, herr⟩ := Lexed.mk.inj h
          have hlen := lexShort_length (congrArg Prod.snd hl)
          exact .short hcs (cluster_of_lexShort hne hl)
            (line_of_lexFrom (Nat.le_trans hlen hn') (Lexed.ext rfl herr))
    · have hc : parseOption chunk = .Positional := by
        cases hp : parseOption chunk with
        | LongFlag => exact absurd (by simp [hp]) h2
        | ShortFlag => exact absurd (by simp [hp]) h3
        | Positional => rfl
      obtain ⟨rfl, herr⟩ := Lexed.mk.inj h
      exact .positional hc (line_of_lexFrom hn' (Lexed.ext rfl herr))

/-- Lexing finds what a line says, if it is one. -/
theorem lex_iff {args : List Str} {occs : List (Occ ι)} :
    P.lex args = ⟨occs, none⟩ ↔ P.Line args occs :=
  ⟨line_of_lexFrom (Nat.le_refl _), fun h => lexFrom_of_line h (Nat.le_refl _)⟩

theorem finish_eq_ok {error : Option Error} {s s' : σ} :
    P.finish error s = .ok s' ↔ error = none ∧ P.validate s = .ok () ∧ s = s' := by
  cases error with
  | some e => exact ⟨fun h => (by cases h), fun ⟨h, _⟩ => (by cases h)⟩
  | none =>
    rw [finish, except_bind_eq_ok]
    constructor
    · rintro ⟨⟨⟩, h, hs⟩
      exact ⟨rfl, h, Except.ok.inj hs⟩
    · rintro ⟨-, h, rfl⟩
      exact ⟨(), h, rfl⟩

theorem finish_eq_error {error : Option Error} {s : σ} {e : Error} :
    P.finish error s = .error e ↔ error = some e ∨ error = none ∧ P.validate s = .error e := by
  cases error with
  | some e' =>
    constructor
    · intro h
      exact Or.inl (congrArg some (Except.error.inj h))
    · rintro (h | ⟨h, -⟩)
      · exact congrArg _ (Option.some.inj h)
      · cases h
  | none =>
    rw [finish]
    cases hv : P.validate s with
    | ok u => exact ⟨fun h => (by cases h), fun h => (by rcases h with h | ⟨-, h⟩ <;> cases h)⟩
    | error e' =>
      constructor
      · intro h
        exact Or.inr ⟨rfl, congrArg _ (Except.error.inj h)⟩
      · rintro (h | ⟨-, h⟩)
        · cases h
        · exact congrArg _ (Except.error.inj h)

theorem Line.fed {args : List Str} {occs : List (Occ ι)} (h : P.Line args occs) :
    ∀ o ∈ occs, P.Fed o := by
  have hlex : P.lexFrom args.length false args = ⟨occs, none⟩ := lex_iff.2 h
  have hfed : ∀ o ∈ (P.lexFrom args.length false args).occs, P.Fed o := lexFrom_fed
  rwa [hlex] at hfed

/-- A line says one thing. -/
theorem Line.unique {args : List Str} {occs occs' : List (Occ ι)} (h : P.Line args occs)
    (h' : P.Line args occs') : occs = occs' :=
  congrArg Lexed.occs ((lex_iff.2 h).symm.trans (lex_iff.2 h'))

theorem parseCLI_eq (args : List Str) (s : σ) :
    P.parseCLI s args = P.takeAll (P.lex args).occs s >>= P.finish (P.lex args).error :=
  parseFrom_eq (Nat.le_refl _)

theorem parseCLI_eq_ok {s s' : σ} {args : List Str} : P.parseCLI s args = .ok s' ↔
    ∃ occs, P.Line args occs ∧ P.takeAll occs s = .ok s' ∧ P.validate s' = .ok () := by
  rw [parseCLI_eq, except_bind_eq_ok]
  constructor
  · rintro ⟨s₁, htake, hfin⟩
    obtain ⟨herr, hval, rfl⟩ := finish_eq_ok.1 hfin
    exact ⟨_, lex_iff.1 (Lexed.ext rfl herr), htake, hval⟩
  · rintro ⟨occs, hline, htake, hval⟩
    rw [lex_iff.2 hline]
    exact ⟨s', htake, finish_eq_ok.2 ⟨rfl, hval, rfl⟩⟩

/-- Parsing fails where an occurrence fails, or at the end. -/
theorem parseCLI_eq_error {s : σ} {args : List Str} {e : Error} :
    P.parseCLI s args = .error e ↔
      (∃ pre o post s', (P.lex args).occs = pre ++ o :: post ∧ P.takeAll pre s = .ok s' ∧
        P.take o s' = .error e) ∨
      ∃ s', P.takeAll (P.lex args).occs s = .ok s' ∧
        ((P.lex args).error = some e ∨ (P.lex args).error = none ∧ P.validate s' = .error e) := by
  rw [parseCLI_eq, ← takeAll_eq_error]
  cases ht : P.takeAll (P.lex args).occs s with
  | error e' =>
    constructor
    · intro h
      exact Or.inl (congrArg _ (Except.error.inj h))
    · rintro (h | ⟨s', h, -⟩)
      · exact congrArg _ (Except.error.inj h)
      · cases h
  | ok s₁ =>
    constructor
    · intro h
      exact Or.inr ⟨s₁, rfl, finish_eq_error.1 h⟩
    · rintro (h | ⟨s', h, herr⟩)
      · cases h
      · obtain rfl := Except.ok.inj h
        exact finish_eq_error.2 herr

/-- **The parser accepts exactly the lines of the grammar that evaluate.**  A
    line says one thing, and the parser returns what it evaluates to. -/
theorem parse_iff (P : ArgumentParser ι σ) (s s' : σ) (args : List Str) :
    (∀ occs occs', P.Line args occs → P.Line args occs' → occs = occs') ∧
    (P.parseCLI s args = .ok s' ↔ ∃ occs, (∀ occs', P.Line args occs' ↔ occs' = occs) ∧
      P.takeAll occs s = .ok s' ∧ P.validate s' = .ok ()) := by
  refine ⟨fun occs occs' h h' => h.unique h', ?_⟩
  rw [parseCLI_eq_ok]
  constructor
  · rintro ⟨occs, hline, h⟩
    refine ⟨occs, fun occs' => ⟨fun hline' => hline'.unique hline, ?_⟩, h⟩
    rintro rfl
    exact hline
  · rintro ⟨occs, hline, h⟩
    exact ⟨occs, (hline occs).2 rfl, h⟩

end ArgumentParser

/-! ## Numbers -/

theorem isSpace_of_isDigit {c : Char} (h : c.isDigit = true) : isSpace c = false := by
  simp only [Char.isDigit, Bool.and_eq_true, decide_eq_true_eq, UInt32.le_iff_toNat_le] at h
  have h1 : 48 ≤ c.toNat := h.1
  have h2 : c.toNat ≤ 57 := h.2
  simp [isSpace]
  omega

theorem sign_of_isDigit {c : Char} {cs : Str} (h : c.isDigit = true) :
    sign (c :: cs) = (false, c :: cs) := by
  rw [sign]
  · rintro cs' h'
    rw [(List.cons.inj h').1] at h
    exact absurd h (by decide)
  · rintro cs' h'
    rw [(List.cons.inj h').1] at h
    exact absurd h (by decide)

theorem isDigit_toDigits {n : ℕ} {c : Char} (h : c ∈ Nat.toDigits 10 n) : c.isDigit = true :=
  Nat.isDigit_of_mem_toDigits (by decide) (by decide) h

/-- The digits of a number are taken, after its sign, up to what is no digit. -/
theorem takeInt_digits {s rest : Str} {negative : Bool} {n : ℕ} {i : Int}
    (hs : sign (s.dropWhile isSpace) = (negative, Nat.toDigits 10 n ++ rest))
    (hrest : rest.takeWhile Char.isDigit = []) (hi : i = if negative then -(n : Int) else n)
    (hlow : -2147483648 ≤ i) (hhigh : i ≤ 2147483647) : takeInt s = some (i, rest) := by
  have htake : (Nat.toDigits 10 n ++ rest).takeWhile Char.isDigit = Nat.toDigits 10 n := by
    rw [List.takeWhile_append_of_pos fun c hc => isDigit_toDigits hc, hrest, List.append_nil]
  have hdrop : (Nat.toDigits 10 n ++ rest).dropWhile Char.isDigit = rest := by
    have h := List.takeWhile_append_dropWhile (p := Char.isDigit) (l := Nat.toDigits 10 n ++ rest)
    rw [htake] at h
    exact List.append_cancel_left h
  have hne : Nat.toDigits 10 n ≠ [] := Nat.toDigits_ne_nil
  simp only [takeInt, hs, htake, hdrop, Nat.ofDigitChars_ten_toDigits]
  rw [← hi, if_neg]
  rintro (h | h | h)
  · exact hne h
  · omega
  · omega

theorem takeInt_toDigits {n : ℕ} (hn : n ≤ 2147483647) {rest : Str}
    (hrest : rest.takeWhile Char.isDigit = []) :
    takeInt (Nat.toDigits 10 n ++ rest) = some ((n : Int), rest) := by
  obtain ⟨c, cs, hc⟩ := List.exists_cons_of_ne_nil (Nat.toDigits_ne_nil (n := n) (b := 10))
  have hcd : c.isDigit = true := isDigit_toDigits (n := n) (by simp [hc])
  have hsign : sign ((Nat.toDigits 10 n ++ rest).dropWhile isSpace) =
      (false, Nat.toDigits 10 n ++ rest) := by
    rw [hc, List.cons_append, List.dropWhile_cons_of_neg (by simp [isSpace_of_isDigit hcd]),
      sign_of_isDigit hcd]
  exact takeInt_digits hsign hrest rfl (by omega) (by omega)

/-- The digits of a number, after its sign. -/
theorem readInt_digits {value : Str} {negative : Bool} {n : ℕ} {i : Int32}
    (hvalue : sign (value.dropWhile isSpace) = (negative, Nat.toDigits 10 n))
    (hi : i.toInt = if negative then -(n : Int) else n) : readInt value = some i := by
  have hlow := i.le_toInt
  have hhigh := i.toInt_lt
  have htake : takeInt value = some (i.toInt, []) :=
    takeInt_digits (by rw [hvalue, List.append_nil]) rfl hi (by omega) (by omega)
  rw [readInt, htake]
  dsimp only
  rw [if_pos List.dropWhile_nil, Int32.ofInt_toInt]

/-- A number that is printed is read back. -/
theorem readInt_toString (i : Int32) : readInt (toString i.toInt).toList = some i := by
  show readInt (Int.repr i.toInt).toList = some i
  cases h : i.toInt with
  | ofNat n =>
    obtain ⟨c, cs, hc⟩ := List.exists_cons_of_ne_nil (Nat.toDigits_ne_nil (n := n) (b := 10))
    have hcd : c.isDigit = true :=
      Nat.isDigit_of_mem_toDigits (b := 10) (n := n) (by decide) (by decide) (by simp [hc])
    rw [Int.repr, Nat.toList_repr]
    have hsign : sign ((Nat.toDigits 10 n).dropWhile isSpace) = (false, Nat.toDigits 10 n) := by
      rw [hc, List.dropWhile_cons_of_neg (by simp [isSpace_of_isDigit hcd]), sign_of_isDigit hcd]
    exact readInt_digits hsign h
  | negSucc n =>
    have hrepr : (Int.repr (Int.negSucc n)).toList = '-' :: Nat.toDigits 10 (n + 1) := by
      rw [Int.repr]
      simp [Nat.toList_repr]
    have hsign : sign (('-' :: Nat.toDigits 10 (n + 1)).dropWhile isSpace) =
        (true, Nat.toDigits 10 (n + 1)) := rfl
    rw [hrepr]
    exact readInt_digits hsign h

end Args

end ReadoutMaster
