/-
  The command line parser of args (src/args.hxx), as far as
  `readout-replay` and `readout-config` use it.

  An `ArgumentParser` has flags of type `ι`, in the order in which they were
  added, and a state `σ` that holds what has been matched and read so far.
  `parseFrom` is the loop of `Parse` over the arguments, `parseLong` and
  `parseShort` one argument of flags.  All of them stop at the first exception.

  Commands, completion, kick-out and flags with options of their own
  (`Options::Single`, `Options::Required`) are not used by the programs; joined
  and separate values are both allowed, which is how the parser is constructed.
-/
import Mathlib.Data.List.Basic

namespace ReadoutMaster

namespace Args

/-- A `std::string`; a `char` is a byte. -/
abbrev Str := List Char

/-- The exceptions, with their `what()`. -/
inductive Error where
  | help (text : Str)
  | parse (text : Str)
  | validation (text : Str)
  /-- an exception of the reader of a value -/
  | reader (text : Str)
  deriving DecidableEq, Repr

inductive EitherFlag where
  | short (flag : Char)
  | long (flag : Str)
  deriving DecidableEq, Repr

structure Matcher where
  shortFlags : List Char
  longFlags : List Str

def Matcher.matches (m : Matcher) : EitherFlag → Bool
  | .short flag => m.shortFlags.contains flag
  | .long flag => m.longFlags.contains flag

/-- How many values an option takes. -/
structure Nargs where
  min : ℕ
  max : ℕ
  min_le_max : min ≤ max

/-- `Nargs(num)` -/
def Nargs.exactly (num : ℕ) : Nargs := ⟨num, num, Nat.le_refl num⟩

def longPrefix : Str := "--".toList
def shortPrefix : Str := "-".toList
def longSeparator : Char := '='
def terminator : Str := "--".toList

inductive OptionType where
  | LongFlag | ShortFlag | Positional
  deriving DecidableEq, Repr

def parseOption (s : Str) : OptionType :=
  if longPrefix.isPrefixOf s ∧ s.length > longPrefix.length then .LongFlag
  else if shortPrefix.isPrefixOf s ∧ s.length > shortPrefix.length then .ShortFlag
  else .Positional

/-- The loop of `ParseArgsValues`: the values taken so far and the arguments
    that are left. -/
def takeValues (nargs : Nargs) (values : List Str) : List Str → List Str × List Str
  | [] => (values, [])
  | value :: rest =>
    if values.length < nargs.max ∧
        (values.length < nargs.min ∨ parseOption value = .Positional) then
      takeValues nargs (values ++ [value]) rest
    else (values, value :: rest)

/-- The values of an option, the joined one or those after it, and the
    arguments that are left. -/
def values (nargs : Nargs) (joined : Option Str) (canDiscardJoined : Bool) (rest : List Str) :
    List Str × List Str :=
  match joined with
  | some value => (if canDiscardJoined = false ∨ nargs.max ≠ 0 then [value] else [], rest)
  | none => takeValues nargs [] rest

/-- `ParseArgsValues` for the flag named `arg`, with what is joined to it. -/
def parseArgsValues (nargs : Nargs) (arg : Str) (joined : Option Str) (canDiscardJoined : Bool)
    (rest : List Str) : Except Error (List Str × List Str) :=
  let taken := values nargs joined canDiscardJoined rest
  let count := taken.1.length
  if count > nargs.max then
    .error (.parse ("Passed an argument into a non-argument flag: ".toList ++ arg))
  else if count < nargs.min then
    let flag := "Flag '".toList ++ arg
    if nargs.min = 1 ∧ nargs.max = 1 then
      .error (.parse (flag ++ "' requires an argument but received none".toList))
    else if nargs.min = 1 then
      .error (.parse (flag ++ "' requires at least one argument but received none".toList))
    else if nargs.min ≠ nargs.max then
      .error (.parse (flag ++ "' requires at least ".toList ++ (toString nargs.min).toList ++
        " arguments but received ".toList ++ (toString count).toList))
    else
      .error (.parse (flag ++ "' requires ".toList ++ (toString nargs.min).toList ++
        " arguments but received ".toList ++ (toString count).toList))
  else .ok taken

structure ArgumentParser (ι σ : Type) where
  /-- the flags, in the order in which `Match` tries them -/
  flags : List ι
  matcher : ι → Matcher
  nargs : ι → Nargs
  /-- `matched = true` -/
  mark : ι → σ → σ
  parseValue : ι → List Str → σ → Except Error σ
  /-- `GetNextPositional()` finds a positional -/
  ready : σ → Bool
  parsePositional : Str → σ → Except Error σ
  validate : σ → Except Error Unit

/-- The name of a long flag, and what is joined to it. -/
def splitLong (argchunk : Str) : Str × Option Str :=
  (argchunk.takeWhile (· ≠ longSeparator),
    match argchunk.dropWhile (· ≠ longSeparator) with
    | [] => none
    | _ :: value => some value)

def unmatched (arg : Str) : Error := .parse ("Flag could not be matched: ".toList ++ arg)

/-- An argument for which no positional is ready. -/
def noPositional (chunk : Str) : Error :=
  .parse ("Passed in argument, but no positional arguments were ready to receive it: ".toList ++
    chunk)

namespace ArgumentParser

variable {ι σ : Type} (P : ArgumentParser ι σ)

/-- `Match`, which finds the first flag that matches. -/
def find (flag : EitherFlag) : Option ι := P.flags.find? fun f => (P.matcher f).matches flag

/-- `ParseLong`, on the argument without its prefix: the arguments that are
    left, and the state. -/
def parseLong (argchunk : Str) (rest : List Str) (s : σ) : Except Error (List Str × σ) :=
  let (arg, joined) := splitLong argchunk
  match P.find (.long arg) with
  | none => .error (unmatched arg)
  | some flag => do
    let (values, rest) ← parseArgsValues (P.nargs flag) arg joined false rest
    let s ← P.parseValue flag values (P.mark flag s)
    return (rest, s)

/-- `ParseShort`, on the argument without its prefix. -/
def parseShort : Str → List Str → σ → Except Error (List Str × σ)
  | [], rest, s => .ok (rest, s)
  | arg :: value, rest, s =>
    match P.find (.short arg) with
    | none => .error (unmatched ("'".toList ++ arg :: "'".toList))
    | some flag => do
      let joined := if value = [] then none else some value
      let (values, rest) ← parseArgsValues (P.nargs flag) [arg] joined (value ≠ []) rest
      let s ← P.parseValue flag values (P.mark flag s)
      if values ≠ [] then return (rest, s) else parseShort value rest s

/-- The loop of `Parse`, and the validation after it.  A flag may take up some
    of the arguments after it; `n` arguments need at most `n` iterations. -/
def parseFrom : ℕ → Bool → List Str → σ → Except Error σ
  | _, _, [], s => do
    P.validate s
    return s
  | 0, _, _ :: _, s => .ok s
  | n + 1, terminated, chunk :: rest, s =>
    if !terminated && chunk = terminator then parseFrom n true rest s
    else if !terminated && parseOption chunk = .LongFlag then do
      let (rest, s) ← P.parseLong (chunk.drop longPrefix.length) rest s
      parseFrom n terminated rest s
    else if !terminated && parseOption chunk = .ShortFlag then do
      let (rest, s) ← P.parseShort (chunk.drop shortPrefix.length) rest s
      parseFrom n terminated rest s
    else if P.ready s then do
      let s ← P.parsePositional chunk s
      parseFrom n terminated rest s
    else .error (noPositional chunk)

/-- `ParseCLI`, on the arguments after the program name, from the state that
    `Reset` leaves. -/
def parseCLI (s : σ) (args : List Str) : Except Error σ := P.parseFrom args.length false args s

end ArgumentParser

/-! ## Values -/

/-- `std::isspace` in the classic locale. -/
def isSpace (c : Char) : Bool := c.toNat = 32 || (9 ≤ c.toNat && c.toNat ≤ 13)

/-- The sign and the rest of a number. -/
def sign : Str → Bool × Str
  | '-' :: cs => (true, cs)
  | '+' :: cs => (false, cs)
  | cs => (false, cs)

/-- `std::istream >> int`, and the number that `std::stoi` reads: the number and
    what is left. -/
def takeInt (s : Str) : Option (Int × Str) :=
  let number := sign (s.dropWhile isSpace)
  let digits := number.2.takeWhile Char.isDigit
  let magnitude : Int := Nat.ofDigitChars 10 digits 0
  let i := if number.1 then -magnitude else magnitude
  if digits = [] ∨ i < -2147483648 ∨ 2147483647 < i then none
  else some (i, number.2.dropWhile Char.isDigit)

/-- `std::istringstream(value) >> destination` for an `int`, after which only
    white space may be left. -/
def readInt (value : Str) : Option Int32 :=
  match takeInt value with
  | some (i, rest) => if rest.dropWhile isSpace = [] then some (Int32.ofInt i) else none
  | none => none

/-- `ValueReader` for an `int`, of the option with the given name. -/
def valueReader (name : String) (value : Str) : Except Error Int32 :=
  match readInt value with
  | some i => .ok i
  | none =>
    .error (.parse ("Argument '".toList ++ name.toList ++
      "' received invalid value type '".toList ++ value ++ "'".toList))

end Args

end ReadoutMaster
