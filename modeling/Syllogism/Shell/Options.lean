import Syllogism.Text.Digit
import Syllogism.Text.Quoted

/-! Command lines: options at any place, and words. -/

namespace Syllogism.Shell

/-- An option with all its spellings; one that takes a value takes the next word, or what is
written behind its name. -/
structure Flag where
  spellings : List Text
  takesValue : Bool
  asksHelp : Bool
  deriving DecidableEq, Repr

/-- How many words are wanted: one, one or more, or one and all that comes behind it, options
too. -/
inductive Arity where
  | one
  | many
  | rest
  deriving DecidableEq, Repr

structure Operand where
  name : Text
  arity : Arity
  required : Bool
  deriving DecidableEq, Repr

/-- What a command line may hold. -/
structure Grammar where
  program : Text
  help : Text
  flags : List Flag
  operand : Option Operand

/-- Ways to leave without doing anything: help was asked for, or the command line is wrong. -/
inductive Leave where
  | help (t : Text)
  | misuse (program message : Text)
  deriving DecidableEq, Repr

/-- What a command line holds: options in order, each with its value if it has one, words, and what
has no place in the grammar. -/
structure Arguments where
  options : List (Flag × Option Text)
  words : List Text
  extras : List Text

/-- An option as it was found: which one under which spelling, with the text behind its name. -/
structure Use where
  flag : Flag
  spelling : Text
  value : Option Text

/-- An argument on its own. Behind a double dash there are words only. -/
inductive Token where
  | word (t : Text)
  | doubleDash
  | unknown (t : Text)
  | option (t : Text) (u : Use)

def Token.text : Token → Text
  | word t => t
  | doubleDash => "--"
  | unknown t => t
  | option t _ => t

def Token.isDoubleDash : Token → Bool
  | doubleDash => true
  | _ => false

def Token.isOption : Token → Bool
  | unknown _ => true
  | option _ _ => true
  | _ => false

/-- What ends the options, and what the long ones start with. -/
def dashes : Text := "--"

namespace Grammar

variable (g : Grammar)

def misuse (message : Text) : Leave := .misuse g.program message

/-- All spellings with their options, in order. -/
def spellings : List (Text × Flag) := g.flags.flatMap fun f => f.spellings.map fun s => (s, f)

def flag? (spelling : Text) : Option Flag :=
  (g.spellings.find? fun s => s.1 == spelling).map Prod.snd

/-- A text cut at its first equals sign. -/
def cut (t : Text) : Text × Option Text :=
  match t.dropWhile (· != .char '=') with
  | [] => (t, none)
  | _ :: value => (t.takeWhile (· != .char '='), some value)

/-- The options that an argument may mean without naming one in full: those whose spelling it
begins, and a short one with its value right behind it. -/
def candidates (t : Text) : List Use :=
  if t.take 2 == dashes then
    let (name, value) := cut t
    g.spellings.filterMap fun s =>
      if name.isPrefixOf s.1 then some ⟨s.2, s.1, value⟩ else none
  else
    g.spellings.filterMap fun s =>
      if s.1 == t.take 2 then some ⟨s.2, s.1, some (t.drop 2)⟩
      else if t.isPrefixOf s.1 then some ⟨s.2, s.1, none⟩
      else none

def allDigits (t : Text) : Bool := !t.isEmpty && t.all Text.isDigit

/-- A dash and digits, with a point before the last of them or without. A line feed may close it. -/
def isNegativeNumber (t : Text) : Bool :=
  let t := if t.getLast? == some '\n' then t.dropLast else t
  match t with
  | .char '-' :: rest =>
    allDigits rest ||
      match rest.dropWhile Text.isDigit with
      | .char '.' :: rest => allDigits rest
      | _ => false
  | _ => false

/-- What an argument is. A number below zero and a text with a space in it are words, unless they
name an option. -/
def token (t : Text) : Except Leave Token :=
  if t.head? != some '-' then .ok (.word t)
  else
    match g.flag? t with
    | some f => .ok (.option t ⟨f, t, none⟩)
    | none =>
      if t.length = 1 then .ok (.word t)
      else
        match (cut t).2.bind fun v => (g.flag? (cut t).1).map fun f => (f, v) with
        | some (f, v) => .ok (.option t ⟨f, (cut t).1, some v⟩)
        | none =>
          match g.candidates t with
          | [u] => .ok (.option t u)
          | [] =>
            if isNegativeNumber t || t.contains ' ' then .ok (.word t) else .ok (.unknown t)
          | us =>
            .error (g.misuse (Text.of "ambiguous option: " ++ t ++ Text.of " could match " ++
              Text.joinWith ", " (us.map Use.spelling)))

def tokens : List Text → Except Leave (List Token)
  | [] => .ok []
  | t :: rest =>
    if t == dashes then .ok (.doubleDash :: rest.map .word)
    else
      match g.token t with
      | .error e => .error e
      | .ok token => (tokens rest).map (token :: ·)

def misuseOf (f : Flag) (message : Text) : Leave :=
  g.misuse (Text.of "argument " ++ Text.joinWith "/" f.spellings ++ Text.of ": " ++ message)

def ignored (f : Flag) (value : Text) : Leave :=
  g.misuseOf f (Text.of "ignored explicit argument " ++ Text.quoted value)

/-- An option without a text behind its name: the options given, and how many of the tokens behind
it are taken. -/
def takeBare (f : Flag) (behind : List Token) :
    Except Leave (List (Flag × Option Text) × Nat) :=
  if f.takesValue then
    match behind with
    | .word v :: _ => .ok ([(f, some v)], 1)
    | _ => .error (g.misuseOf f "expected one argument")
  else .ok ([(f, none)], 0)

/-- The value in a text behind the name of an option. A double dash is none. -/
def gluedValue (t : Text) : Option Text := if t == dashes then none else some t

/-- An option with a text behind its name: its value, or behind a single dash more options of one
letter each. Of these only the last can take a token behind it. -/
def takeGlued (behind : List Token) (f : Flag) (spelling : Text) :
    (t : Text) → Except Leave (List (Flag × Option Text) × Nat)
  | [] => if f.takesValue then .ok ([(f, some [])], 0) else .error (g.ignored f [])
  | c :: t =>
    if f.takesValue then .ok ([(f, gluedValue (c :: t))], 0)
    else if spelling.take 2 == dashes then .error (g.ignored f (c :: t))
    else
      match g.flag? ['-', c] with
      | none => .error (g.ignored f (c :: t))
      | some next =>
        let more := match t with
          | [] => g.takeBare next behind
          | t => takeGlued behind next ['-', c] t
        more.map fun (given, n) => ((f, none) :: given, n)
termination_by t => t.length
decreasing_by all_goals simp only [List.length_cons]; omega

def take (u : Use) (behind : List Token) : Except Leave (List (Flag × Option Text) × Nat) :=
  match u.value with
  | none => g.takeBare u.flag behind
  | some t => g.takeGlued behind u.flag u.spelling t

/-- How many tokens the operand takes where they start; none if it does not fit. -/
def span (arity : Arity) (tokens : List Token) : Nat :=
  let lead := (tokens.takeWhile Token.isDoubleDash).length
  match tokens.drop lead with
  | .word _ :: rest =>
    lead + 1 + (match arity with
      | .one => (rest.takeWhile Token.isDoubleDash).length
      | .many => (rest.takeWhile fun t => !t.isOption).length
      | .rest => rest.length)
  | _ => 0

/-- The words of an operand. The first double dash among them is no word, unless all that follows is
taken as it is. -/
def wordsOf (arity : Arity) (tokens : List Token) : List Text :=
  let texts := tokens.map Token.text
  if arity = .rest then texts else texts.erase dashes

/-- Reads the tokens from left to right. An operand that has its words takes no more. -/
def collect (operand : Option Operand) (tokens : List Token) : Except Leave Arguments :=
  match tokens with
  | [] => .ok ⟨[], [], []⟩
  | .option _ u :: rest =>
    match g.take u rest with
    | .error e => .error e
    | .ok (given, n) =>
      if given.any fun o => o.1.asksHelp then .error (.help g.help)
      else (collect operand (rest.drop n)).map fun a => { a with options := given ++ a.options }
  | .unknown t :: rest =>
    (collect operand rest).map fun a => { a with extras := t :: a.extras }
  | t :: rest =>
    match operand.map fun o => (o.arity, span o.arity (t :: rest)) with
    | some (arity, n + 1) =>
      (collect none (rest.drop n)).map fun a =>
        { a with words := wordsOf arity ((t :: rest).take (n + 1)) ++ a.words }
    | _ => (collect operand rest).map fun a => { a with extras := t.text :: a.extras }
termination_by tokens.length
decreasing_by all_goals simp only [List.length_cons, List.length_drop]; omega

/-- What a command line holds. It is wrong without the words that the operand wants; what has no
place in the grammar is left to the caller. -/
def parse (arguments : List Text) : Except Leave Arguments :=
  match g.tokens arguments with
  | .error e => .error e
  | .ok tokens =>
    match g.collect g.operand tokens with
    | .error e => .error e
    | .ok a =>
      match g.operand with
      | some o =>
        if o.required && a.words.isEmpty then
          .error (g.misuse (Text.of "the following arguments are required: " ++ o.name))
        else .ok a
      | none => .ok a

end Grammar

namespace Arguments

def has (a : Arguments) (spelling : String) : Bool :=
  a.options.any fun o => o.1.spellings.contains (Text.of spelling)

/-- What an option was given last; its value may be missing. -/
def last? (a : Arguments) (spelling : String) : Option (Option Text) :=
  (a.options.reverse.find? fun o => o.1.spellings.contains (Text.of spelling)).map Prod.snd

end Arguments

/-- The complaint about arguments without a place. -/
def unrecognized (program : Text) (extras : List Text) : Leave :=
  .misuse program (Text.of "unrecognized arguments: " ++ Text.joinWith " " extras)

end Syllogism.Shell
