import Syllogism.Json.Fault
import Syllogism.Json.Value

/-! Reading JSON. A reader takes a text and gives a value with the text behind it, or says why it
stops. -/

namespace Syllogism.Json

abbrev Reader (α : Type) := Text → Except Stop (α × Text)

def isSpace (c : CodePoint) : Bool := c == ' ' || c == '\t' || c == '\r' || c == '\n'

def skip (t : Text) : Text := t.dropWhile isSpace

def fail {α : Type} (reason : Reason) (rest : Text) : Except Stop α :=
  .error (.fault reason rest.length)

def escaped? : CodePoint → Option CodePoint
  | .char '"' => some '"'
  | .char '\\' => some '\\'
  | .char '/' => some '/'
  | .char 'b' => some '\x08'
  | .char 'f' => some '\x0c'
  | .char 'n' => some '\n'
  | .char 'r' => some '\r'
  | .char 't' => some '\t'
  | _ => none

def hexValue? (c : CodePoint) : Option Nat :=
  if 0x30 ≤ c.code ∧ c.code ≤ 0x39 then some (c.code - 0x30)
  else if 0x61 ≤ c.code ∧ c.code ≤ 0x66 then some (c.code - 0x61 + 10)
  else if 0x41 ≤ c.code ∧ c.code ≤ 0x46 then some (c.code - 0x41 + 10)
  else none

/-- The number that four hexadecimal digits stand for. -/
def unit? (a b c d : CodePoint) : Option Nat :=
  match hexValue? a, hexValue? b, hexValue? c, hexValue? d with
  | some a, some b, some c, some d => some (a * 0x1000 + b * 0x100 + c * 0x10 + d)
  | _, _, _, _ => none

def isHighHalf (n : Nat) : Bool := 0xD800 ≤ n && n ≤ 0xDBFF

def isLowHalf (n : Nat) : Bool := 0xDC00 ≤ n && n ≤ 0xDFFF

def joinHalves (high low : Nat) : CodePoint :=
  .ofCode (0x10000 + (high - 0xD800) * 0x400 + (low - 0xDC00))

def prepend {α : Type} (a : α) (r : Except Stop (List α × Text)) : Except Stop (List α × Text) :=
  r.map fun p => (a :: p.1, p.2)

/-- The number of an escape that a text starts with. Four digits at the very end of a text make
no number. -/
def code? : Text → Option (Option Nat)
  | .char '\\' :: .char 'u' :: a :: b :: c :: d :: _ :: _ => some (unit? a b c d)
  | _ => none

/-- The rest of a string behind its opening quote. `opened` is the number of characters that were
left at that quote. -/
def stringFrom (opened : Nat) : Reader Text
  | [] => .error (.fault .openString opened)
  | .char '"' :: rest => .ok ([], rest)
  | .char '\\' :: rest =>
    match rest with
    | [] => .error (.fault .openString opened)
    | .char 'u' :: rest' =>
      match code? ('\\' :: 'u' :: rest') with
      | none | some none => fail .codeEscape rest
      | some (some n) =>
        if isHighHalf n then
          match code? (rest'.drop 4) with
          | none => prepend (CodePoint.ofCode n) (stringFrom opened (rest'.drop 4))
          | some none => fail .codeEscape (rest'.drop 5)
          | some (some low) =>
            if isLowHalf low then prepend (joinHalves n low) (stringFrom opened (rest'.drop 10))
            else prepend (CodePoint.ofCode n) (stringFrom opened (rest'.drop 4))
        else prepend (CodePoint.ofCode n) (stringFrom opened (rest'.drop 4))
    | c :: rest' =>
      match escaped? c with
      | some d => prepend d (stringFrom opened rest')
      | none => fail .escape ('\\' :: rest)
  | c :: rest =>
    if c.code < 0x20 then fail .control (c :: rest)
    else prepend c (stringFrom opened rest)
termination_by t => t.length
decreasing_by all_goals simp only [List.length_cons, List.length_drop]; omega

def isFigure (c : CodePoint) : Bool := 0x30 ≤ c.code && c.code ≤ 0x39

/-- The parts of a number: sign, digits before the point, digits behind it, exponent. -/
structure Numeral where
  negative : Bool
  whole : Text
  fraction : Text
  exponent : Option (Bool × Text)

/-- Digits behind a point, if there are any. -/
def fractionOf : Text → Text × Text
  | .char '.' :: rest =>
    let digits := rest.takeWhile isFigure
    if digits.isEmpty then ([], '.' :: rest) else (digits, rest.dropWhile isFigure)
  | t => ([], t)

/-- The sign and the digits of an exponent, if there are any. -/
def exponentOf : Text → Option (Bool × Text) × Text
  | e :: rest =>
    if e = 'e' ∨ e = 'E' then
      let (negative, digits) := match rest with
        | .char '-' :: digits => (true, digits)
        | .char '+' :: digits => (false, digits)
        | digits => (false, digits)
      if (digits.takeWhile isFigure).isEmpty then (none, e :: rest)
      else (some (negative, digits.takeWhile isFigure), digits.dropWhile isFigure)
    else (none, e :: rest)
  | [] => (none, [])

/-- The sign of a number, if there is one. -/
def signOf : Text → Bool × Text
  | .char '-' :: rest => (true, rest)
  | t => (false, t)

/-- The digits before the point. A zero in front is the whole of them. -/
def wholeOf : Text → Text
  | .char '0' :: _ => ['0']
  | t => t.takeWhile isFigure

/-- The longest number that the text starts with. -/
def numeral? (t : Text) : Option (Numeral × Text) :=
  let (negative, t) := signOf t
  let whole := wholeOf t
  if whole.isEmpty then none
  else
    let (fraction, t) := fractionOf (t.drop whole.length)
    let (exponent, t) := exponentOf t
    some (⟨negative, whole, fraction, exponent⟩, t)

def Numeral.value (n : Numeral) : Except Stop Json :=
  match n.fraction, n.exponent with
  | [], none =>
    if n.whole.length > digitLimit then .error (.longInteger n.whole.length)
    else
      let size : Int := Decimal.valueOf n.whole
      .ok (.integer (if n.negative then -size else size))
  | fraction, exponent =>
    let shift : Int := match exponent with
      | none => 0
      | some (negative, digits) =>
        if negative then -(Decimal.valueOf digits : Int) else Decimal.valueOf digits
    .ok (.decimal (.finite n.negative (Decimal.valueOf (n.whole ++ fraction))
      (shift - fraction.length)))

/-- The words that stand for a value. -/
def words : List (Text × Json) :=
  [("null", null), ("true", bool true), ("false", bool false), ("NaN", decimal .notANumber),
    ("Infinity", decimal (.infinite false)), ("-Infinity", decimal (.infinite true))]

/-- A word or a number. -/
def plain : Reader Json := fun t =>
  match words.find? fun w => w.1.isPrefixOf t with
  | some w => .ok (w.2, t.drop w.1.length)
  | none =>
    match numeral? t with
    | some (n, rest) => n.value.map fun v => (v, rest)
    | none => fail .value t

/-- Items up to the closing bracket, with a comma between any two. Each step takes at least the
comma, so a text cannot hold more items than characters. -/
def itemsFrom {α : Type} (item : Reader α) (closing : CodePoint) : (steps : Nat) → Reader (List α)
  | 0, t => fail .value t
  | steps + 1, t =>
    match item t with
    | .error s => .error s
    | .ok (a, t) =>
      match skip t with
      | [] => fail .comma []
      | c :: rest =>
        if c = closing then .ok ([a], rest)
        else if c = ',' then prepend a (itemsFrom item closing steps (skip rest))
        else fail .comma (c :: rest)

/-- Behind an opening bracket: nothing but the closing one, or items. -/
def items {α : Type} (item : Reader α) (closing : CodePoint) : Reader (List α) := fun t =>
  match skip t with
  | [] => itemsFrom item closing 1 []
  | c :: rest =>
    if c = closing then .ok ([], rest) else itemsFrom item closing (rest.length + 1) (c :: rest)

/-- A name, a colon and a value. -/
def memberOf (value : Reader Json) : Reader (Text × Json)
  | .char '"' :: rest =>
    match stringFrom (rest.length + 1) rest with
    | .error s => .error s
    | .ok (name, t) =>
      match skip t with
      | .char ':' :: rest =>
        match value (skip rest) with
        | .error s => .error s
        | .ok (v, t) => .ok ((name, v), t)
      | t => fail .colon t
  | t => fail .name t

/-- A value with at most `room` brackets open at one place. -/
def valueWithin : (room : Nat) → Reader Json
  | 0, t =>
    match t with
    | .char '"' :: rest => (stringFrom (rest.length + 1) rest).map fun p => (string p.1, p.2)
    | .char '[' :: _ => .error .deepNesting
    | .char '\x7b' :: _ => .error .deepNesting
    | t => plain t
  | room + 1, t =>
    match t with
    | .char '"' :: rest => (stringFrom (rest.length + 1) rest).map fun p => (string p.1, p.2)
    | .char '[' :: rest => (items (valueWithin room) ']' rest).map fun p => (array p.1, p.2)
    | .char '\x7b' :: rest =>
      (items (memberOf (valueWithin room)) '\x7d' rest).map fun p =>
        (object (OrderedMap.settle p.1), p.2)
    | t => plain t

/-- One value with nothing but space around it. -/
def document (room : Nat) (t : Text) : Except Stop Json :=
  if t.head? = some '\uFEFF' then fail .byteOrderMark t
  else
    match valueWithin room (skip t) with
    | .error s => .error s
    | .ok (v, rest) =>
      match skip rest with
      | [] => .ok v
      | rest => fail .extra rest

/-- The value that a text stands for, with room for so many brackets that are open at one place. -/
def read (room : Nat) (t : Text) : Except Failure Json :=
  (document room t).mapError (Stop.failure t)

end Syllogism.Json
