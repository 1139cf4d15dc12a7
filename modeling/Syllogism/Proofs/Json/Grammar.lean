import Syllogism.Json.Reader

/-! Which texts are JSON, and for which value each of them stands. Nothing here says how a text is
read. JSON itself has no limit to its numbers and its brackets; what the first thing beyond limits is
in a text, is said at the end. -/

namespace Syllogism.Json

def IsSpace (t : Text) : Prop := ∀ c ∈ t, isSpace c = true

def IsFigures (t : Text) : Prop := t ≠ [] ∧ ∀ c ∈ t, isFigure c = true

/-! Strings -/

/-- The text starts with the escape of a low half. -/
def OpensLow (s : Text) : Prop :=
  ∃ a b c d rest low, s = .char '\\' :: .char 'u' :: a :: b :: c :: d :: rest ∧
    unit? a b c d = some low ∧ isLowHalf low = true

/-- Between quotes, `s` stands for `t`. Two escapes for the halves of a pair are one character, so a
high half is one on its own only if no low half follows. -/
inductive Quoted : (s t : Text) → Prop
  | nil : Quoted [] []
  | plain {c : CodePoint} {s t : Text} (hq : c ≠ '"') (hb : c ≠ '\\') (hc : 0x20 ≤ c.code)
      (hs : Quoted s t) : Quoted (c :: s) (c :: t)
  | escaped {e c : CodePoint} {s t : Text} (he : escaped? e = some c) (hs : Quoted s t) :
      Quoted (.char '\\' :: e :: s) (c :: t)
  | code {a b c d : CodePoint} {n : Nat} {s t : Text} (hn : unit? a b c d = some n)
      (hl : isHighHalf n = true → ¬ OpensLow s) (hs : Quoted s t) :
      Quoted (.char '\\' :: .char 'u' :: a :: b :: c :: d :: s) (.ofCode n :: t)
  | pair {a b c d a' b' c' d' : CodePoint} {high low : Nat} {s t : Text}
      (hn : unit? a b c d = some high) (hh : isHighHalf high = true)
      (hn' : unit? a' b' c' d' = some low) (hl : isLowHalf low = true) (hs : Quoted s t) :
      Quoted (.char '\\' :: .char 'u' :: a :: b :: c :: d ::
        .char '\\' :: .char 'u' :: a' :: b' :: c' :: d' :: s) (joinHalves high low :: t)

/-! Numbers -/

/-- Digits before the point. No zero stands in front of others. -/
def IsWhole (t : Text) : Prop := t = [.char '0'] ∨ IsFigures t ∧ t.head? ≠ some (.char '0')

inductive Fraction : (digits t : Text) → Prop
  | none : Fraction [] []
  | some {digits : Text} (hd : IsFigures digits) : Fraction digits (.char '.' :: digits)

inductive Exponent : Option (Bool × Text) → Text → Prop
  | none : Exponent none []
  | plain {e : CodePoint} {digits : Text} (he : e = 'e' ∨ e = 'E') (hd : IsFigures digits) :
      Exponent (some (false, digits)) (e :: digits)
  | plus {e : CodePoint} {digits : Text} (he : e = 'e' ∨ e = 'E') (hd : IsFigures digits) :
      Exponent (some (false, digits)) (e :: .char '+' :: digits)
  | minus {e : CodePoint} {digits : Text} (he : e = 'e' ∨ e = 'E') (hd : IsFigures digits) :
      Exponent (some (true, digits)) (e :: .char '-' :: digits)

namespace Numeral

def sign (n : Numeral) : Text := if n.negative then ['-'] else []

/-- The text that gives the number. -/
inductive Spelled (n : Numeral) : Text → Prop
  | mk {f e : Text} (hw : IsWhole n.whole) (hf : Fraction n.fraction f)
      (he : Exponent n.exponent e) : Spelled n (n.sign ++ n.whole ++ f ++ e)

/-- An integer, unless there is a fraction or an exponent. -/
def meaning (n : Numeral) : Json :=
  match n.fraction, n.exponent with
  | [], none =>
    let size : Int := Decimal.valueOf n.whole
    .integer (if n.negative then -size else size)
  | fraction, exponent =>
    let shift : Int := match exponent with
      | none => 0
      | some (negative, digits) =>
        if negative then -(Decimal.valueOf digits : Int) else Decimal.valueOf digits
    .decimal (.finite n.negative (Decimal.valueOf (n.whole ++ fraction)) (shift - fraction.length))

end Numeral

/-! Items -/

/-- From the first item to the closing bracket. -/
inductive Items {α : Type} (item : Text → α → Prop) (closing : CodePoint) : List α → Text → Prop
  | last {a : α} {t w : Text} (ha : item t a) (hw : IsSpace w) :
      Items item closing [a] (t ++ w ++ [closing])
  | more {a : α} {as : List α} {t w w' s : Text} (ha : item t a) (hw : IsSpace w)
      (hw' : IsSpace w') (has : Items item closing as s) :
      Items item closing (a :: as) (t ++ w ++ .char ',' :: w' ++ s)

/-- Behind the opening bracket. -/
inductive Listed {α : Type} (item : Text → α → Prop) (closing : CodePoint) : List α → Text → Prop
  | empty {w : Text} (hw : IsSpace w) : Listed item closing [] (w ++ [closing])
  | items {as : List α} {w t : Text} (hw : IsSpace w) (has : Items item closing as t) :
      Listed item closing as (w ++ t)

/-- A name in quotes, a colon and a value. -/
inductive Member (value : Text → Json → Prop) : Text → Text × Json → Prop
  | mk {s name w w' t : Text} {v : Json} (hs : Quoted s name) (hw : IsSpace w) (hw' : IsSpace w')
      (hv : value t v) :
      Member value (.char '"' :: s ++ .char '"' :: w ++ .char ':' :: w' ++ t) (name, v)

/-- Of the pairs with one name, the first gives the position and the last the value. -/
def Resolves (pairs members : List (Text × Json)) : Prop :=
  members.map Prod.fst = (pairs.map Prod.fst).eraseDups ∧
  ∀ name, OrderedMap.valueIn? name members = OrderedMap.valueIn? name pairs.reverse

/-! Values -/

/-- An array or an object, where `inner` says which values may stand in it. -/
inductive Bracketed (inner : Text → Json → Prop) : Text → Json → Prop
  | array {vs : List Json} {t : Text} (h : Listed inner ']' vs t) :
      Bracketed inner (.char '[' :: t) (array vs)
  | object {pairs members : List (Text × Json)} {t : Text}
      (h : Listed (Member inner) '\x7d' pairs t) (hr : Resolves pairs members) :
      Bracketed inner (.char '\x7b' :: t) (object members)

/-- A value, where `allowed` says which numbers and `brackets` which arrays and objects there are. -/
inductive Layer (allowed : Numeral → Prop) (brackets : Text → Json → Prop) : Text → Json → Prop
  | word {t : Text} {v : Json} (h : (t, v) ∈ words) : Layer allowed brackets t v
  | number {n : Numeral} {t : Text} (h : n.Spelled t) (ha : allowed n) :
      Layer allowed brackets t n.meaning
  | string {s t : Text} (h : Quoted s t) :
      Layer allowed brackets (.char '"' :: (s ++ [.char '"'])) (string t)
  | brackets {t : Text} {v : Json} (h : brackets t v) : Layer allowed brackets t v

/-- The text stands for the value, with at most so many layers of values. -/
def Written : (layers : Nat) → Text → Json → Prop
  | 0 => fun _ _ => False
  | layers + 1 => Layer (fun _ => True) (Bracketed (Written layers))

/-- One value with any space around it. -/
inductive Document : Text → Json → Prop
  | mk {w t w' : Text} {v : Json} {layers : Nat} (hw : IsSpace w) (hw' : IsSpace w')
      (hv : Written layers t v) : Document (w ++ t ++ w') v

/-! Limits -/

namespace Numeral

def IsInteger (n : Numeral) : Prop := n.fraction = [] ∧ n.exponent = none

/-- The number is no integer with more digits than the limit. -/
def Fits (n : Numeral) : Prop := n.IsInteger → n.whole.length ≤ digitLimit

end Numeral

/-- The text stands for the value. At most `room` brackets are open at one place of it, and no integer
in it has more digits than the limit. -/
def Within : (room : Nat) → Text → Json → Prop
  | 0 => Layer Numeral.Fits fun _ _ => False
  | room + 1 => Layer Numeral.Fits (Bracketed (Within room))

/-- An integer that stands before the text would go on with it. -/
inductive GoesOn : Text → Prop
  | figure {c : CodePoint} {rest : Text} (hc : isFigure c = true) : GoesOn (c :: rest)
  | fraction {digits : Text} (hd : IsFigures digits) (rest : Text) :
      GoesOn (.char '.' :: digits ++ rest)
  | exponent {x : Bool × Text} {e : Text} (he : Exponent (some x) e) (rest : Text) :
      GoesOn (e ++ rest)

/-- Items, each with its comma behind it. -/
inductive Finished {α : Type} (item : Text → α → Prop) : Text → Prop
  | none : Finished item []
  | more {a : α} {t w w' s : Text} (ha : item t a) (hw : IsSpace w) (hw' : IsSpace w')
      (hs : Finished item s) : Finished item (t ++ w ++ .char ',' :: w' ++ s)

/-- The front of the text is JSON, with `room` brackets more than are open before it, up to what is
beyond the limits: an integer with too many digits, or one more bracket. What follows does not
matter, and may be anything. -/
inductive Beyond : (room : Nat) → Text → Stop → Prop
  | integer {room : Nat} {n : Numeral} {t rest : Text} (h : n.Spelled t) (hi : n.IsInteger)
      (hl : digitLimit < n.whole.length) (hr : ¬ GoesOn rest) :
      Beyond room (t ++ rest) (.longInteger n.whole.length)
  | bracket {c : CodePoint} (hc : c = '[' ∨ c = '\x7b') (rest : Text) :
      Beyond 0 (c :: rest) .deepNesting
  | array {room : Nat} {w s u : Text} {stop : Stop} (hw : IsSpace w)
      (hs : Finished (Within room) s) (hu : Beyond room u stop) :
      Beyond (room + 1) (.char '[' :: w ++ s ++ u) stop
  | object {room : Nat} {w s q name w₁ w₂ u : Text} {stop : Stop} (hw : IsSpace w)
      (hs : Finished (Member (Within room)) s) (hq : Quoted q name) (hw₁ : IsSpace w₁)
      (hw₂ : IsSpace w₂) (hu : Beyond room u stop) :
      Beyond (room + 1)
        (.char '\x7b' :: w ++ s ++ (.char '"' :: q ++ .char '"' :: w₁ ++ .char ':' :: w₂ ++ u)) stop

/-- The text is JSON up to the first thing in it that is beyond the limits. -/
inductive Exceeds (room : Nat) : Text → Stop → Prop
  | mk {w u : Text} {stop : Stop} (hw : IsSpace w) (hu : Beyond room u stop) :
      Exceeds room (w ++ u) stop

end Syllogism.Json
