import Syllogism.Text.Lower

/-! Search for a token, letter by letter and without regard to case. -/

namespace Syllogism.Text

/-- The text starts with a form of each letter of the token, in turn. -/
def spells : (token : Text) → Text → Bool
  | [], _ => true
  | _ :: _, [] => false
  | p :: ps, c :: cs => sameLetter p c && spells ps cs

/-- The index of the first place where the token stands, when the text begins at index `i`. -/
def indexFrom? (token : Text) : (i : Nat) → Text → Option Nat
  | i, [] => if spells token [] then some i else none
  | i, c :: rest => if spells token (c :: rest) then some i else indexFrom? token (i + 1) rest

/-- The first of the tokens that stands in `t` at index `start` or later: where it stands first,
and how it is written there. An empty token is nowhere. -/
def find? (tokens : List Text) (start : Nat) (t : Text) : Option (Nat × Text) :=
  tokens.findSome? fun token =>
    if token.isEmpty then none
    else (indexFrom? token start (t.drop start)).map fun i => (i, (t.drop i).take token.length)

end Syllogism.Text
