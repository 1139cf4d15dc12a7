import Syllogism.Facts.Unguarded
import Syllogism.Failure

/-! What the program is run by, and does not decide itself: what standard output takes, and how much
room there is for calls within calls.

Standard output is UTF-8 here, so it takes every character. That it is closed or full is left out. The
stream for messages takes every text; that it shows a half as an escape is left out, too. -/

namespace Syllogism

/-- What differs from one place to run the program to the next. -/
class Host where
  /-- The halves that standard output takes: none if it is strict, those for bytes if it hands on what
  could not be decoded, and all if it is kept in memory. -/
  takesHalf : Fin 0x800 → Bool
  /-- The room for a question that is asked by itself. -/
  asked : Facts.Room
  /-- The room for a question in a sentence, where more calls are open already. -/
  spoken : Facts.Room
  /-- The brackets that may be open at one place of a lexicon. -/
  lexiconRoom : Nat
  /-- The brackets that may be open at one place of a file with facts. -/
  factsRoom : Nat
  /-- The two brackets around an attribute fit. -/
  two_le_factsRoom : 2 ≤ factsRoom
  /-- The most directories that are made one in the other at once. -/
  directories : Nat
  /-- What is said of a recursion that goes too deep, behind that it does. -/
  tooDeep : Failure → Text

/-- The first half in a text that standard output does not take, with the halves right behind it. -/
def Host.unprintable? [Host] (t : Text) : Option Utf8.Gap := Utf8.refused? Host.takesHalf t

def Failure.message [Host] : Failure → Text
  | refused refusal names => refusal.message names
  | nulInPath => "embedded null byte"
  | noPath => "expected str, bytes or os.PathLike object, not list"
  | malformedFacts fault => fault.message
  | faultyLexicon fault => fault.message
  | notUtf8 fault => fault.message
  | halves gap => gap.message
  | longInteger digits => (Json.Failure.longInteger digits).message
  | deepNesting => Json.Failure.deepNesting.message ++ Host.tooDeep deepNesting
  | deepQuestion => Text.of "maximum recursion depth exceeded" ++ Host.tooDeep deepQuestion
  | deepPath => Text.of "maximum recursion depth exceeded" ++ Host.tooDeep deepPath

namespace Host

/-- A host with room for some hundred calls, whose output takes no halves. -/
scoped instance usual : Host where
  takesHalf _ := false
  asked := ⟨900, 900⟩
  spoken := ⟨900, 900⟩
  lexiconRoom := 900
  factsRoom := 900
  two_le_factsRoom := by decide
  directories := 900
  tooDeep _ := []

end Host

end Syllogism
