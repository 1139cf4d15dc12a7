import Syllogism.Disk.Basic
import Syllogism.Facts.Stored
import Syllogism.Lexicon.Stored

/-! Everything that can go wrong while the program works. -/

namespace Syllogism

/-- Why something was not done. -/
inductive Failure where
  | refused (refusal : Disk.Refusal) (names : List Text)
  | nulInPath
  | noPath
  | malformedFacts (fault : Facts.Fault)
  | faultyLexicon (fault : Lexicon.Fault)
  | notUtf8 (fault : Utf8.Fault)
  | halves (gap : Utf8.Gap)
  | longInteger (digits : Nat)
  | deepNesting
  | deepQuestion
  | deepPath
  deriving DecidableEq, Repr

namespace Failure

def ofFacts : Facts.Unread → Failure
  | .malformed fault => malformedFacts fault
  | .longInteger digits => longInteger digits
  | .deepNesting => deepNesting

def ofUnfit : Path.Unfit → Failure
  | .nul => nulInPath
  | .halves gap => halves gap

def ofLexicon : Lexicon.Unread → Failure
  | .faulty fault => faultyLexicon fault
  | .notUtf8 fault => notUtf8 fault
  | .longInteger digits => longInteger digits
  | .deepNesting => deepNesting

/-- Failures that end a command with a line about them. The others leave the program. -/
def isReported : Failure → Bool
  | refused .. => true
  | malformedFacts _ => true
  | faultyLexicon _ => true
  | deepNesting => true
  | deepQuestion => true
  | deepPath => true
  | _ => false

end Failure

end Syllogism
