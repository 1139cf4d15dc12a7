import Syllogism.Lexicon.Basic

/-! The Italian word lists. Elided forms come before the bare forms that they contain. -/

namespace Syllogism.Lexicon

def italianReplies : Replies where
  empty := "Hai scritto qualcosa?"
  goodbye := "Ciao."
  unknown := "Non so nulla."
  notUnderstood := "Non ho capito."
  dontKnow := "Non lo so."
  ok := "Ok."

def italianArticles : List Text :=
  ["LLO", "LLA", "LLE", "LL'", "LL’", "IL", "LO", "LA", "I", "GLI", "LE", "UN", "UNO", "UNA", "L'",
    "L’", "UN'", "UN’", "L"]

def italian : Lexicon where
  language := "it"
  articles := italianArticles
  copulas := ["E'", "SONO", "è"]
  farewells := ["FINE", "CIAO", "GRAZIE", "ESCI"]
  questions := ["PARLAMI DE", "COSA SAI SU", "COSA SAI DE", "COSA SAI DI", "INFORMAZIONI SU"]
  whoWords := ["CHI", "COSA", "CHE COSA"]
  replies := italianReplies

end Syllogism.Lexicon
