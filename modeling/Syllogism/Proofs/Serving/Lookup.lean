import Syllogism.Proofs.Json.Documents
import Syllogism.Proofs.Notebook.Session
import Syllogism.Proofs.Shell.Printed
import Syllogism.Serving

/-! Looking facts up from outside: a session, the commands and the tools of the server find the
same, and what the last two say of it in JSON is read back as that. None of them changes a file. -/

namespace Syllogism

open Act

/-- The value is an object that has the phrase under a name, and what was found. -/
structure Json.Reports (v : Json) (name : String) (asked : Text) (found : List Text) : Prop where
  asked : v.member? name = some (.string asked)
  results : (v.member? "results").bind Json.texts? = some found

/-- What is looked up for a phrase: what a subject is, or what an attribute holds of. -/
inductive Lookup where
  | whatIs
  | whoIs

namespace Lookup

/-- The name of the phrase in JSON. -/
def name : Lookup → String
  | whatIs => "subject"
  | whoIs => "attribute"

/-- The answer in the facts of a notebook. -/
def found (n : Notebook) : Lookup → Text → List Text
  | whatIs, phrase => n.facts.whatIs n.lexicon.key phrase
  | whoIs, phrase => n.facts.whoIs n.lexicon.key phrase

def command (json : Bool) : Lookup → Text → Shell.Command
  | whatIs, phrase => .query phrase json
  | whoIs, phrase => .who phrase json

/-- What a command complains of when it finds nothing. -/
def nothing (n : Notebook) : Lookup → Text
  | whatIs => n.lexicon.replies.unknown
  | whoIs => n.lexicon.replies.dontKnow

def tool : Lookup → Text → Tool
  | whatIs, phrase => .query phrase
  | whoIs, phrase => .inverse phrase

/-- What the tool says of a phrase with this key, for which this was found. -/
def content (key : Text) (found : List Text) : Lookup → Text → Json
  | whatIs, phrase => .ofMembers [("subject", .string phrase), ("key", .string key),
      ("found", Tool.count found.length), ("results", .ofTexts found)]
  | whoIs, phrase => .ofMembers [("attribute", .string phrase),
      ("found", Tool.count found.length), ("results", .ofTexts found)]

/-- The value with which the tool answers. -/
def reply (n : Notebook) (k : Lookup) (phrase : Text) : Json :=
  k.content (n.lexicon.key phrase) (k.found n phrase) phrase

variable {n : Notebook} {d : Disk} {setting setting' : Shell.Setting} {w w' : World}
  {k : Lookup} {phrase key t : Text} {found arguments arguments' : List Text} {half : Fin 0x800}

/-! What is in the JSON -/

/-- The halves in the JSON are those in the phrase and in what was found. -/
theorem half_mem_results : .half half ∈ (Shell.resultsJson k.name phrase found).text ↔
    .half half ∈ phrase ∨ ∃ t ∈ found, .half half ∈ t := by
  rw [Shell.resultsJson, Json.ofMembers, Json.text, Json.textAt, Json.half_mem_block]
  simp [Json.memberTexts, Json.textAt, Json.half_mem_literal, Json.half_mem_ofTexts,
    Text.half_notMem_of]

/-- The names in the answers of the tools. -/
def names : Lookup → List String
  | whatIs => ["subject", "key", "found", "results"]
  | whoIs => ["attribute", "found", "results"]

/-- An answer of a tool tells of a lookup: it is the text of a value with the phrase, with what was
found and with how much that is. A reader with room for two brackets takes it for this value if the
number in it is within its limit. -/
def Told (n : Notebook) (q : Lookup × Text) (answer : Except Failure Text) : Prop :=
  ∃ t v, answer = .ok t ∧ Json.Document t v ∧
    ((Text.ofNat (q.1.found n q.2).length).length ≤ Json.digitLimit →
      ∀ room, Json.read (room + 2) t = .ok v) ∧
    v.Reports q.1.name q.2 (q.1.found n q.2) ∧
    v.member? "found" = some (.integer (q.1.found n q.2).length)

section

variable [Host]

def act (n : Notebook) : Lookup → Text → Act (List Text)
  | whatIs, phrase => n.whatIs phrase
  | whoIs, phrase => n.whoIs phrase

/-- The method of a session. -/
def ask : Lookup → Text → Session.Step (List Text)
  | whatIs, phrase => Session.query phrase
  | whoIs, phrase => Session.inverse phrase

/-- Standard output takes the halves in a phrase and in what was found for it. -/
def Printable (phrase : Text) (found : List Text) : Prop :=
  ∀ half, .half half ∈ phrase ∨ (∃ t ∈ found, .half half ∈ t) → Host.takesHalf half = true

theorem unprintable?_results : Host.unprintable? (Text.line
    (Shell.resultsJson k.name phrase found).text) = none ↔ Printable phrase found := by
  simp [Host.unprintable?, Utf8.refused?_eq_none_iff, Text.line, Printable, half_mem_results]

/-! In guarded mode a lookup succeeds, and the world stays as it is -/

theorem perform_act (hm : n.mode = .guarded) (k : Lookup) (phrase : Text) (w : World) :
    (k.act n phrase).perform w = (.ok (k.found n phrase), w) := by
  obtain ⟨path, l, mode, facts⟩ := n
  obtain rfl : mode = .guarded := hm
  cases k <;> rfl

theorem perform_ask_eq (k : Lookup) (phrase : Text) (s : Session) (w : World) :
    (k.ask phrase).perform s w =
      (((k.act s.notebook phrase).perform w).1, s, ((k.act s.notebook phrase).perform w).2) := by
  cases k <;> rfl

theorem perform_ask (hm : n.mode = .guarded) (k : Lookup) (phrase : Text) (w : World) :
    (k.ask phrase).perform (.of n) w = (.ok (k.found n phrase), .of n, w) := by
  have hn : (Session.of n).notebook = n := rfl
  rw [perform_ask_eq, hn, perform_act hm]

/-! Commands -/

theorem run_command (json : Bool) (k : Lookup) (phrase : Text) (setting : Shell.Setting)
    (input : Shell.Input) : (k.command json phrase).run setting input =
      (Shell.openNotebook setting >>= fun n => k.act n phrase >>= fun found =>
        Shell.report k.name phrase (k.nothing n) json found) := by
  cases k with
  | whatIs => rfl
  | whoIs => rfl

theorem perform_report_true (name : String) (asked nothing : Text) (found : List Text) (w : World) :
    (Shell.report name asked nothing true found).perform w =
      match Host.unprintable? (Text.line (Shell.resultsJson name asked found).text) with
      | none => (.ok (if found.isEmpty then 1 else 0),
          { w with out := w.out ++ Text.line (Shell.resultsJson name asked found).text })
      | some gap => (.error (.halves gap), w) := by
  simp only [Shell.report, Bool.not_true, Bool.and_false, Bool.false_eq_true, if_false, if_true]
  rw [perform_bind, Shell.printLine, perform_print]
  cases Host.unprintable? (Text.line (Shell.resultsJson name asked found).text) <;> rfl

theorem perform_report_json (k : Lookup) (nothing : Text) (hp : Printable phrase found)
    (w : World) :
    (Shell.report k.name phrase nothing true found).perform w =
      (.ok (if found.isEmpty then 1 else 0),
        { w with out := w.out ++ Text.line (Shell.resultsJson k.name phrase found).text }) := by
  rw [perform_report_true, unprintable?_results.mpr hp]

theorem exists_perform_report_json (k : Lookup) (nothing : Text) (hp : ¬ Printable phrase found)
    (w : World) : ∃ gap, (Shell.report k.name phrase nothing true found).perform w =
      (.error (.halves gap), w) := by
  obtain ⟨gap, hg⟩ := Option.ne_none_iff_exists'.mp (mt (unprintable?_results (k := k)).mp hp)
  rw [perform_report_true, hg]
  exact ⟨gap, rfl⟩

theorem call_tool (n : Notebook) (k : Lookup) (phrase : Text) :
    (k.tool phrase).call n = (k.act n phrase >>= fun found =>
      pure (n, k.content (n.lexicon.key phrase) found phrase)) := by
  cases k <;> rfl

end

section

open scoped Host

end

end Lookup

end Syllogism
