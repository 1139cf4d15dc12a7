import Syllogism.Proofs.Notebook
import Syllogism.Proofs.Sentence.Whole

/-! How the steps of a notebook end. Apart from failures that are reported, only a name that is none
for the system and halves can keep facts from their file. -/

namespace Syllogism.Notebook

open Act

variable {facts : Facts} {path : Path} {sentence : Text} {sentences : List Text} {f : Failure}
  {draft : Spot}

/-- What can go wrong when facts are saved to which sentences added something. -/
inductive Hindrance (facts : Facts) (path : Path) (sentences : List Text) : Failure → Prop where
  | reported {f : Failure} (h : f.isReported = true) : Hindrance facts path sentences f
  | name {u : Path.Unfit} {name : Text} (hn : name ∈ path.names) (h : u.In name) :
    Hindrance facts path sentences (.ofUnfit u)
  | stored (gap : Utf8.Gap) (h : facts.isWhole = false) :
    Hindrance facts path sentences (.halves gap)
  | told (gap : Utf8.Gap) {t : Text} (ht : t ∈ sentences) (h : t.isWhole = false) :
    Hindrance facts path sentences (.halves gap)

theorem ends_requireWritable {P : Failure → Prop}
    (h : ∀ gap, facts.gap? = some gap → P (.halves gap)) :
    Ends (fun _ => facts.isWhole = true) P (requireWritable facts) := by
  rw [requireWritable]
  cases hg : facts.gap? with
  | none => exact ends_pure ((Facts.gap?_eq_none_iff facts).mp hg)
  | some gap => exact ends_fail (h gap hg)

theorem ends_openDraft :
    Ends (fun _ => True) (Hindrance facts path sentences) (openDraft path) := by
  rw [openDraft]
  refine ends_disk_bind fun d => ?_
  refine (ends_submit fun u hu => ?_).bind fun _ _ => ?_
  · obtain ⟨name, hn, hin⟩ := Disk.exists_in_of_unfit?_draftText hu
    exact .name hn hin
  · refine (ends_granted fun _ => .reported rfl).bind fun _ _ => ?_
    exact (ends_modify _).bind fun _ _ => ends_pure trivial

theorem ends_fillDraft :
    Ends (fun _ => True) (Hindrance facts path sentences) (fillDraft facts path draft) := by
  have hw : ∀ gap, facts.gap? = some gap → Hindrance facts path sentences (.halves gap) := by
    intro gap hg
    refine .stored gap (Bool.eq_false_iff.mpr ?_)
    rw [ne_eq, ← Facts.gap?_eq_none_iff, hg]
    exact Option.some_ne_none gap
  refine (ends_requireWritable hw).bind fun _ _ => ?_
  refine ends_disk_bind fun d => (ends_modify _).bind fun _ _ => ?_
  refine ends_disk_bind fun d => ?_
  exact (ends_granted fun _ => .reported rfl).bind fun _ _ => ends_modify _

theorem ends_answerWith {P : Failure → Prop} (n : Notebook) (facts : Facts) (answer? : Option Text)
    (h : P .deepQuestion) :
    Ends (fun r => r.1 = { n with facts := facts } ∧ answer? = some r.2) P
      (match answer? with
        | none => Act.fail .deepQuestion
        | some answer => return ({ n with facts := facts }, answer)) := by
  cases answer? with
  | none => exact ends_fail h
  | some answer => exact ends_pure ⟨rfl, rfl⟩

theorem ends_found {P : Failure → Prop} {found? : Option (List Text)} (h : P .deepQuestion) :
    Ends (fun found => found? = some found) P
      (match found? with
        | none => Act.fail .deepQuestion
        | some found => return found) := by
  cases found? with
  | none => exact ends_fail h
  | some found => exact ends_pure rfl

variable [Host]

theorem ends_makeWay : Ends (fun _ => True) (Hindrance facts path sentences) (makeWay path) := by
  rw [makeWay]
  refine (ends_submit fun u hu => ?_).bind fun _ _ => ?_
  · obtain ⟨name, hn, hin⟩ := Path.exists_in_of_unfit?_text hu
    exact .name (List.dropLast_subset _ hn) hin
  · refine ends_disk_bind fun d => ?_
    refine ends_guard (fun _ => .reported rfl) ?_
    refine (ends_modify _).bind fun _ _ => ?_
    exact ends_granted fun _ => .reported rfl

theorem ends_writeFacts :
    Ends (fun _ => True) (Hindrance facts path sentences) (writeFacts facts path) := by
  refine ends_makeWay.bind fun _ _ => ends_openDraft.bind fun draft _ => ?_
  refine Ends.bind (Q := fun _ => True) ?_ fun _ _ => ends_modify _
  exact ends_fillDraft.clearing (ends_disk_bind fun d => ends_modify _)

/-- An answer leaves the notebook with the facts after it. -/
theorem ends_answer (n : Notebook) (sentence : Text) :
    Ends (fun r => r.1 = { n with facts := (n.conversation.respond n.facts sentence).facts } ∧
        (n.conversation.respond n.facts sentence).answer = some r.2)
      (Hindrance n.facts n.path sentences) (n.answer sentence) := by
  simp only [answer]
  refine (ends_modify _).bind fun _ _ => ?_
  split
  · exact ends_writeFacts.bind fun _ _ => ends_answerWith n _ _ (.reported rfl)
  · exact ends_answerWith n _ _ (.reported rfl)

/-- What hinders later sentences hinders them together with an earlier one. -/
theorem Hindrance.of_rest {n : Notebook} {rest : List Text}
    (h : Hindrance (n.conversation.respond n.facts sentence).facts n.path rest f) :
    Hindrance n.facts n.path (sentence :: rest) f := by
  cases h with
  | reported h => exact .reported h
  | name hn h => exact .name hn h
  | told gap ht h => exact .told gap (List.mem_cons_of_mem sentence ht) h
  | stored gap h =>
    by_cases hf : n.facts.isWhole = true
    · refine .told gap List.mem_cons_self (Bool.eq_false_iff.mpr fun hs => ?_)
      have hw := Conversation.isWhole_respond (c := n.conversation) rfl hf hs
      rw [h] at hw
      cases hw
    · exact .stored gap (Bool.eq_false_iff.mpr hf)

end Syllogism.Notebook
