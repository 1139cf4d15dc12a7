import Syllogism.Act
import Syllogism.Disk.Replace
import Syllogism.Lexicon.Italian
import Syllogism.Sentence.Conversation

/-! Notebooks: facts with the file that keeps them and the words in which they are talked about. -/

namespace Syllogism

/-- The facts that the program works on, and what it needs to answer about them. -/
structure Notebook where
  path : Path
  lexicon : Lexicon
  mode : Facts.Mode
  facts : Facts

namespace Notebook

def defaultPath : Text := "Sillogismi.js"

variable [Host]

def conversation (n : Notebook) : Conversation :=
  ⟨n.lexicon, n.lexicon.key, n.mode.within Host.spoken⟩

/-- A note where questions may go too deep. -/
def warn (mode : Facts.Mode) : Act Unit :=
  match mode with
  | .guarded => return ()
  | .unguarded => Act.note .unguarded

/-- The facts that a file holds. -/
def readFacts (path : Path) (mode : Facts.Mode) : Act Facts := do
  Act.submit path.text
  let bytes ← Act.granted [path.text] ((← Act.disk).read path.route)
  match Facts.ofBytes Host.factsRoom bytes with
  | .error e => Act.fail (.ofFacts e)
  | .ok facts =>
    warn mode
    Act.note (.loaded facts.size path.text)
    return facts

/-- The facts that a file holds, and none if there is no file. There is none with a name that is
nothing for the system. -/
def readOrEmpty (path : Path) (mode : Facts.Mode) : Act Facts := do
  let isThere ← if (Path.unfit? path.text).isSome then pure false
    else Act.granted [path.text] ((← Act.disk).isThere path.route)
  if isThere then readFacts path mode
  else
    Act.note (.startedEmpty path.text)
    warn mode
    return OrderedMap.empty

/-- The notebook of a path, with the facts that are there. -/
def openAt (path : Text) (lexicon : Lexicon) (mode : Facts.Mode) : Act Notebook := do
  let path := Path.ofText path
  return ⟨path, lexicon, mode, ← readOrEmpty path mode⟩

/-- Fails for facts with halves in their text, which have no place in a file. -/
def requireWritable (facts : Facts) : Act Unit :=
  match facts.gap? with
  | none => return ()
  | some gap => Act.fail (.halves gap)

/-- The directories on the way to the end of a path, unless too many are missing. -/
def makeWay (path : Path) : Act Unit := do
  Act.submit path.parent.text
  let d ← Act.disk
  if Host.directories < (d.lacking path.parent).length then Act.fail .deepPath
  let (result, disk) := d.ensureDirectories path.parent
  Act.setDisk disk
  Act.granted [(d.refusedDirectory path.parent).text] result

/-- A new file beside the end of a path. -/
def openDraft (path : Path) : Act Spot := do
  let d ← Act.disk
  Act.submit (d.draftText path)
  let (disk, draft) ← Act.granted [d.draftText path] (d.createDraft path)
  Act.setDisk disk
  return draft

/-- Bytes go into a draft, and the draft goes to its place. -/
def placeDraft (bytes : Bytes) (path : Path) (draft : Spot) : Act Unit := do
  Act.setDisk ((← Act.disk).put draft (.file bytes))
  Act.setDisk (← Act.granted [Disk.spotText draft, path.text] ((← Act.disk).rename draft path))

def fillDraft (facts : Facts) (path : Path) (draft : Spot) : Act Unit := do
  requireWritable facts
  placeDraft facts.bytes path draft

def removeDraft (draft : Spot) : Act Unit := do
  Act.setDisk ((← Act.disk).remove draft)

/-- The facts as the whole of a file. Directories on the way are made first. A draft that does not
get to its place is removed. -/
def writeFacts (facts : Facts) (path : Path) : Act Unit := do
  makeWay path
  let draft ← openDraft path
  Act.clearing (fillDraft facts path draft) (removeDraft draft)
  Act.note (.saved facts.size path.text)

def save (n : Notebook) : Act Unit := writeFacts n.facts n.path

/-- The notebook with the facts of a file in place of its own. -/
def load (n : Notebook) (path : Path) : Act Notebook :=
  return { n with facts := ← readFacts path n.mode }

/-- The answer to a sentence. A farewell saves the facts before it is answered. -/
def answer (n : Notebook) (sentence : Text) : Act (Notebook × Text) := do
  let r := n.conversation.respond n.facts sentence
  Act.noteAll r.events
  if r.farewell then n.save
  match r.answer with
  | none => Act.fail .deepQuestion
  | some answer => return ({ n with facts := r.facts }, answer)

/-- A conversation is over when this is the answer. -/
def isOver (n : Notebook) (answer : Text) : Bool := answer == n.lexicon.replies.goodbye

def whatIs (n : Notebook) (subject : Text) : Act (List Text) :=
  match n.facts.whatIs? n.lexicon.key (n.mode.within Host.asked) subject with
  | none => Act.fail .deepQuestion
  | some found => return found

def whoIs (n : Notebook) (attr : Text) : Act (List Text) :=
  match n.facts.whoIs? n.lexicon.key (n.mode.within Host.asked) attr with
  | none => Act.fail .deepQuestion
  | some found => return found

end Notebook

end Syllogism
