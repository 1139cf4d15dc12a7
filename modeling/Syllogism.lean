import Syllogism.Main
import Syllogism.Proofs.Facts.Stored
import Syllogism.Proofs.Facts.TellAll
import Syllogism.Proofs.Facts.Unguarded
import Syllogism.Proofs.Facts.Visit
import Syllogism.Proofs.Notebook.Over
import Syllogism.Proofs.Sentence.Asked
import Syllogism.Proofs.Sentence.Told
import Syllogism.Proofs.Shell.Saved
import Syllogism.Proofs.Text.Marks
import Syllogism.Proofs.Text.Prefix
import Syllogism.Proofs.Text.Search
import Syllogism.Serving
import Syllogism.Proofs.Sentence.Reported
import Syllogism.Proofs.Facts.Read
import Syllogism.Proofs.Notebook.Save
import Syllogism.Proofs.Notebook.Ends
import Syllogism.Proofs.Shell.Ends
import Syllogism.Proofs.Notebook.Session
import Syllogism.Proofs.Shell.Twice
import Syllogism.Proofs.Shell.Lines
import Syllogism.Proofs.Sentence.Grows
import Syllogism.Proofs.Sentence.Lines
import Syllogism.Proofs.Sentence.SameCase
import Syllogism.Proofs.Sentence.Switched
import Syllogism.Proofs.Sentence.Sides
import Syllogism.Proofs.Facts.Ascii
import Syllogism.Proofs.Serving.Padded
import Syllogism.Proofs.Facts.OwnKeys
import Syllogism.Proofs.Sentence.Closed
import Syllogism.Proofs.Text.Folded
import Syllogism.Proofs.Facts.AnyCase
import Syllogism.Proofs.Lexicon.Article
import Syllogism.Proofs.Text.Letters
import Syllogism.Proofs.Facts.Ways
