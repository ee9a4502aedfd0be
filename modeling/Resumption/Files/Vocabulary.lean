import Resumption.Effect.Program
import Resumption.Files.Path
import Resumption.Text.Quoted

/-!
# The file vocabulary

* `Files` : append a text to a file, read the lines of a file;
* `Files.appendNode`, `Files.readNode` : the effect nodes;
* `Files.appendText`, `Files.readLines` : the programs of one effect each;
* `Files.effectName`, `Files.shown` : how an effect node is reported.
-/

namespace Resumption

inductive Files.Command where
  /-- Append a text to a file. -/
  | appendText (path : Path) (text : String)
  deriving DecidableEq

inductive Files.Query where
  /-- Read all lines of a file. -/
  | readLines (path : Path)
  deriving DecidableEq

abbrev Files : Signature where
  name := "Files"
  Command := Files.Command
  Query := Files.Query
  Answer := fun _ => List String

namespace Files

variable {C : Codes} {α δ : Type}

instance : Vocabulary Files := ⟨Operation.map⟩

instance : LawfulVocabulary Files := ⟨fun _ _ => rfl⟩

/-! ## Nodes and programs of one effect -/

def appendNode (path : Path) (text : String) (next : δ) : Operation Files δ :=
  .command (.appendText path text) next

def readNode (path : Path) (resume : List String → Action δ) : Operation Files δ :=
  .query (.readLines path) resume

def appendText (path : Path) (text : String) (a : α) : Program Files C α :=
  .effect (appendNode path text (.pure a))

def readLines (path : Path) (f : List String → α) : Program Files C α :=
  .effect (readNode path fun lines => pure (.pure (f lines)))

theorem lift_appendNode (path : Path) (text : String) (a : α) :
    Program.lift (appendNode path text a) = pure (appendText path text a : Program Files C α) := by
  simp [Program.lift, Vocabulary.map, appendText, appendNode]

theorem lift_readNode (path : Path) (f : List String → α) :
    Program.lift (readNode path fun lines => pure (f lines)) =
      pure (readLines path f : Program Files C α) := by
  simp [Program.lift, Vocabulary.map, readLines, readNode]

/-! ## Reports -/

def effectName : Operation Files δ → String
  | .command (.appendText ..) _ => "AppendText"
  | .query (.readLines _) _ => "ReadLines"

def shown (op : Operation Files δ) : String :=
  match op with
  | .command (.appendText path text) _ =>
    effectName op ++ " \x7b path: " ++ Text.quoted path.text ++ ", text: " ++ Text.quoted text ++
      ", .. \x7d"
  | .query (.readLines path) _ =>
    effectName op ++ " \x7b path: " ++ Text.quoted path.text ++ ", .. \x7d"

end Files

end Resumption
