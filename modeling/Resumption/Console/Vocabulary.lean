import Resumption.Effect.Program
import Resumption.Text.Quoted

/-!
# The console vocabulary

* `Console` : put a line, exit with a code, read a line;
* `Console.putNode`, `Console.exitNode`, `Console.readNode` : the effect nodes;
* `Console.putStrLn`, `Console.exit`, `Console.readLine` : the programs of one effect each;
* `Console.effectName`, `Console.shown` : how an effect node is reported.
-/

namespace Resumption

inductive Console.Command where
  /-- Emit a line. -/
  | putStrLn (text : String)
  /-- End the program with a code. -/
  | exit (code : Int32)
  deriving DecidableEq

inductive Console.Query where
  /-- Take the next line of the input. -/
  | readLine
  deriving DecidableEq

abbrev Console : Signature where
  name := "Console"
  Command := Console.Command
  Query := Console.Query
  Answer := fun _ => String

namespace Console

variable {C : Codes} {α δ : Type}

instance : Vocabulary Console := ⟨Operation.map⟩

instance : LawfulVocabulary Console := ⟨fun _ _ => rfl⟩

/-! ## Nodes and programs of one effect -/

def putNode (text : String) (next : δ) : Operation Console δ :=
  .command (.putStrLn text) next

def readNode (resume : String → Action δ) : Operation Console δ :=
  .query .readLine resume

/-- The node that exits with `code`; `next` is not used. -/
def exitNode (code : Int32) (next : δ) : Operation Console δ :=
  .command (.exit code) next

def putStrLn (text : String) (a : α) : Program Console C α :=
  .effect (putNode text (.pure a))

def readLine (f : String → α) : Program Console C α :=
  .effect (readNode fun line => pure (.pure (f line)))

def exit (code : Int32) (a : α) : Program Console C α :=
  .effect (exitNode code (.pure a))

theorem lift_putNode (text : String) (a : α) :
    Program.lift (putNode text a) = pure (putStrLn text a : Program Console C α) := by
  simp [Program.lift, Vocabulary.map, putStrLn, putNode]

theorem lift_readNode (f : String → α) :
    Program.lift (readNode fun line => pure (f line)) =
      pure (readLine f : Program Console C α) := by
  simp [Program.lift, Vocabulary.map, readLine, readNode]

theorem lift_exitNode (code : Int32) (a : α) :
    Program.lift (exitNode code a) = pure (exit code a : Program Console C α) := by
  simp [Program.lift, Vocabulary.map, exit, exitNode]

/-! ## Reports -/

def effectName : Operation Console δ → String
  | .command (.putStrLn _) _ => "PutStrLn"
  | .command (.exit _) _ => "Exit"
  | .query .readLine _ => "ReadLine"

def shown (op : Operation Console δ) : String :=
  match op with
  | .command (.putStrLn text) _ =>
    effectName op ++ " \x7b text: " ++ Text.quoted text ++ ", .. \x7d"
  | .command (.exit code) _ =>
    effectName op ++ " \x7b code: " ++ toString code.toInt ++ ", .. \x7d"
  | .query .readLine _ => effectName op ++ " \x7b .. \x7d"

end Console

end Resumption
