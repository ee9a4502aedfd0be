import Resumption.Console.Scripted
import Resumption.Console.Stream
import Resumption.Script.NodeSteps

/-!
# Scripts about console programs

* `ConsoleNode`, `ConsoleLeaf` : the nodes and the leaves of console templates;
* `ConsoleWorld` : the terminals of a script;
* `ConsoleStep` : the common steps, and uses of a terminal by itself;
* `playConsole` : performs such a script.
-/

namespace Resumption.Script

inductive ConsoleNode where
  | put (text next : Expr)
  /-- The line is the innermost variable of what comes after. -/
  | read (body : Expr)
  | exit (code next : Expr)

inductive ConsoleLeaf where
  | put (text : Expr)
  | read
  | exit (code : Expr)
  | lift (node : ConsoleNode)

inductive ConsoleWorld where
  | scripted (t : ScriptedTerminal)
  | stream (t : WatchedStream)

inductive ConsoleStep where
  | program (step : ProgramStep ConsoleLeaf String)
  | make (world : String) (w : ConsoleWorld)
  | inspect (world : String)
  | writeLine (world text : String)
  | readLine (world : String)
  | exit (world : String) (code : Int32)
  /-- How an interpreter on a scripted terminal is reported. -/
  | shownInterpreter (world : String)

inductive ConsoleAnswer where
  | program (answer : ProgramAnswer ConsoleWorld)
  | made
  | state (w : ConsoleWorld)
  | written (result : Except IoError Unit)
  | line (result : Except IoError (Option String))
  | exited
  | shownInterpreter (shown onEmpty : String)

def exitCode (v : Value) : Int32 :=
  v.size.toInt32

def Fn.nothing : Fn := ⟨.lit .null, []⟩

def Fn.identity : Fn := ⟨.var 0, []⟩

def ConsoleNode.build (env : Env) : ConsoleNode → Action (Operation Console Value)
  | put text next => do
    let t ← text.eval env
    let v ← next.eval env
    return Console.putNode t.text v
  | read body => pure (Console.readNode fun line => body.eval (.str line :: env))
  | exit code next => do
    let c ← code.eval env
    let v ← next.eval env
    return Console.exitNode (exitCode c) v

def ConsoleLeaf.build (env : Env) : ConsoleLeaf → Action (Plan Console ConsoleLeaf)
  | put text => do
    let t ← text.eval env
    return (Console.putStrLn t.text (.value .null)).map Fn.nothing
  | read => pure ((Console.readLine fun line => .value (.str line)).map Fn.identity)
  | exit code => do
    let c ← code.eval env
    return (Console.exit (exitCode c) (.value .null)).map Fn.nothing
  | lift node => do
    let op ← node.build env
    Plan.ofNode op

namespace ConsoleWorld

abbrev Setting := Registers ConsoleWorld

def find (world : String) : Interp Setting ConsoleWorld := do
  match ← Interp.world fun worlds => (worlds.get? world, worlds) with
  | some w => return w
  | none => Interp.halt (.panicked ("no world " ++ world))

/-- Has `use` done on the terminal called `world`, whatever its kind. -/
def on {α : Type} (world : String)
    (use : {σ : Type} → [Terminal σ] → Interp σ α) : Interp Setting α := do
  match ← find world with
  | .scripted t => Interp.zoom (fun _ => t) (fun t worlds => worlds.set world (.scripted t)) use
  | .stream t => Interp.zoom (fun _ => t) (fun t worlds => worlds.set world (.stream t)) use

end ConsoleWorld

/-- Console scripts: a line answers a read. -/
def consoleDialect :
    Dialect Console ConsoleLeaf String ConsoleWorld.Setting ConsoleWorld where
  leaf := ConsoleLeaf.build
  answer line _ := line
  report op := ⟨Console.effectName op, Console.shown op⟩
  on world use := ConsoleWorld.on world (use Console.interpreter)
  inspect := ConsoleWorld.find

def shownConsoleInterpreter (t : ScriptedTerminal) : String :=
  "ConsoleInterpreter \x7b terminal: " ++ t.shown ++ " \x7d"

namespace ConsoleStep

abbrev ConsoleStage := Stage Console ConsoleLeaf ConsoleWorld.Setting

def onSetting {α : Type} (x : Interp ConsoleWorld.Setting α) : Interp ConsoleStage α :=
  ProgramStep.onSetting x

def perform (defs : Definitions ConsoleLeaf) : ConsoleStep → Interp ConsoleStage ConsoleAnswer
  | program step => .program <$> step.perform consoleDialect defs
  | make world w => onSetting (Interp.world fun worlds => (.made, worlds.set world w))
  | inspect world => .state <$> onSetting (ConsoleWorld.find world)
  | writeLine world text =>
    .written <$> onSetting (ConsoleWorld.on world (Interp.world (Terminal.writeLine text)))
  | readLine world =>
    .line <$> onSetting (ConsoleWorld.on world (Interp.world Terminal.readLine))
  | exit world code => do
    let _ ← onSetting (ConsoleWorld.on world (Interp.world (Terminal.exit code)))
    return .exited
  | shownInterpreter world => do
    match ← onSetting (ConsoleWorld.find world) with
    | .scripted t =>
      return .shownInterpreter (shownConsoleInterpreter t)
        (shownConsoleInterpreter (ScriptedTerminal.ofLines []))
    | .stream _ => Interp.halt (.panicked "not a scripted terminal")

end ConsoleStep

def playConsole (defs : Definitions ConsoleLeaf) (steps : List ConsoleStep) :
    List (Report ConsoleAnswer) :=
  play (ConsoleStep.perform defs) steps ⟨[], []⟩

def playConsoleNode (node : ConsoleNode) (steps : List (NodeStep String)) :
    Except String (List (Report NodeAnswer)) :=
  playNode consoleDialect (node.build []) steps

end Resumption.Script
