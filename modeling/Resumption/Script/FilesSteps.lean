import Resumption.Files.Disk
import Resumption.Files.Faulty
import Resumption.Script.NodeSteps

/-!
# Scripts about file programs

* `FilesNode`, `FilesLeaf` : the nodes and the leaves of file templates;
* `FilesWorld` : the file systems of a script; all that stand for the disk share it;
* `FilesStep` : the common steps, and uses of a file system by itself;
* `playFiles` : performs such a script.
-/

namespace Resumption.Script

inductive FilesNode where
  /-- The list of lines is the innermost variable of what comes after. -/
  | read (path body : Expr)
  | append (path text next : Expr)

inductive FilesLeaf where
  /-- Yields the list of lines. -/
  | read (path : Expr)
  | append (path text : Expr)
  | lift (node : FilesNode)

inductive FilesWorld where
  | memory (fs : MemoryFiles)
  | faulty (fs : FaultyFiles)
  | disk

inductive FilesState where
  | memory (fs : MemoryFiles)
  | disk (listing : List (String × Option (List UInt8)))

inductive FilesStep where
  | program (step : ProgramStep FilesLeaf (List String))
  | make (world : String) (w : FilesWorld)
  | inspect (world : String)
  | runOnDisk (operand : Operand)
  | readLines (world : String) (path : Path)
  | append (world : String) (path : Path) (text : String)
  /-- What a path holds in memory. -/
  | contents (world : String) (path : Path)
  /-- Replaces what a path holds in memory. -/
  | withFile (world : String) (path : Path) (text : String)
  /-- How an interpreter on files in memory is reported. -/
  | shownInterpreter (world : String)
  | writeOnDisk (path : Path) (bytes : List UInt8)
  | makeDirectory (path : Path)

inductive FilesAnswer where
  | program (answer : ProgramAnswer FilesState)
  | made
  | state (s : FilesState)
  | ran (result : Except InterpretError (Outcome Value))
  | lines (result : Except IoError (List String))
  | appended (result : Except IoError Unit)
  | contents (text? : Option String)
  | shownInterpreter (shown : String)
  | prepared

def pathOf (v : Value) : Path :=
  ⟨v.text⟩

def linesValue (lines : List String) : Value :=
  .list (lines.map .str)

def FilesNode.build (env : Env) : FilesNode → Action (Operation Files Value)
  | read path body => do
    let p ← path.eval env
    return Files.readNode (pathOf p) fun lines => body.eval (linesValue lines :: env)
  | append path text next => do
    let p ← path.eval env
    let t ← text.eval env
    let v ← next.eval env
    return Files.appendNode (pathOf p) t.text v

def FilesLeaf.build (env : Env) : FilesLeaf → Action (Plan Files FilesLeaf)
  | read path => do
    let p ← path.eval env
    return (Files.readLines (pathOf p) fun lines => .value (linesValue lines)).map
      ⟨.var 0, []⟩
  | append path text => do
    let p ← path.eval env
    let t ← text.eval env
    return (Files.appendText (pathOf p) t.text (.value .null)).map ⟨.lit .null, []⟩
  | lift node => do
    let op ← node.build env
    Plan.ofNode op

structure FilesSetting where
  worlds : Registers FilesWorld
  disk : Disk

namespace FilesSetting

def find (world : String) : Interp FilesSetting FilesWorld := do
  match ← Interp.world fun setting => (setting.worlds.get? world, setting) with
  | some w => return w
  | none => Interp.halt (.panicked ("no world " ++ world))

def replace (world : String) (w : FilesWorld) (setting : FilesSetting) : FilesSetting :=
  { setting with worlds := setting.worlds.set world w }

def onDisk {α : Type} (x : Interp Disk α) : Interp FilesSetting α :=
  Interp.zoom FilesSetting.disk (fun disk setting => { setting with disk }) x

/-- Has `use` done on the file system called `world`, whatever its kind. -/
def on {α : Type} (world : String)
    (use : {σ : Type} → [FileSystem σ] → Interp σ α) : Interp FilesSetting α := do
  match ← find world with
  | .memory fs => Interp.zoom (fun _ => fs) (fun fs => replace world (.memory fs)) use
  | .faulty fs => Interp.zoom (fun _ => fs) (fun fs => replace world (.faulty fs)) use
  | .disk => onDisk use

def state (world : String) : Interp FilesSetting FilesState := do
  match ← find world with
  | .memory fs => return .memory fs
  | .faulty fs => return .memory fs.files
  | .disk => return .disk (← onDisk (Interp.world fun disk => (disk.listing, disk)))

def findMemory (world : String) : Interp FilesSetting MemoryFiles := do
  match ← find world with
  | .memory fs => return fs
  | .faulty fs => return fs.files
  | .disk => Interp.halt (.panicked "not in memory")

def updateMemory (world : String) (f : MemoryFiles → MemoryFiles) :
    Interp FilesSetting Unit := do
  match ← find world with
  | .memory fs => Interp.world fun setting => ((), setting.replace world (.memory (f fs)))
  | .faulty fs =>
    Interp.world fun setting =>
      ((), setting.replace world (.faulty { fs with files := f fs.files }))
  | .disk => Interp.halt (.panicked "not in memory")

end FilesSetting

/-- File scripts: a list of lines answers a read. -/
def filesDialect : Dialect Files FilesLeaf (List String) FilesSetting FilesState where
  leaf := FilesLeaf.build
  answer lines _ := lines
  report op := ⟨Files.effectName op, Files.shown op⟩
  on world use := FilesSetting.on world (use Files.interpreter)
  inspect := FilesSetting.state

def shownFilesInterpreter (fs : MemoryFiles) : String :=
  "FileInterpreter \x7b file_system: " ++ fs.shown ++ " \x7d"

namespace FilesStep

abbrev FilesStage := Stage Files FilesLeaf FilesSetting

def onSetting {α : Type} (x : Interp FilesSetting α) : Interp FilesStage α :=
  ProgramStep.onSetting x

def perform (defs : Definitions FilesLeaf) : FilesStep → Interp FilesStage FilesAnswer
  | program step => .program <$> step.perform filesDialect defs
  | make world w =>
    onSetting (Interp.world fun setting => (.made, setting.replace world w))
  | inspect world => .state <$> onSetting (FilesSetting.state world)
  | runOnDisk operand => do
    let p ← ProgramStep.fetchProgram operand
    .ran <$> onSetting (FilesSetting.onDisk
      (Interp.attempt
        (p.interpretOn (Plan.closures FilesLeaf.build defs) Files.interpreter none)))
  | readLines world path =>
    .lines <$> onSetting (FilesSetting.on world (Interp.world (FileSystem.readLines path)))
  | append world path text =>
    .appended <$> onSetting (FilesSetting.on world (Interp.world (FileSystem.append path text)))
  | contents world path => do
    return .contents ((← onSetting (FilesSetting.findMemory world)).contents? path)
  | withFile world path text => do
    onSetting (FilesSetting.updateMemory world (MemoryFiles.withFile path text))
    .state <$> onSetting (FilesSetting.state world)
  | shownInterpreter world => do
    return .shownInterpreter (shownFilesInterpreter (← onSetting (FilesSetting.findMemory world)))
  | writeOnDisk path bytes =>
    onSetting (FilesSetting.onDisk (Interp.world fun disk => (.prepared, disk.write path bytes)))
  | makeDirectory path =>
    onSetting (FilesSetting.onDisk (Interp.world fun disk => (.prepared, disk.makeDirectory path)))

end FilesStep

def playFiles (defs : Definitions FilesLeaf) (steps : List FilesStep) :
    List (Report FilesAnswer) :=
  play (FilesStep.perform defs) steps ⟨[], [], Disk.start⟩

def playFilesNode (node : FilesNode) (steps : List (NodeStep (List String))) :
    Except String (List (Report NodeAnswer)) :=
  playNode filesDialect (node.build []) steps

end Resumption.Script
