import Resumption.Files.FileSystem
import Resumption.Text.Bytes
import Resumption.Text.Lines

/-!
# A disk

* `DiskEntry` : a file with its bytes, or a directory with its entries by name;
* `Disk` : everything from the root down, with a working directory in which relative paths start;
* `Disk.walk` : follows a path from directory to directory;
* `Disk.readLines`, `Disk.append` : reading and appending, with the errors of the operating system;
* `Disk.makeDirectory` : makes a directory and those on the way to it;
* `Disk.listing` : everything below the working directory.

A path leads through directories only. A final slash demands a directory when a file is read, and
is refused when a file is to be created.
-/

namespace Resumption

inductive DiskEntry where
  | file (bytes : Array UInt8)
  /-- The entries of a directory, in the order of their names. -/
  | directory (entries : List (String × DiskEntry))

namespace DiskEntry

def emptyDirectory : DiskEntry := directory []

def child? (name : String) : DiskEntry → Option DiskEntry
  | directory entries => (entries.find? fun entry => entry.1 = name).map (·.2)
  | file _ => none

/-- What stands at the end of a way of names. -/
def find? : List String → DiskEntry → Option DiskEntry
  | [], entry => some entry
  | name :: way, entry => (entry.child? name).bind (find? way)

/-- Changes the entry `name`, or adds one at its place in the order of names. -/
def updateEntry (name : String) (f : Option DiskEntry → DiskEntry) :
    List (String × DiskEntry) → List (String × DiskEntry)
  | [] => [(name, f none)]
  | (other, present) :: rest =>
    match compare name other with
    | .lt => (name, f none) :: (other, present) :: rest
    | .eq => (other, f (some present)) :: rest
    | .gt => (other, present) :: updateEntry name f rest

/-- Changes what stands at the end of a way. Directories missing on the way are made; a way through a file
changes nothing. -/
def update (f : Option DiskEntry → DiskEntry) : List String → Option DiskEntry → DiskEntry
  | [], present => f present
  | name :: way, none => directory [(name, update f way none)]
  | name :: way, some (directory entries) => directory (updateEntry name (update f way) entries)
  | _ :: _, some (file bytes) => file bytes

def onFile (f : Array UInt8 → Array UInt8) : Option DiskEntry → DiskEntry
  | some (file bytes) => file (f bytes)
  | some (directory entries) => directory entries
  | none => file (f #[])

mutual

/-- Everything below an entry, depth first: the way before each name and the bytes of a file. The way of a
directory ends in a slash. -/
def listing (before : String) : DiskEntry → List (String × Option (List UInt8))
  | file _ => []
  | directory entries => listEntries before entries

def listEntries (before : String) :
    List (String × DiskEntry) → List (String × Option (List UInt8))
  | [] => []
  | (name, .file bytes) :: rest => (before ++ name, some bytes.toList) :: listEntries before rest
  | (name, .directory entries) :: rest =>
    (before ++ name ++ "/", none) ::
      (listEntries (before ++ name ++ "/") entries ++ listEntries before rest)

end

end DiskEntry

structure Disk where
  root : DiskEntry
  working : List String

namespace Disk

/-- The name of the working directory in the root. It holds a slash, so no segment of a path is this name,
and only a path that starts in the working directory leads into it. -/
def workingName : String := "/"

def start : Disk :=
  ⟨.directory [(workingName, .emptyDirectory)], [workingName]⟩

def nameLimit : Nat := 255

def pathLimit : Nat := 4095

/-- Goes from the directory at the end of `way` to one of its entries, to itself or to its parent. -/
def step (disk : Disk) (way : List String) (segment : String) : Except OsCode (List String) :=
  match DiskEntry.find? way disk.root with
  | none => .error .noEntry
  | some (.file _) => .error .notADirectory
  | some entry =>
    if segment = "." then .ok way
    else if segment = ".." then .ok way.dropLast
    else if nameLimit < segment.utf8ByteSize then .error .nameTooLong
    else match entry.child? segment with
      | some _ => .ok (way ++ [segment])
      | none => .error .noEntry

def walk (disk : Disk) (way : List String) (segments : List String) :
    Except OsCode (List String) :=
  segments.foldlM disk.step way

structure Reading where
  /-- The way on which the path starts. -/
  start : List String
  /-- The segments between slashes, without empty ones. -/
  segments : List String
  /-- Whether a slash follows the last segment. -/
  endsInSlash : Bool

/-- Reads a path. A text with a NUL is no path, and neither is an empty or an overlong one. -/
def parse (disk : Disk) (path : Path) : Except IoError Reading :=
  let cs := path.text.toList
  if cs.contains '\x00' then .error .nulInPath
  else if cs.isEmpty then .error (.os .noEntry)
  else if pathLimit < path.text.utf8ByteSize then .error (.os .nameTooLong)
  else
    .ok {
      start := if cs.head? = some '/' then [] else disk.working
      segments := ((Path.segments cs).filter (! ·.isEmpty)).map String.ofList
      endsInSlash := cs.getLast? = some '/' }

def readBytes (disk : Disk) (path : Path) : Except IoError (Array UInt8) := do
  let reading ← disk.parse path
  let way ← (disk.walk reading.start reading.segments).mapError .os
  match DiskEntry.find? way disk.root with
  | none => throw (.os .noEntry)
  | some (.directory _) => throw (.os .isADirectory)
  | some (.file bytes) => if reading.endsInSlash then throw (.os .notADirectory) else return bytes

/-- The way to the file at a path, which need not be there yet. -/
def locate (disk : Disk) (path : Path) : Except IoError (List String) := do
  let reading ← disk.parse path
  let way ← (disk.walk reading.start reading.segments.dropLast).mapError .os
  match reading.segments.getLast?, DiskEntry.find? way disk.root with
  | none, _ => throw (.os .isADirectory)
  | some _, none => throw (.os .noEntry)
  | some _, some (.file _) => throw (.os .notADirectory)
  | some name, some directory =>
    if name = "." ∨ name = ".." ∨ reading.endsInSlash then throw (.os .isADirectory)
    else if nameLimit < name.utf8ByteSize then throw (.os .nameTooLong)
    else match directory.child? name with
      | some (.directory _) => throw (.os .isADirectory)
      | _ => return way ++ [name]

def update (f : Option DiskEntry → DiskEntry) (way : List String) : Disk → Disk
  | ⟨root, working⟩ => ⟨DiskEntry.update f way (some root), working⟩

/-- The lines of the file at `path`, all of whose bytes must be UTF-8. -/
def readLines (path : Path) (disk : Disk) : Except IoError (List String) × Disk :=
  let result := do
    let bytes ← disk.readBytes path
    match Text.ofBytes? bytes.toList with
    | some text => return Text.lines text
    | none => throw .invalidText
  (result, disk)

def append (path : Path) (text : String) (disk : Disk) : Except IoError Unit × Disk :=
  match disk.locate path with
  | .ok way => (.ok (), disk.update (DiskEntry.onFile (· ++ Text.bytes text)) way)
  | .error e => (.error e, disk)

instance : FileSystem Disk := ⟨readLines, append⟩

/-! ## Preparing and listing -/

/-- The disk with the contents of a file replaced; a path that can hold no file changes nothing. -/
def write (path : Path) (bytes : List UInt8) (disk : Disk) : Disk :=
  match disk.locate path with
  | .ok way => disk.update (DiskEntry.onFile fun _ => bytes.toArray) way
  | .error _ => disk

/-- Follows segments and makes each missing directory, also one that a later segment leaves again. Stops
where no directory can be. -/
def makeWay (disk : Disk) (way : List String) : List String → Disk
  | [] => disk
  | segment :: rest =>
    match disk.step way segment with
    | .ok way => makeWay disk way rest
    | .error code =>
      if code = .noEntry then
        makeWay (disk.update (·.getD .emptyDirectory) (way ++ [segment])) (way ++ [segment]) rest
      else disk

def makeDirectory (path : Path) (disk : Disk) : Disk :=
  match disk.parse path with
  | .error _ => disk
  | .ok reading => disk.makeWay reading.start reading.segments

def listing (disk : Disk) : List (String × Option (List UInt8)) :=
  ((DiskEntry.find? disk.working disk.root).getD .emptyDirectory).listing ""

end Disk

end Resumption
