import Resumption.Files.Memory

/-!
# Files of which one call fails

* `FaultyFiles` : files in memory, with the number of the call that fails and its error.
-/

namespace Resumption

structure FaultyFiles where
  files : MemoryFiles
  /-- The calls so far, of both kinds together. -/
  calls : Nat
  /-- The number, from one, of the call that fails. -/
  failing : Nat
  /-- The error of that call. -/
  error : IoError
  deriving DecidableEq

namespace FaultyFiles

/-- Counts a call and makes it, unless it is the one that fails. -/
def through {α : Type} (use : MemoryFiles → Except IoError α × MemoryFiles) :
    FaultyFiles → Except IoError α × FaultyFiles
  | ⟨files, calls, failing, error⟩ =>
    if calls + 1 = failing then (.error error, ⟨files, calls + 1, failing, error⟩)
    else
      let (result, files) := use files
      (result, ⟨files, calls + 1, failing, error⟩)

instance : FileSystem FaultyFiles where
  readLines path := through (MemoryFiles.readLines path)
  append path text := through (MemoryFiles.append path text)

end FaultyFiles

end Resumption
