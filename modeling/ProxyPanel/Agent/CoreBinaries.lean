import ProxyPanel.Lib.Text
import Mathlib.Data.List.Sort

/-!
# The core binaries of an agent

What an agent answers to a request of the Hub: the files of its binary directory, for
a deletion as they were before it, with an error text when the deletion is refused.
What the file system does is a parameter.
-/

namespace ProxyPanel

structure CoreBinary where
  fileName : String
  sizeBytes : Int
  modifiedAt : Int
  inUse : Bool
  deriving DecidableEq

/-- The answer to a list or a delete request; `error` is empty when a deletion succeeded. -/
structure CoreBinaryList where
  binaries : List CoreBinary
  error : String
  deriving DecidableEq

/-- A request of the Hub. -/
inductive CoreBinaryRequest where
  | list
  | delete (fileName : String)
  deriving DecidableEq

namespace Agent

/-- A regular file of the binary directory. -/
structure BinFile where
  fileName : String
  sizeBytes : Int
  modifiedAt : Int

/-- The binary directory: its path once it is known, what reading it gives, and the names
of the binaries of the registered cores. -/
structure BinDir where
  path : Option String
  readDir : Except String (List BinFile)
  registered : List String

def listCoreBinaries (dir : BinDir) : CoreBinaryList :=
  match dir.path with
  | none => ⟨[], "core binary directory is not initialized"⟩
  | some path =>
    match dir.readDir with
    | .error e => ⟨[], "failed to read " ++ path ++ ": " ++ e⟩
    | .ok files =>
      let shown := files.filter fun f => !Text.startsWith f.fileName "."
      let binaries := shown.map fun f =>
        { fileName := f.fileName, sizeBytes := f.sizeBytes, modifiedAt := f.modifiedAt,
          inUse := f.fileName ∈ dir.registered : CoreBinary }
      ⟨binaries.insertionSort (fun a b => a.fileName ≤ b.fileName), ""⟩

/-- A deletion; `removal` is the error of the file system, if any. -/
def deleteCoreBinary (dir : BinDir) (fileName : String) (removal : Option String) :
    Except String BinDir :=
  if fileName = "" ∨ Text.startsWith fileName "." ∨ Text.contains fileName "/" ∨
      Text.contains fileName "\\" then .error "invalid file name"
  else if dir.path = none then .error "bin dir unknown"
  else if fileName ∈ dir.registered then .error (fileName ++ " is in use by a running core")
  else
    match removal with
    | some e => .error ("failed to delete " ++ fileName ++ ": " ++ e)
    | none => .ok { dir with readDir := dir.readDir.map (·.filter (·.fileName ≠ fileName)) }

/-- The answer to a request and the directory after it. -/
def answerCoreBinaries (dir : BinDir) (removal : Option String) :
    CoreBinaryRequest → CoreBinaryList × BinDir
  | .list => (listCoreBinaries dir, dir)
  | .delete fileName =>
    match deleteCoreBinary dir fileName removal with
    | .ok dir' => (listCoreBinaries dir, dir')
    | .error e => ({ listCoreBinaries dir with error := e }, dir)

/-- A binary of a registered core is never deleted. -/
theorem mem_registered_of_delete {dir dir' : BinDir} {fileName : String} {removal : Option String}
    (h : deleteCoreBinary dir fileName removal = .ok dir') :
    fileName ∉ dir.registered ∧ dir'.registered = dir.registered := by
  unfold deleteCoreBinary at h
  split at h
  · cases h
  · split at h
    · cases h
    · split at h
      · cases h
      · rename_i hfree
        split at h
        · cases h
        · cases h
          exact ⟨hfree, rfl⟩

end Agent

end ProxyPanel
