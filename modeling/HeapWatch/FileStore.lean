import HeapWatch.FilePath
import HeapWatch.Json.Byte
import HeapWatch.Text.Utf8
/-!
# Files

A tree of files and directories, with the directory in it that the program works in, and with the
two things done to it: a file is read whole, and a file is written whole, which replaces what it held
before. Every step of a path has to start in a directory that is there. A path with a slash at the
end can be no file's: reading finds no directory, and writing would have to make one.

* `FileStore.read`: the bytes of a file, and `FileStore.readText`, if they have to be text.
* `FileStore.overwrite`: emptying a file and writing it again.
-/

namespace HeapWatch

inductive FileNode where
  | file (bytes : Bytes)
  | directory
deriving DecidableEq, Repr

/-- The working directory, and the files and directories, each with its place. The working directory
and those that hold it are always there. -/
structure FileStore where
  working : Place
  nodes : List (Place × FileNode)
deriving DecidableEq, Repr

namespace FileStore

/-- A tree with nothing in it but the working directory. -/
def empty (working : Place := .work) : FileStore := ⟨working, []⟩

/-- A tree with these files in the working directory, and nothing else in it. -/
def ofFiles (files : List (String × Bytes)) (working : Place := .work) : FileStore :=
  ⟨working, files.map fun (name, bytes) => (working.move (.enter name), .file bytes)⟩

/-- What is at a place, without a look at the directories around it. -/
def node? (store : FileStore) (p : Place) : Option FileNode :=
  if p.holds store.working then some .directory else store.nodes.lookup p

/-- Puts a file or a directory in place, whatever was there before. -/
def put (store : FileStore) (p : Place) (node : FileNode) : FileStore :=
  { store with nodes := (p, node) :: store.nodes.filter fun entry => entry.1 != p }

@[simp] theorem working_put (store : FileStore) (p : Place) (node : FileNode) :
    (store.put p node).working = store.working := rfl

def makeDirectory (store : FileStore) (p : Place) : FileStore :=
  if (store.node? p).isNone then store.put p .directory else store

/-- Puts a file or a directory in place, with the directories that lead to it. -/
def install (store : FileStore) (p : Place) (node : FileNode) : FileStore :=
  (p.onTheWay.foldl makeDirectory store).put p node

def find (store : FileStore) (p : Place) : Except FileFault FileNode :=
  if p.isTooLong then .error .nameTooLong
  else
    match store.node? p with
    | none => .error .notFound
    | some node => .ok node

/-- One step, which has to start in a directory. -/
def step (store : FileStore) (p : Place) (s : PathStep) : Except FileFault Place :=
  match store.find p with
  | .error fault => .error fault
  | .ok (.file _) => .error .notADirectory
  | .ok .directory => .ok (p.move s)

/-- Where steps lead from a place, one after another. -/
def follow (store : FileStore) (p : Place) : List PathStep → Except FileFault Place
  | [] => .ok p
  | s :: rest =>
    match store.step p s with
    | .error fault => .error fault
    | .ok next => store.follow next rest

/-- The place that a path leads to. Nothing has to be there yet. -/
def locate (store : FileStore) (path : FilePath) : Except FileFault Place :=
  store.follow (path.start store.working) path.steps

/-- The bytes of the file at a path. -/
def read (store : FileStore) (text : String) : Except FileFault Bytes := do
  let path ← FilePath.ofText text
  let p ← store.locate path
  match ← store.find p with
  | .directory => throw .isADirectory
  | .file bytes => if path.isSlashed then throw .notADirectory else return bytes

/-- The bytes of the file at a path, which have to be text (`read_to_string`). -/
def readText (store : FileStore) (text : String) : Except FileFault Bytes := do
  let bytes ← store.read text
  if Text.Utf8.isValid bytes then return bytes else throw .notText

/-- The place of the file that is written when a path is given. It is a file's or nothing's. -/
def target (store : FileStore) (text : String) : Except FileFault Place := do
  let path ← FilePath.ofText text
  let p ← store.locate path
  if path.isSlashed then throw .isADirectory
  else
    match store.find p with
    | .ok .directory => throw .isADirectory
    | .ok (.file _) | .error .notFound => return p
    | .error fault => throw fault

/-- Something done to the files that can go wrong. What was done before it went wrong stays. -/
abbrev Action (α : Type) := EStateM FileFault FileStore α

namespace Action

/-- What an action makes of the files, if it does not go wrong. -/
def outcome (action : Action Unit) (store : FileStore) : Except FileFault FileStore :=
  match action.run store with
  | .ok _ store => .ok store
  | .error fault _ => .error fault

end Action

/-- Opens the file at a path to be written (`File::create`). A file that is not there is made, and one
that is there is emptied. -/
def create (text : String) : Action Place := fun store =>
  match store.target text with
  | .error fault => .error fault store
  | .ok p => .ok p (store.put p (.file []))

/-- Writes bytes over the front of the file at a place (`write_all`). What it holds beyond them
stays. -/
def writeFront (p : Place) (bytes : Bytes) : Action Unit := fun store =>
  match store.node? p with
  | none => .error .notFound store
  | some .directory => .error .isADirectory store
  | some (.file held) => .ok () (store.put p (.file (bytes ++ held.drop bytes.length)))

/-- Writes the bytes into the file at a path. What it held before is gone, and a file that is not
there is made. -/
def overwrite (text : String) (bytes : Bytes) : Action Unit := do
  let p ← create text
  writeFront p bytes

end FileStore

end HeapWatch
