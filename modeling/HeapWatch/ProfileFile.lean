import HeapWatch.Codec
import HeapWatch.FileStore
/-!
# Profiles in files: `MapSnapshot::write_to_file` and `MapSnapshot::from_file`

A profile is written as its JSON text and nothing else. What is read from a file is put into
canonical form.
-/

namespace HeapWatch

/-- Why no profile was read from a file (`SnapshotFromFileError`). -/
inductive LoadFault where
  | file (fault : FileFault)
  | text (refusal : Json.Refusal)
deriving DecidableEq, Repr

namespace Profile

/-- The canonical profile of a file's bytes, if they are a text that a profile can be read from. -/
def ofBytes (bytes : Bytes) : Except LoadFault Profile :=
  match Profile.reader.decode bytes with
  | .error refusal => .error (.text refusal)
  | .ok p => .ok (ofReadings p.toList)

/-- Writes a profile into the file at a path (`MapSnapshot::write_to_file`). -/
def saving (p : Profile) (path : String) : FileStore.Action Unit := FileStore.overwrite path p.json

/-- The files with a profile written into the one at a path. -/
def save (p : Profile) (store : FileStore) (path : String) : Except FileFault FileStore :=
  (p.saving path).outcome store

/-- The canonical profile of the file at a path (`MapSnapshot::from_file`). -/
def load (store : FileStore) (path : String) : Except LoadFault Profile :=
  match store.readText path with
  | .error fault => .error (.file fault)
  | .ok bytes => ofBytes bytes

end Profile

end HeapWatch
