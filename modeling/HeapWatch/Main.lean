import HeapWatch.Comparison
/-!
# The command line

Reads the files that the arguments name, runs the comparison on them and prints what it says. The
variable `RUST_LOG` chooses the least important level of records that is shown.
-/

namespace HeapWatch.CommandLine

/-- Puts what is at a place into the store. -/
def collectAt (store : FileStore) (p : Place) : IO FileStore := do
  try
    let bytes ← IO.FS.readBinFile ("/" ++ "/".intercalate p.names)
    return store.put p (.file bytes.toList)
  catch
    | .noFileOrDirectory .. => return store
    | .inappropriateType _ 20 _ => return store
    | _ => return store.put p .directory

/-- Puts everything that a path goes through into the store. -/
def collect (store : FileStore) (text : String) : IO FileStore := do
  let .ok path := FilePath.ofText text | return store
  let mut store := store
  let mut p := path.start store.working
  for s in path.steps do
    p := p.move s
    store ← collectAt store p
  return store

end HeapWatch.CommandLine

open HeapWatch in
/-- Compares the profiles that the arguments name. -/
def main (arguments : List String) : IO UInt32 := do
  let here ← IO.currentDir
  let store ← arguments.foldlM CommandLine.collect (FileStore.empty (.ofText here.toString))
  let chosen ← IO.getEnv "RUST_LOG"
  let verbosity := (chosen.bind Verbosity.ofName?).getD .usual
  let outcome := Comparison.run store arguments verbosity
  outcome.errors.forM IO.eprintln
  outcome.output.forM IO.println
  return outcome.exitCode.toUInt32
