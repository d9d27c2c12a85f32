import TapeSalvage.Command.Execute

/-!
The program. The files that the arguments can mean are read beforehand, the command runs on them,
and what it changed is written back.
-/
namespace TapeSalvage

open Command

def mentionedPaths (words : List String) : List String :=
  let attached := words.flatMap fun word =>
    let chars := word.toList
    [String.ofList ((chars.dropWhile (· != '=')).drop 1), String.ofList (chars.drop 2)]
  words ++ attached ++
    [stringsFile, "recovered.prg", "recovered.bas.txt", "grouped_by_location.txt"]

def isFolderOnDisk (plain : String) : IO Bool := do
  try
    (← IO.FS.realPath plain).isDir
  catch _ => return false

/-- The store of the mentioned paths as they are on the disk. -/
def loadStore (paths : List String) : IO Store := do
  let mut store : Store := ⟨[], []⟩
  for path in paths do
    let mut reached := Folder.start path
    for part in pathParts path do
      reached := reached.step part
      let plain := reached.plain
      if !store.isFolder reached && (store.get? plain).isNone then
        if ← isFolderOnDisk plain then
          store := { store with folders := plain :: store.folders }
        else
          try
            let data ← IO.FS.readBinFile plain
            store := store.put plain data.toList
          catch _ => pure ()
  return store

def saveChanges (before after : Store) : IO Unit := do
  for (name, data) in after.files do
    if before.get? name != some data then
      IO.FS.writeBinFile name (ByteArray.mk data.toArray)

end TapeSalvage

open TapeSalvage Command in
def main (words : List String) : IO UInt32 := do
  let store ← loadStore (mentionedPaths words)
  let (result, world) := (ExceptT.run (execute words)).run ⟨store, .empty⟩
  saveChanges store world.store
  IO.print world.console.out
  IO.eprint world.console.err
  match result with
  | .ok code => return UInt32.ofNat code
  | .error failure =>
    IO.eprintln failure.message
    return 1
