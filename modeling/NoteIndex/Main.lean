import NoteIndex.CommandLine.Run

/-!
# The program

Brings the settings, the notes and the cache of the index onto a disk of its own, runs the command
line there, prints what it says, and writes the cache back.
-/

namespace NoteIndex.Main

/-- Runs `act`, or does nothing where that fails. -/
def attempt (d : Disk) (act : IO Disk) : IO Disk :=
  try act catch _ => pure d

/-- Brings a file, whether or not it can be read. When it was made cannot be asked for here. -/
def bringFile (d : Disk) (path : String) : IO Disk := attempt d do
  let found ← (← IO.FS.realPath path).metadata
  let modified : Timestamp := ⟨found.modified.sec, found.modified.nsec.toNat⟩
  match found.type with
  | .dir => pure ((d.addFolder? path).getD d)
  | _ =>
    let contents ←
      try pure (Except.ok (← IO.FS.readBinFile path).toList)
      catch e => pure (Except.error (toString e))
    pure ((d.write? path ⟨contents, none, modified⟩).getD d)

/-- Brings the markdown files below a folder, going into each folder but those it is in already. -/
partial def bringFolder (d : Disk) (above : List String) (path : String) : IO Disk := attempt d do
  let folder ← IO.FS.realPath path
  if above.contains folder.toString then return d
  let mut d := (d.addFolder? path).getD d
  for entry in ← folder.readDir do
    unless isHidden entry.fileName do
      let inside := Location.below path entry.fileName
      let kind ← try pure (some (← entry.path.metadata).type) catch _ => pure none
      match kind with
      | some .dir => d ← bringFolder d (folder.toString :: above) inside
      | some .file => if (stem? entry.fileName).isSome then d ← bringFile d inside
      | _ => pure ()
  return d

def bring (d : Disk) (place : Location) : IO Disk := do
  let d ← bringFile d place.path
  match place with
  | .exported _ => pure d
  | .folder path =>
    let d ← bringFolder d [] path
    match place.cachePath? with
    | some cache => bringFile d cache
    | none => pure d

/-- The folder where settings are kept. -/
def settingsHome : IO String := do
  let own := (← IO.getEnv "XDG_CONFIG_HOME").filter fun path => path.toList.head? == some '/'
  match own, ← IO.getEnv "HOME" with
  | some path, _ => pure path
  | none, some path => pure (Location.below path ".config")
  | none, none => pure "."

def writeCache (path : String) (store : Store) : IO Unit :=
  try
    IO.FS.createDirAll ("/".intercalate (Disk.namesOf path).dropLast)
    IO.FS.writeFile path store.encode
  catch _ => pure ()

end NoteIndex.Main

open NoteIndex in
def main (args : List String) : IO UInt32 := do
  let here := (Disk.namesOf (← IO.currentDir).toString).filter fun name => !name.isEmpty
  let home ← Main.settingsHome
  let d ← Main.bringFile (.fresh here) (CommandLine.settingsPath home)
  let d ← match CommandLine.plan d home args with
    | .ok (call, config) => Main.bring d (CommandLine.placeOf call config)
    | .error _ => pure d
  let outcome := CommandLine.run d home args
  IO.print (CommandLine.textOf outcome.output)
  IO.eprint (CommandLine.textOf outcome.trouble)
  match outcome.cache with
  | some (path, store) => Main.writeCache path store
  | none => pure ()
  return UInt32.ofNat outcome.status.code
