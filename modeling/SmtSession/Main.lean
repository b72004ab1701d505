import SmtSession.Program

/-!
# The program as it is run

The files that the arguments name are looked up first; then `Program.run`
says what to print and what to leave in the transcript.
-/

namespace SmtSession.Main

/-- What is at a place. -/
def entryAt (place : Place) : IO (Option Entry) := do
  try
    discard (IO.FS.realPath (place.text ++ "/."))
    return some .directory
  catch _ =>
    try
      return some (.file (← IO.FS.readFile place.text) true)
    catch _ =>
      return none

/-- What is on the way to a path, and at its end. -/
def entriesFor (path : Path) : IO (List (Place × Entry)) := do
  let place := Place.ofPath path
  let places := (List.range place.length).map fun n => place.take (n + 1)
  let found ← places.mapM fun p => do return (← entryAt p).map fun e => (p, e)
  return found.reduceOption

/-- The paths that the arguments name. -/
def pathsOf (c : CommandLine) : List Path :=
  let engine := (Program.installation c).directory.map (·.join Backend.yices.name)
  Path.ofText c.file :: Path.ofText c.log :: engine.toList

/-- The files that the arguments name. -/
def filesFor (arguments : List String) : IO Files := do
  match CommandLine.read arguments with
  | .error _ => return {}
  | .ok c => return { entries := (← (pathsOf c).mapM entriesFor).flatten }

/-- Writes the files that differ from what they were. -/
def save (before after : Files) : IO Unit := do
  for (place, e) in after.entries do
    match e with
    | .directory => pure ()
    | .file content _ =>
      if before.at? place ≠ some e then
        IO.FS.writeFile place.text content

end SmtSession.Main

/-- Runs the program on the arguments. The result is the status. -/
def main (arguments : List String) : IO UInt32 := do
  let files ← SmtSession.Main.filesFor arguments
  match SmtSession.Program.run arguments files with
  | .stopped status output =>
    IO.print output
    return UInt32.ofNat status
  | .finished done =>
    IO.eprint done.errors
    IO.print done.output
    SmtSession.Main.save files done.files
    return UInt32.ofNat done.status
