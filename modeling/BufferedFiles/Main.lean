import BufferedFiles.Concat.Run

/-!
# The command line

The files a run may touch are read from the disk beforehand, the run is made, and what it changed is
put back on the disk.
-/
namespace BufferedFiles.CommandLine

/-- The places a path leads through, from the outermost in. -/
def placesOf (home : List Name) (path : Bytes) : List (List Name) :=
  let start := if path.head? = some slash then [] else home
  ((components path).foldl (fun (places, place) name =>
    let next :=
      if name = [dot] then place
      else if name = [dot, dot] then place.dropLast
      else place ++ [name]
    (places ++ [next], next)) ([], start)).1

def pathOf (place : List Name) : String :=
  "/" ++ "/".intercalate (place.map Text.lossy)

/-- The places settings name. -/
def placesIn (home : List Name) (s : Concat.Settings) : List (List Name) :=
  (s.output.toList ++ s.inputs.filter (· ≠ Concat.standardMark)).flatMap
    fun path => placesOf home (toBytes path)

/-- What is on the disk at a place. -/
def look (place : List Name) : IO (Option Content) := do
  let path := (← IO.currentDir) / pathOf place
  if ← path.isDir then return some .directory
  if ← path.pathExists then return some (.regular (← IO.FS.readBinFile path).data.toList)
  return none

/-- Adds what is on the disk at a place, where the system does not know the place yet. -/
def provide (sys : System) (place : List Name) : IO System := do
  if (sys.lookup place).isSome then return sys
  match ← look place with
  | some content => return (sys.addName place content).1
  | none => return sys

partial def readAll (input : IO.FS.Stream) (got : ByteArray) : IO ByteArray := do
  let more ← input.read 65536
  if more.isEmpty then return got
  readAll input (got ++ more)

/-- The system before a run; where arguments or settings are refused nothing is read for it. -/
def gather (arguments : List String) : IO System := do
  let home := components (toBytes (← IO.currentDir).toString)
  let (inputs, places) := match (Concat.Settings.parse arguments).toOption.filter (·.check.isOk) with
    | some s => (s.inputs, placesIn home s)
    | none => ([], [])
  let data ← if inputs.contains Concat.standardMark then readAll (← IO.getStdin) .empty
    else pure .empty
  let sys := System.withConsole (.pipe data.data.toList)
  let above := (List.range home.length).map fun k => home.take (k + 1)
  let sys := above.foldl (fun sys dir => (sys.addName dir .directory).1) { sys with home }
  places.foldlM provide sys

/-- Puts the files a run changed back on the disk. -/
def store (before after : System) : IO Unit := do
  for (place, _) in after.names do
    unless [ConsoleName.input, .output, .messages].any (·.place == place) do
      match after.contentAt place with
      | some (.regular data) =>
        unless before.contentAt place == some (.regular data) do
          IO.FS.writeBinFile (pathOf place) ⟨data.toArray⟩
      | _ => pure ()

def run (arguments : List String) : IO UInt32 := do
  let before ← gather arguments
  let report := Concat.invoke arguments before
  store before report.system
  (← IO.getStdout).write ⟨((report.system.written .output).getD []).toArray⟩
  IO.eprint report.messages
  return UInt32.ofNat report.exitCode

end BufferedFiles.CommandLine

def main (arguments : List String) : IO UInt32 :=
  BufferedFiles.CommandLine.run arguments
