import LabelLoop.CommandLine.Reach
import Std.Time

/-!
# The program

Runs one command on the real files: what the command can reach is read into a file tree, the command
is run on the tree, and its changes are carried out.  A place where a link stands is read as what
the link leads to, and written through the link.
-/

namespace LabelLoop.CommandLine

/-- A place as the system writes it. -/
def systemName (place : Place) : String :=
  String.ofList ('/' :: List.intercalate ['/'] place)

/-- What really stands at a place. -/
def findEntry (place : Place) : IO (Option Entry) := do
  try
    let path ← IO.FS.realPath (systemName place)
    if ← path.isDir then return some .directory
    if ← path.pathExists then
      return some (.file (← IO.FS.readBinFile path).toList)
    return none
  catch _ => return none

/-- A tree with what really stands at some places. -/
def addPlaces (tree : FileTree) (places : List Place) : IO FileTree := do
  let mut result := tree
  for place in places do
    if (result.entryAt? place).isNone then
      if let some e ← findEntry place then result := result.put place e
  return result

/-- Carries out one change. -/
def carryOutChange : Place × Entry → IO Unit
  | (place, .directory) => IO.FS.createDirAll (systemName place)
  | (place, .file content) => IO.FS.writeBinFile (systemName place) (ByteArray.mk content.toArray)
  | _ => return

/-- The variables of the environment that matter: those that hold settings, and the number of
columns. -/
def findEnvironment : IO (List (Text × Text)) := do
  let mut result := []
  for name in "COLUMNS".toList :: Settings.names.map (Settings.variableStem ++ ·) do
    if let some value ← IO.getEnv (String.ofList name) then
      result := result ++ [(name, value.toList)]
  return result

/-- The moment as each style of log lines writes it. -/
def findTime : IO (Log.Style → Text) := do
  let now ← Std.Time.PlainDateTime.now
  let utc := Std.Time.DateTime.ofTimestampWithZone (← Std.Time.Timestamp.now) .UTC
  return fun
    | .plain => (now.format "uuuu-MM-dd HH:mm:ss").toList
    | .structured => (utc.format "uuuu-MM-dd'T'HH:mm:ss.SSSSSS" ++ "+00:00").toList

end LabelLoop.CommandLine

open LabelLoop LabelLoop.CommandLine in
/-- Runs the command that the arguments ask for. -/
def main (args : List String) : IO UInt32 := do
  let arguments := args.map String.toList
  let here := (Path.ofText (← IO.currentDir).toString.toList).names
  let environment ← findEnvironment
  let clock := (← Std.Time.Timestamp.now).toNanosecondsSinceUnixEpoch.val
  let withSettings ← addPlaces { here, entries := [] } (trailOf here Settings.path)
  let paths :=
    match Settings.load withSettings environment [] with
    | .ok settings => pathsOf settings arguments
    | .error _ => []
  let tree ← addPlaces withSettings (paths.flatMap (trailOf here))
  let outcome := run { tree, environment, clock, time := ← findTime } arguments
  (changes tree outcome.tree).forM carryOutChange
  IO.print (String.ofList outcome.output)
  IO.eprint (String.ofList outcome.errors)
  match outcome.status with
  | .ok status => return status.toUInt32
  | .error crash =>
    IO.eprintln (String.ofList crash.message)
    return 1
