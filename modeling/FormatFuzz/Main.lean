import FormatFuzz.Command.Reach
import FormatFuzz.Command.Message
import FormatFuzz.File.Change
import FormatFuzz.Formatter.Black

namespace FormatFuzz

open FormatFuzz.Random

def Place.path (p : Place) : String := "/" ++ "/".intercalate p

def directoryCode : UInt32 := 21

def look (p : Place) : IO (Option FileNode) := do
  try
    let bytes ← IO.FS.readBinFile p.path
    return some (.file bytes.toList)
  catch
    | .inappropriateType _ code _ =>
      return if code == directoryCode then some .directory else none
    | _ => return none

def lookAll (paths : List Path) : IO FileTree := do
  let places := (paths.flatMap fun p => p.place.way).eraseDups
  let entries ← places.filterMapM fun p => return (← look p).map fun n => (p, n)
  return ⟨entries⟩

def carryOut : FileChange → IO Unit
  | .remove p => IO.FS.removeFile p.path
  | .makeDirectory p => IO.FS.createDirAll p.path
  | .write p bytes => IO.FS.writeBinFile p.path ⟨bytes.toArray⟩

def surroundings : IO Surroundings := do
  let cwd ← IO.currentDir
  let home ← IO.getEnv "HOME"
  let columns ← IO.getEnv "COLUMNS"
  return {
    cwd := .ofString cwd.toString
    home := home.getD "/"
    terminalWidth := (columns.bind String.toNat?).getD 80
    freshSeed := ← IO.rand 0 0x7fffffff }

/-- The built-in generators, and a formatter that has no engine here. -/
def builtinBackends : Backends Unit Unit Twister where
  generators := ⟨Generator.builtin.entries.map fun (n, g) => (n, (g, ()))⟩
  formatters := ⟨[("black", (Black.formatter Black.uninstalled, ()))]⟩

def endless : Nat := 1000000000000000

def usageText : String := "Usage: idemfuzz [--help] run|init|generators [arguments]"

def CommandEnd.print : CommandEnd → IO Unit
  | .done _ text => IO.print text
  | .usage _ => IO.println usageText
  | .crash e => IO.eprintln e.message

end FormatFuzz

open FormatFuzz in
def main (args : List String) : IO UInt32 := do
  let around ← surroundings
  let settings := Config.load (← lookAll around.configPaths) around.cwd (.ofString around.home)
  let before ← lookAll (around.paths (settings.toOption.getD {}) args)
  match program builtinBackends around endless args ⟨before, none⟩ with
  | none => return 2
  | some p =>
    p.ignored.forM fun line => IO.eprintln line
    (before.changes p.disk.tree).forM carryOut
    p.finish.print
    return p.finish.exitCode.toUInt32
