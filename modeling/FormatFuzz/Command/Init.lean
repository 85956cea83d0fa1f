import FormatFuzz.Command.Outcome

namespace FormatFuzz

/-- A path with the names of the places on the way to it only. -/
def Path.resolved (p : Path) : Path := ⟨"/", p.place⟩

def initCommand (cwd : Path) (path : String) (d : Disk) : CommandEnd × Disk :=
  let state := Config.stateDirectory (cwd.join (.ofString path)).resolved
  let file := state.child Config.fileName
  if d.tree.exists? file.place then
    (.saying 0 ["[yellow]Already initialized:[/yellow] " ++ state.toString], d)
  else
    let action : DiskM Unit := do
      Disk.act fun t => t.makeDirectories state.place
      Disk.act fun t => t.write file.place (Text.encodeUtf8 Config.defaultText)
    match action d with
    | (.error e, d) => (.crash (.file e), d)
    | (.ok (), d) =>
      (.saying 0 ["[green]Initialized idemfuzz:[/green] " ++ state.toString,
        "  [dim]config:[/dim] " ++ file.toString], d)

end FormatFuzz
