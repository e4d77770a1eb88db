import EdgeGateway.Config.Options

/-!
# The command line

The program reads the settings of a gateway as the gateway would, and says what they come to.
-/

namespace EdgeGateway

/-- What stands at a path of the file system. What cannot be read counts as a directory. -/
def contentAt (path : String) : IO FileContent := do
  try
    return .bytes (← IO.FS.readBinFile path).toList
  catch
    | .noFileOrDirectory .. => return .missing
    | _ => return .directory

/-- Lines that say what a gateway with some settings would do. -/
def Settings.summary (s : Settings) : List String := [
  s!"node: {s.nid}",
  s!"listens on: {s.listenAddress}",
  s!"path: {s.path}",
  s!"backend: {s.link.address}",
  s!"links: {s.link.links}"]

/-- Reads the settings and says what they come to, or what is wrong with them. -/
def checkSettings (args : List String) : IO UInt32 := do
  match Config.Options.parse {} args with
  | .error e =>
    IO.eprintln e.message
    return 2
  | .ok o =>
    let home ← IO.getEnv "HOME"
    let file := o.file.getD Config.Options.defaultFile
    let content ← contentAt (Settings.expandHome home file)
    match Settings.load (fun _ ↦ content) home (some file) o.overrides with
    | .error f =>
      IO.eprintln f.message
      return 1
    | .ok s =>
      for line in s.summary do IO.println line
      return 0

end EdgeGateway

/-- Checks the settings that the arguments name. -/
def main (args : List String) : IO UInt32 := EdgeGateway.checkSettings args
