import JavaFront.Command.Outcome

/-!
# The program

The outermost layer: it loads the files a command looks at, runs the command and
writes what comes out.

What a command looks at depends on its settings file, and the files whose
content it needs depend on the directories it looks at. So the disk is loaded in
rounds, each of which knows what the one before found.
-/

namespace JavaFront.Program

/-- The target of a link that leads nowhere: no file has such a name. -/
def nowhere : Bytes := [Path.slash, 0]

/-- What an action gives, or something else where it may not be done. -/
def orDenied {Result : Type} (action : IO Result) (otherwise : Result) : IO Result := do
  try action
  catch
    | .permissionDenied .. => return otherwise
    | error => throw error

/-- What stands at a path. Only the files in `needed` are read. A link to a file
is taken for the file. -/
partial def capture (needed : List Bytes) (path : String) : IO (Option FileTree) := do
  let place := (← IO.currentDir) / path
  let content : IO FileTree := do
    if needed.contains (Path.clean (Bytes.ofString place.toString)) then
      orDenied (return .file (← IO.FS.readBinFile place).data.toList) (.file [] false)
    else return .file []
  try
    match (← place.symlinkMetadata).type with
    | .dir =>
      let search ← orDenied (return (← (place / ".").symlinkMetadata).type == .dir) false
      let mut entries : Directory := []
      let some listed ← orDenied (some <$> place.readDir) none
        | return some (.directory [] { list := false, search })
      for entry in listed do
        if let some tree ← capture needed (path ++ "/" ++ entry.fileName) then
          entries := entries ++ [(Bytes.ofString entry.fileName, tree)]
      return some (.directory entries { search })
    | .symlink =>
      if ← place.isDir then
        return some (.link (Bytes.ofString (← IO.FS.realPath place).toString))
      else if ← place.pathExists then return some (← content)
      else return some (.link nowhere)
    | _ => return some (← content)
  catch _ => return none

/-- The names of a path from the top. -/
def namesFromTop (path : Bytes) : List Bytes :=
  (Path.names path).filter fun name => !name.isEmpty

/-- Loads what stands at the given places. What a link to a directory leads to is
not looked into. -/
def load (places needed : List Bytes) : IO Disk := do
  let here ← IO.currentDir
  let absolute (path : Bytes) : Bytes :=
    if Path.isAbsolute path then Path.clean path
    else Path.join (Bytes.ofString here.toString) path
  let mut top : Directory := []
  for path in places do
    let spelled := absolute path
    if let some name := String.fromUTF8? ⟨spelled.toArray⟩ then
      if let some tree ← capture (needed.map absolute) name then
        top := top.put tree (namesFromTop spelled)
        if let .link target := tree then
          if target ≠ nowhere then top := top.put (.directory []) (namesFromTop target)
  return Disk.descend { entries := top } (Path.names (Bytes.ofString here.toString))

/-- Loads what a command looks at. -/
def loadFor (command : Command) : IO Disk := do
  let mut disk : Disk := {}
  for _ in [0, 1, 2] do
    disk ← load (command.places disk) (command.needs disk)
  return disk

/-- Runs a command line; a command that fails ends the program with an error. -/
def run (words : List String) : IO UInt32 := do
  let command := Command.ofWords (words.map Bytes.ofString)
  let disk ←
    match command with
    | .ok command => loadFor command
    | .error _ => pure {}
  let outcome := disk.conclude command
  (← IO.getStdout).write ⟨outcome.result.toArray⟩
  (← IO.getStderr).write ⟨outcome.report.toArray⟩
  return if outcome.failure.isSome then 1 else 0

end JavaFront.Program

/-- Runs the program on the words of its command line. -/
def main (words : List String) : IO UInt32 :=
  JavaFront.Program.run words
