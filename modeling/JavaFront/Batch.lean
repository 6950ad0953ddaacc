import JavaFront.Diagnostic.Ledger
import JavaFront.Files
import JavaFront.Parser
import JavaFront.Settings

/-!
# Parsing many units

A batch run lists the files its settings select, parses each of them on its
own and collects their diagnostics in one ledger. A unit that cannot be read or
parsed says so and stops no other.

`Settings.select` lists the files: every root that is no directory as it is
given, and below every other root the files that an include pattern and no
exclude pattern describes. A directory that an exclude pattern describes is not
entered, and one that may not be opened is passed over.
-/

namespace JavaFront

/-! ## Selecting files -/

namespace Selection

/-- The paths selected from several parts of the files, up to the first part
that could not be searched. -/
def concat {Reason : Type} : List (Except Reason (List Bytes)) → Except Reason (List Bytes)
  | [] => .ok []
  | selection :: selections => do return (← selection) ++ (← concat selections)

/-- The paths selected from the entries of a directory, in the order of the
entries' names. -/
def gather {Reason : Type} (named : List (Bytes × Except Reason (List Bytes))) :
    Except Reason (List Bytes) :=
  concat ((named.mergeSort fun first second => decide (first.1 ≤ second.1)).map Prod.snd)

end Selection

namespace FileTree

mutual

/-- The paths selected from an entry, given whether names may be looked up in the
directory it is in, its path relative to the root and its path as it is reported.
A directory that may not be opened is passed over. -/
def select (globs : Glob.Language) (settings : Settings) (searchable : Bool)
    (relative path : Bytes) : FileTree → Except AccessError (List Bytes)
  | .directory entries rights =>
    if globs.anyDescribes settings.excluded relative then .ok []
    else if Disk.longestPath < path.length then .error ⟨.openFile, path, .nameTooLong⟩
    else if searchable && rights.list then
      Selection.gather (selectAll globs settings rights.search relative path entries)
    else .ok []
  | _ =>
    if globs.anyDescribes settings.excluded relative then .ok []
    else if globs.anyDescribes settings.included relative then .ok [path]
    else .ok []

/-- The paths selected from the entries of a directory, by name. -/
def selectAll (globs : Glob.Language) (settings : Settings) (searchable : Bool)
    (relative path : Bytes) :
    List (Bytes × FileTree) → List (Bytes × Except AccessError (List Bytes))
  | [] => []
  | (name, tree) :: entries =>
    (name, tree.select globs settings searchable (relative ++ Path.slash :: name)
        (path ++ Path.slash :: name)) ::
      selectAll globs settings searchable relative path entries

end

end FileTree

/-- Why a batch run has no result. -/
inductive Batch.Error where
  | settings (fault : Settings.Fault)
  | root (path : Bytes) (error : AccessError)
  | walk (path : Bytes) (error : AccessError)
  | canceled
deriving DecidableEq, Repr

/-- The wording of why a batch run has no result. -/
def Batch.Error.message : Batch.Error → Bytes
  | .settings fault => Bytes.ofString "config: " ++ fault.message
  | .root path error => Bytes.ofString "root " ++ path ++ Bytes.ofString ": " ++ error.message
  | .walk path error => Bytes.ofString "walk " ++ path ++ Bytes.ofString ": " ++ error.message
  | .canceled => Abandonment.message .canceled

namespace Disk

/-- The paths selected from an entry of a root directory. A directory is looked up
by the path under which it is reported. -/
def selectEntry (disk : Disk) (settings : Settings) (root name : Bytes) (tree : FileTree)
    (globs : Glob.Language := Glob.language) : Except AccessError (List Bytes) :=
  let path := Path.join root name
  match tree with
  | .directory _ _ =>
    if globs.anyDescribes settings.excluded name then .ok []
    else do
      let folder ← disk.visit path
      Selection.gather
        (FileTree.selectAll globs settings folder.rights.search name path folder.entries)
  | _ => tree.select globs settings true name path

/-- The paths selected from the entries of a root directory. -/
def selectBelow (disk : Disk) (settings : Settings) (root : Bytes) (entries : Directory)
    (globs : Glob.Language := Glob.language) : Except AccessError (List Bytes) :=
  Selection.concat
    (entries.map fun entry => disk.selectEntry settings root entry.1 entry.2 globs)

/-- The paths selected from one root. A link to a directory is a root without
files. -/
def selectRoot (disk : Disk) (settings : Settings) (root : Bytes)
    (globs : Glob.Language := Glob.language) : Except Batch.Error (List Bytes) := do
  match ← (disk.examine root).mapError (Batch.Error.root root) with
  | .directory _ _ =>
    match disk.resolve false root with
    | .ok (.directory _ _) =>
      let selected := do
        let folder ← disk.visit root
        disk.selectBelow settings root folder.entries globs
      selected.mapError (Batch.Error.walk root)
    | _ => return []
  | _ => return [root]

/-- The paths selected from several roots. -/
def selectRoots (disk : Disk) (settings : Settings) (roots : List Bytes)
    (globs : Glob.Language := Glob.language) : Except Batch.Error (List Bytes) :=
  Selection.concat (roots.map fun root => disk.selectRoot settings root globs)

/-- The files the settings select, in order and without repetition. -/
def select (disk : Disk) (settings : Settings) (globs : Glob.Language := Glob.language) :
    Except Batch.Error (List Bytes) :=
  (disk.selectRoots settings settings.roots globs).map fun paths =>
    Bytes.distinct (Bytes.sort paths)

end Disk

/-! ## Parsing one unit -/

/-- Why a unit has no complete result. -/
inductive Trouble where
  | unreadable (path : Bytes) (error : AccessError)
  | abandoned (reason : Abandonment)
deriving DecidableEq, Repr

/-- The wording of why a unit has no complete result. -/
def Trouble.message : Trouble → Bytes
  | .unreadable path error =>
    Bytes.ofString "read " ++ path ++ Bytes.ofString ": " ++ error.message
  | .abandoned reason => reason.message

/-- What became of one unit. A unit that could not be read has no source. -/
structure UnitReport where
  path : Bytes
  source : Option Source := none
  parsed : Parsed := {}
  trouble : Option Trouble := none

namespace UnitReport

/-- The diagnostics of the unit. -/
def diagnostics (report : UnitReport) : List Diagnostic :=
  report.parsed.diagnostics

/-- The unit could not be read, was abandoned or has errors. -/
def failed (report : UnitReport) : Bool :=
  report.trouble.isSome || !report.diagnostics.isEmpty

/-- Enters the diagnostics of a unit that could be read. -/
def enter (ledger : Ledger) (report : UnitReport) : Ledger :=
  match report.source with
  | some source => ledger.report source report.diagnostics
  | none => ledger

end UnitReport

/-- Reads and parses one unit. -/
def Disk.parseUnit (disk : Disk) (settings : Settings) (path : Bytes)
    (patience : Option Int := none) : UnitReport :=
  match disk.read path with
  | .error error => { path, trouble := some (.unreadable path error) }
  | .ok text =>
    let source := Source.of path text
    let parsed := source.parse .unit { settings.options with patience }
    { path, source := some source, parsed, trouble := parsed.abandoned.map Trouble.abandoned }

/-! ## The run -/

/-- What became of a batch run: the units in order, the ledger of their
diagnostics and the reason why there are none. -/
structure Batch where
  units : List UnitReport := []
  ledger : Ledger := {}
  error : Option Batch.Error := none

/-- Enters the diagnostics of units in the order in which they are done. -/
def Batch.collect (units : List UnitReport) : Ledger :=
  units.foldl UnitReport.enter {}

/-- Parses all files the settings select. A run that is canceled beforehand
parses none. -/
def Disk.run (disk : Disk) (settings : Settings) (canceled : Bool := false)
    (globs : Glob.Language := Glob.language) : Batch :=
  match settings.fault? globs with
  | some fault => { error := some (.settings fault) }
  | none =>
    match disk.select settings globs with
    | .error error => { error := some error }
    | .ok paths =>
      if canceled then { error := some .canceled }
      else
        let units := paths.map fun path => disk.parseUnit settings path
        { units, ledger := Batch.collect units }

end JavaFront
