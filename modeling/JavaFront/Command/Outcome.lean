import JavaFront.Batch
import JavaFront.Command
import JavaFront.Diagnostic.Excerpt
import JavaFront.Listing
import JavaFront.Settings.Reading

/-!
# What commands do

A command writes to two channels, one for its result and one for what there is
to report about it, and fails or not. `Disk.execute` runs a whole command line
on the files a disk holds; a failure is also reported on the second channel.
-/

namespace JavaFront

namespace Command

/-- Why a command fails. -/
inductive Failure where
  | misuse (misuse : Misuse)
  | unreadable (error : AccessError)
  | format (name : Bytes)
  | entry (name : Bytes)
  | abandoned (path : Bytes) (reason : Abandonment)
  | noTree (path : Bytes)
  | settings (error : Settings.FileError)
  | batch (error : Batch.Error)
  | files (failed total : Nat)
deriving DecidableEq, Repr

/-- The wording of why a command fails. -/
def Failure.message : Failure → Bytes
  | .misuse reason => reason.message
  | .unreadable error => Bytes.ofString "read java file: " ++ error.message
  | .format name => Format.unknownMessage name
  | .entry name =>
    Bytes.ofString "unknown rule " ++ name.quoted ++
      Bytes.ofString " (expected unit, expression or statement)"
  | .abandoned path reason =>
    Bytes.ofString "parse " ++ path ++ Bytes.ofString ": " ++ reason.message
  | .noTree path => Bytes.ofString "parse " ++ path ++ Bytes.ofString ": no syntax tree"
  | .settings error => error.message
  | .batch error => error.message
  | .files failed total =>
    Bytes.ofNat failed ++ Bytes.ofString " of " ++ Bytes.ofNat total ++
      Bytes.ofString " files have errors"

/-- What a failure is reported as. Whoever names no command is told where to
look. -/
def Failure.notice (failure : Failure) : Bytes :=
  let advice :=
    match failure with
    | .misuse (.unknownCommand _) =>
      Bytes.ofString "Run '" ++ programName ++ Bytes.ofString " --help' for usage.\n"
    | _ => []
  Bytes.ofString "Error: " ++ failure.message ++ [0x0a] ++ advice

/-- What a command wrote and why it failed. -/
structure Outcome where
  result : Bytes := []
  report : Bytes := []
  failure : Option Failure := none
deriving DecidableEq, Repr

namespace Outcome

/-- The outcome of a command that does nothing but fail. -/
def fail (failure : Failure) : Outcome :=
  { failure := some failure }

/-- The outcome with its failure reported at the end. -/
def announced (outcome : Outcome) : Outcome :=
  { outcome with
    report := outcome.report ++ (outcome.failure.map Failure.notice).getD [] }

end Outcome

/-! ## Parsing one file -/

/-- What a file holds by the word for it. -/
def entry? (name : Bytes) : Option Entry :=
  if name = Bytes.ofString "unit" then some .unit
  else if name = Bytes.ofString "expression" then some .expression
  else if name = Bytes.ofString "statement" then some .statement
  else none

/-- The work done on one source in one line. -/
def statsLine (stats : Stats) : Bytes :=
  Bytes.ofString "tokens=" ++ Bytes.ofNat stats.tokens ++
    Bytes.ofString " steps=" ++ Bytes.ofNat stats.steps ++
    Bytes.ofString " speculations=" ++ Bytes.ofNat stats.speculations ++
    Bytes.ofString " memo=" ++ Bytes.ofNat stats.memoEntries ++
    Bytes.ofString " hits=" ++ Bytes.ofNat stats.memoHits ++
    Bytes.ofString " misses=" ++ Bytes.ofNat stats.memoMisses ++ [0x0a]

/-- Parses one source and shows its tree; the diagnostics are reported. -/
def showSource (source : Source) (format : Format) (entry : Entry) (order : ParseOrder) :
    Outcome :=
  let parsed := source.parse entry { maxDepth := order.maxDepth }
  { result :=
      if parsed.tree.isSome then format.write source.file order.positions parsed.tree else []
    report :=
      Diagnostic.renderAll (fun _ => some source) parsed.diagnostics ++
        if order.stats then statsLine parsed.stats else []
    failure :=
      match parsed.abandoned with
      | some reason => some (.abandoned source.file reason)
      | none => if parsed.tree.isSome then none else some (.noTree source.file) }

/-- Parses the file at a path as ordered. -/
def parseFile (disk : Disk) (path : Bytes) (order : ParseOrder) : Outcome :=
  match disk.read path with
  | .error error => .fail (.unreadable error)
  | .ok text =>
    match Format.ofName? order.format with
    | none => .fail (.format order.format)
    | some format =>
      match entry? order.entry with
      | none => .fail (.entry order.entry)
      | some entry => showSource (Source.of path text) format entry order

/-! ## Parsing many files -/

/-- The settings an order starts from. -/
def settingsFor (disk : Disk) (order : CheckOrder) : Except Settings.FileError Settings :=
  if order.settingsFile.isEmpty then disk.findSettings else disk.loadSettings order.settingsFile

/-- The line for a unit that could not be read. -/
def unreadLine (unit : UnitReport) : Bytes :=
  match unit.source, unit.trouble with
  | none, some trouble => trouble.message ++ [0x0a]
  | _, _ => []

/-- Shows the diagnostics of a batch and reports their number. The command fails
if a unit did. -/
def showBatch (batch : Batch) : Outcome :=
  let total := batch.units.length
  let failed := batch.units.countP UnitReport.failed
  { result :=
      Diagnostic.renderAll batch.ledger.source? batch.ledger.all ++
        batch.units.flatMap unreadLine
    report :=
      Bytes.ofNat total ++ Bytes.ofString " files checked, " ++ Bytes.ofNat failed ++
        Bytes.ofString " with errors, " ++ Bytes.ofNat batch.ledger.size ++
        Bytes.ofString " diagnostics\n"
    failure := if failed = 0 then none else some (.files failed total) }

/-- Parses all files below the roots as ordered. -/
def checkFiles (disk : Disk) (roots : List Bytes) (order : CheckOrder) : Outcome :=
  match settingsFor disk order with
  | .error error => .fail (.settings error)
  | .ok settings =>
    let batch := disk.run (order.apply roots settings)
    match batch.error with
    | some error => .fail (.batch error)
    | none => showBatch batch

/-! ## All commands -/

/-- The settings file of an order. -/
def settingsPath (order : CheckOrder) : Bytes :=
  if order.settingsFile.isEmpty then Settings.fileName else order.settingsFile

/-- The settings of a batch run as far as the disk tells them. -/
def effectiveSettings (disk : Disk) (roots : List Bytes) (order : CheckOrder) : Settings :=
  order.apply roots ((settingsFor disk order).toOption.getD {})

/-- The paths at and below which a command looks. -/
def places (disk : Disk) : Command → List Bytes
  | .parse path _ => [path]
  | .check roots order => settingsPath order :: (effectiveSettings disk roots order).roots
  | _ => []

/-- The paths of the files whose content a command needs. -/
def needs (disk : Disk) : Command → List Bytes
  | .parse path _ => [path]
  | .check roots order =>
    settingsPath order ::
      ((disk.select (effectiveSettings disk roots order)).toOption.getD [])
  | _ => []

/-- What the program tells about itself. -/
def usage : Bytes :=
  "A Java front end for API documentation

Usage:
  docfront parse <file>       Parse a .java file and dump its syntax tree
  docfront check [paths...]   Parse a tree of .java files and report syntax errors
  docfront lsp                Run a language server that reports syntax errors
  docfront --version          Print the version

Flags of all commands:
  -h, --help                  Print this text
  -v, --verbose               Log more (repeat for debug output)

Flags of parse:
  -f, --format <name>         Output format (json, tree, decls)
      --as <name>             What the file holds (unit, expression, statement)
      --positions             Include spans in tree output
      --stats                 Print parser statistics
      --max-depth <number>    Maximum nesting depth

Flags of check:
  -c, --config <file>         Configuration file (default ./docfront.yaml if present)
      --include <globs>       Files to parse, relative to each root
      --exclude <globs>       Files or directories to skip
  -j, --jobs <number>         Files parsed in parallel
      --max-depth <number>    Maximum nesting depth
      --timeout <duration>    Time limit per file
"

/-- The version of the program. -/
def currentVersion : Bytes := "dev"

/-- Runs a command. An editor is served over a channel of its own, see `Editor`,
so that there is nothing to write. -/
def run (disk : Disk) : Command → Outcome
  | .help => { result := usage }
  | .version => { result := programName ++ Bytes.ofString " version " ++ currentVersion ++ [0x0a] }
  | .parse path order => parseFile disk path order
  | .check roots order => checkFiles disk roots order
  | .serve _ => {}

end Command

/-- Runs what a command line was read as. -/
def Disk.conclude (disk : Disk) : Except Command.Misuse Command → Command.Outcome
  | .error misuse => (Command.Outcome.fail (.misuse misuse)).announced
  | .ok command => (command.run disk).announced

/-- Runs a command line. -/
def Disk.execute (disk : Disk) (words : List Bytes) : Command.Outcome :=
  disk.conclude (Command.ofWords words)

end JavaFront
