import JavaFront.Diagnostic

/-!
# The ledger of diagnostics

A ledger collects the diagnostics of many files. It keeps them ordered by file,
then by offset, then by the order in which they were reported, and with them
the sources they were reported for. Reporting a file again replaces what was
known about it.
-/

namespace JavaFront

/-- What orders the entries of a ledger: the file an entry was reported under,
the offset at which its diagnostic starts, and its number. -/
structure Ledger.Key where
  file : Bytes
  offset : Int
  number : Nat
deriving DecidableEq, Repr

/-- A diagnostic with the file it was reported under and its number. -/
structure Ledger.Entry where
  file : Bytes
  number : Nat
  diagnostic : Diagnostic
deriving DecidableEq, Repr

/-- The diagnostics of many files in order, the number of reports so far and
the sources reported last. -/
structure Ledger where
  entries : List Ledger.Entry := []
  reports : Nat := 0
  sources : List (Bytes × Source) := []

namespace Ledger

/-- The key stands before another one. -/
def Key.before (first second : Key) : Bool :=
  if first.file = second.file then
    if first.offset = second.offset then first.number < second.number
    else first.offset < second.offset
  else first.file < second.file

/-- The offset at which an entry's diagnostic starts. -/
def Entry.offset (entry : Entry) : Int :=
  entry.diagnostic.start.offset

/-- The key of an entry. -/
def Entry.key (entry : Entry) : Key :=
  ⟨entry.file, entry.offset, entry.number⟩

/-! ## Entries in order -/

/-- Puts an entry at its place. An entry with the same key is replaced. -/
def insert (entry : Entry) : List Entry → List Entry
  | [] => [entry]
  | other :: entries =>
    if other.key.before entry.key then other :: insert entry entries
    else if entry.key.before other.key then entry :: other :: entries
    else entry :: entries

/-- Removes the entry with a key. -/
def remove (entries : List Entry) (key : Key) : List Entry :=
  entries.filter fun entry => entry.key ≠ key

/-- The entries from a key on, that of the key itself included. -/
def ascend (pivot : Key) (entries : List Entry) : List Entry :=
  entries.dropWhile fun entry => entry.key.before pivot

/-- Where a search for the entries of a file starts. -/
def pivot (file : Bytes) : Key :=
  ⟨file, -4611686018427387904, 0⟩

/-- The entries of a file: those from its pivot on, up to the first one of
another file. -/
def scan (file : Bytes) (entries : List Entry) : List Entry :=
  (ascend (pivot file) entries).takeWhile fun entry => entry.file = file

/-! ## Reports -/

/-- Records a diagnostic under a file. -/
def record (ledger : Ledger) (file : Bytes) (diagnostic : Diagnostic) : Ledger :=
  let number := ledger.reports + 1
  { ledger with entries := insert ⟨file, number, diagnostic⟩ ledger.entries, reports := number }

/-- Records diagnostics under the files they name. -/
def add (ledger : Ledger) (diagnostics : List Diagnostic) : Ledger :=
  diagnostics.foldl (fun ledger diagnostic => ledger.record diagnostic.file diagnostic) ledger

/-- The source reported last for a file. -/
def source? (ledger : Ledger) (file : Bytes) : Option Source :=
  (ledger.sources.find? (·.1 = file)).map Prod.snd

/-- Forgets a file: its diagnostics and its source. -/
def clear (ledger : Ledger) (file : Bytes) : Ledger :=
  { ledger with
    entries := (scan file ledger.entries).foldl (fun entries stale => remove entries stale.key)
      ledger.entries
    sources := ledger.sources.filter fun known => known.1 ≠ file }

/-- Replaces all that is known about a source's file by the source and its
diagnostics. -/
def report (ledger : Ledger) (source : Source) (diagnostics : List Diagnostic) : Ledger :=
  let cleared := ledger.clear source.file
  diagnostics.foldl (fun ledger diagnostic => ledger.record source.file diagnostic)
    { cleared with sources := (source.file, source) :: cleared.sources }

/-! ## What is known -/

/-- The number of diagnostics. -/
def size (ledger : Ledger) : Nat :=
  ledger.entries.length

/-- All diagnostics in order. -/
def all (ledger : Ledger) : List Diagnostic :=
  ledger.entries.map Entry.diagnostic

/-- The diagnostics of one file in order. -/
def ofFile (ledger : Ledger) (file : Bytes) : List Diagnostic :=
  (scan file ledger.entries).map Entry.diagnostic

/-- The files that have diagnostics, in order. -/
def files (ledger : Ledger) : List Bytes :=
  Bytes.distinct (ledger.entries.map Entry.file)

end Ledger

end JavaFront
