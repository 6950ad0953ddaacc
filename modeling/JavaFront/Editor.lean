import JavaFront.Diagnostic.Ledger
import JavaFront.Editor.Uri
import JavaFront.Parser

/-!
# Diagnostics for an editor

An editor tells when a document is opened, changed, saved and closed. Each time
it hands over a text the text is parsed, and the diagnostics of the document are
sent back; closing a document takes them back. A document whose address is
faulty is ignored.

Places are sent the way editors count them: lines from zero, and inside a line
the units of UTF-16.
-/

namespace JavaFront

/-! ## Places -/

/-- A place the way editors count it. -/
structure Editor.Position where
  line : Nat
  character : Nat
deriving DecidableEq, Repr

/-- The number of UTF-16 units a text takes. A byte that starts no character
takes one. -/
def Bytes.units16 (text : Bytes) : Nat :=
  text.runes.foldl (fun units rune => units + rune.units16) 0

/-- Numbers are sent as words of this many values. -/
def Editor.wordLimit : Nat := 4294967296

/-- A place of a source the way editors count it. A column outside its line is
moved to the nearest end of the line. -/
def Source.editorPosition (source : Source) (place : Place) : Editor.Position :=
  let line := source.line place.line
  { line := (place.line - 1).toNat % Editor.wordLimit
    character := Bytes.units16 (line.take (place.column - 1).toNat) % Editor.wordLimit }

namespace Editor

/-- The name under which the service announces itself and sends diagnostics. -/
def serviceName : Bytes := "docfront"

/-- The number that stands for errors among the severities. -/
def errorSeverity : Nat := 1

/-- A diagnostic in the form in which it is sent. -/
structure Marker where
  start : Position
  stop : Position
  severity : Nat
  source : Bytes
  message : Bytes
deriving DecidableEq, Repr

/-- A diagnostic as it is sent: an error found by the service. One that ends before
it starts is empty. -/
def Marker.of (source : Source) (diagnostic : Diagnostic) : Marker :=
  let stop :=
    if diagnostic.stop.offset < diagnostic.start.offset then diagnostic.start
    else diagnostic.stop
  { start := source.editorPosition diagnostic.start
    stop := source.editorPosition stop
    severity := errorSeverity
    source := serviceName
    message := diagnostic.message }

/-- The diagnostics of a document, replacing all sent for it before. -/
structure Notice where
  uri : Bytes
  markers : List Marker
deriving DecidableEq, Repr

/-- A change of a document: its whole new text, or a part of it. -/
inductive Change where
  | whole (text : Bytes)
  | part (text : Bytes)
deriving DecidableEq, Repr

/-- What an editor tells about its documents. -/
inductive Event where
  | opened (uri text : Bytes)
  | changed (uri : Bytes) (changes : List Change)
  | saved (uri : Bytes) (text : Option Bytes)
  | closed (uri : Bytes)
deriving DecidableEq, Repr

/-- What the service announces when it starts: its name, its version, and that
it wants to hear of opened and closed documents, of changes as whole texts, and
of saved texts. -/
structure Welcome where
  name : Bytes := serviceName
  version : Bytes
  opened : Bool := true
  wholeTexts : Bool := true
  savedTexts : Bool := true
deriving DecidableEq, Repr

end Editor

/-- The service for one editor: its version, the limits under which it parses
and the diagnostics sent last. -/
structure Editor where
  version : Bytes
  options : Options := {}
  ledger : Ledger := {}

namespace Editor

/-- What the service announces when it starts. -/
def welcome (editor : Editor) : Welcome :=
  { version := editor.version }

/-- The diagnostics sent last for a document. -/
def diagnostics (editor : Editor) (path : Bytes) : List Diagnostic :=
  editor.ledger.ofFile path

/-- Parses the text of a document and sends its diagnostics. -/
def check (editor : Editor) (uri text : Bytes) : Editor × Option Notice :=
  match Uri.toPath uri with
  | .error _ => (editor, none)
  | .ok path =>
    let source := Source.of path text
    let parsed := source.parse .unit editor.options
    let ledger := editor.ledger.report source parsed.diagnostics
    ({ editor with ledger },
      some ⟨uri, (ledger.ofFile path).map (Marker.of source)⟩)

/-- Takes the diagnostics of a document back. -/
def forget (editor : Editor) (uri : Bytes) : Editor × Option Notice :=
  match Uri.toPath uri with
  | .error _ => (editor, none)
  | .ok path => ({ editor with ledger := editor.ledger.clear path }, some ⟨uri, []⟩)

/-- Answers an event. Of several changes the last one counts, and only if it is
the whole text. -/
def hear (editor : Editor) : Event → Editor × Option Notice
  | .opened uri text => editor.check uri text
  | .changed uri changes =>
    match changes.getLast? with
    | some (.whole text) => editor.check uri text
    | _ => (editor, none)
  | .saved uri (some text) => editor.check uri text
  | .saved _ none => (editor, none)
  | .closed uri => editor.forget uri

end Editor

end JavaFront
