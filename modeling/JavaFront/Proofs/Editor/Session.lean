import JavaFront.Editor
import JavaFront.Proofs.Diagnostic.Register
import JavaFront.Proofs.Parser.Records

/-!
# The service follows the last text

An event with a proper address either brings a new text for a document, closes
it, or is of no account. Whatever was heard before, the diagnostics of a document
are those of its last text, by offset, and there are none for a document that is
closed or was never opened. An event that counts is answered once, at its own
address and with what its document then has.
-/

namespace JavaFront

open Diagnostic

namespace Editor

/-! ## Events -/

/-- The address an event is about. -/
def Event.uri : Event → Bytes
  | .opened uri _ | .changed uri _ | .saved uri _ | .closed uri => uri

/-- What an event says about the text of its document: the new text, or that
there is none any more. Changes of a part, saves without a text and empty lists
of changes say nothing. -/
def Event.news? : Event → Option (Option Bytes)
  | .opened _ text => some (some text)
  | .changed _ changes =>
    match changes.getLast? with
    | some (.whole text) => some (some text)
    | _ => none
  | .saved _ text? => text?.map some
  | .closed _ => some none

/-- The document that an event is about and its text from then on, if the event
counts. -/
def Event.update? (event : Event) : Option (Bytes × Option Bytes) :=
  match Uri.toPath event.uri, event.news? with
  | .ok path, some text? => some (path, text?)
  | _, _ => none

/-- The texts of the open documents behind an event. -/
def follow (texts : Bytes → Option Bytes) (event : Event) : Bytes → Option Bytes :=
  match event.update? with
  | some (path, text?) => fun other => if other = path then text? else texts other
  | none => texts

/-- The service behind events. -/
def listen (editor : Editor) (events : List Event) : Editor :=
  events.foldl (fun editor event => (editor.hear event).1) editor

/-- What a parse of a document's text reports, if it has one. -/
def reported (options : Options) (path : Bytes) : Option Bytes → List Diagnostic
  | some text => ((Source.of path text).parse .unit options).diagnostics
  | none => []

/-- The diagnostics of a document as they are sent with its text. -/
def markers (path : Bytes) (text? : Option Bytes) (diagnostics : List Diagnostic) : List Marker :=
  match text? with
  | some text => diagnostics.map (Marker.of (Source.of path text))
  | none => []

/-! ## One event -/

/-- The ledger behind an event that counts. -/
def settle (editor : Editor) (path : Bytes) : Option Bytes → Ledger
  | some text =>
    editor.ledger.report (Source.of path text) (reported editor.options path (some text))
  | none => editor.ledger.clear path

/-- The service and its answer behind an event that counts. -/
def settled (editor : Editor) (uri path : Bytes) (text? : Option Bytes) :
    Editor × Option Notice :=
  let ledger := editor.settle path text?
  ({ editor with ledger }, some ⟨uri, markers path text? (ledger.ofFile path)⟩)

theorem check_eq (editor : Editor) (uri text : Bytes) :
    editor.check uri text =
      match Uri.toPath uri with
      | .ok path => editor.settled uri path (some text)
      | .error _ => (editor, none) := by
  simp only [check]
  cases Uri.toPath uri <;> rfl

theorem forget_eq (editor : Editor) (uri : Bytes) :
    editor.forget uri =
      match Uri.toPath uri with
      | .ok path => editor.settled uri path none
      | .error _ => (editor, none) := by
  simp only [forget]
  cases Uri.toPath uri <;> rfl

/-- What becomes of an event: nothing, or a new ledger and one notice. -/
theorem hear_eq (editor : Editor) (event : Event) :
    editor.hear event =
      match event.update? with
      | some (path, text?) => editor.settled event.uri path text?
      | none => (editor, none) := by
  cases event with
  | opened uri text =>
      simp only [hear, check_eq, Event.update?, Event.uri, Event.news?]
      cases Uri.toPath uri <;> rfl
  | changed uri changes =>
      simp only [hear, check_eq, Event.update?, Event.uri, Event.news?]
      rcases changes.getLast? with _ | ⟨text⟩ | ⟨text⟩ <;> cases Uri.toPath uri <;> rfl
  | saved uri text? =>
      rcases text? with _ | text <;>
        simp only [hear, check_eq, Event.update?, Event.uri, Event.news?] <;>
        cases Uri.toPath uri <;> rfl
  | closed uri =>
      simp only [hear, forget_eq, Event.update?, Event.uri, Event.news?]
      cases Uri.toPath uri <;> rfl

/-! ## Any number of events -/

/-- The ledger of the service tells what parses of these texts report. -/
def Tracks (editor : Editor) (texts : Bytes → Option Bytes) : Prop :=
  ∃ register, editor.ledger.Represents register ∧
    ∀ path, register.diagnostics path = reported editor.options path (texts path)

variable {editor : Editor} {texts : Bytes → Option Bytes}

theorem Tracks.diagnostics_eq (tracks : editor.Tracks texts) (path : Bytes) :
    editor.diagnostics path = arranged (reported editor.options path (texts path)) := by
  obtain ⟨register, represents, shows⟩ := tracks
  rw [diagnostics, represents.ofFile_eq, shows]

/-- The new text of one document is tracked with the old ones of all others. -/
theorem Tracks.settle (tracks : editor.Tracks texts) (path : Bytes) (text? : Option Bytes) :
    ({ editor with ledger := editor.settle path text? } : Editor).Tracks
      fun other => if other = path then text? else texts other := by
  obtain ⟨register, represents, shows⟩ := tracks
  cases text? with
  | some text =>
      refine ⟨_, represents.report (.of path text) ((Source.of path text).parse_starts _ _),
        fun other => ?_⟩
      by_cases same : other = path
      · simp [Register.report, Source.of, reported, same]
      · simp [Register.report, Source.of, same, shows]
  | none =>
      refine ⟨_, represents.clear path, fun other => ?_⟩
      by_cases same : other = path
      · simp [Register.clear, reported, same]
      · simp [Register.clear, same, shows]

theorem options_hear (editor : Editor) (event : Event) :
    (editor.hear event).1.options = editor.options := by
  rw [hear_eq]
  split <;> rfl

theorem Tracks.hear (tracks : editor.Tracks texts) (event : Event) :
    (editor.hear event).1.Tracks (follow texts event) := by
  rw [hear_eq, follow]
  split
  · exact tracks.settle _ _
  · exact tracks

theorem Tracks.listen (tracks : editor.Tracks texts) (events : List Event) :
    (editor.listen events).Tracks (events.foldl follow texts) := by
  induction events generalizing editor texts with
  | nil => exact tracks
  | cons event events ih => exact ih (tracks.hear event)

theorem options_listen (editor : Editor) (events : List Event) :
    (editor.listen events).options = editor.options := by
  induction events generalizing editor with
  | nil => rfl
  | cons event events ih => exact (ih (editor.hear event).1).trans (editor.options_hear event)

/-- A document has the diagnostics of its last text, whatever the service heard
before. What it hears next leaves it as it is, or changes one document and is
answered at the event's address with the diagnostics the document then has. -/
theorem hear_follows (version : Bytes) (options : Options) (events : List Event) :
    let editor := listen ⟨version, options, {}⟩ events
    let texts := events.foldl follow fun _ => none
    (∀ path, editor.diagnostics path = arranged (reported options path (texts path))) ∧
      ∀ event : Event,
        match event.update? with
        | none => editor.hear event = (editor, none)
        | some (path, text?) =>
          let after := (editor.hear event).1
          (editor.hear event).2 = some ⟨event.uri, markers path text? (after.diagnostics path)⟩ ∧
            ∀ other, after.diagnostics other =
              if other = path then arranged (reported options path text?)
              else editor.diagnostics other := by
  intro editor texts
  have fresh : (⟨version, options, {}⟩ : Editor).Tracks fun _ => none :=
    ⟨{}, .empty, fun _ => rfl⟩
  have tracks : editor.Tracks texts := fresh.listen events
  have kept : editor.options = options := options_listen _ events
  refine ⟨fun path => kept ▸ tracks.diagnostics_eq path, fun event => ?_⟩
  have heard := tracks.hear event
  have answer := editor.hear_eq event
  split
  · rename_i ignored
    rw [answer, ignored]
  · rename_i path text? counts
    refine ⟨by rw [answer, counts]; rfl, fun other => ?_⟩
    rw [heard.diagnostics_eq, tracks.diagnostics_eq, options_hear, kept, follow, counts]
    by_cases same : other = path <;> simp [same]

end Editor

end JavaFront
