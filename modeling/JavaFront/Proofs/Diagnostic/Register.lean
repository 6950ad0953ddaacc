import JavaFront.Proofs.Diagnostic.Arrangement
import JavaFront.Proofs.Diagnostic.Entries
import JavaFront.Proofs.Text.Order

/-!
# A ledger keeps files apart

A register keeps for every file on its own what was reported for it, in the
order of the reports, and the source reported last. A ledger keeps the entries
of all files in one list and tells no more and no less: whatever is reported,
added and cleared, it shows for every file the diagnostics of the register by
offset.
-/

namespace JavaFront

/-- What is known about every file: the diagnostics in the order in which they
were reported, and the source reported last. -/
structure Register where
  diagnostics : Bytes → List Diagnostic := fun _ => []
  source? : Bytes → Option Source := fun _ => none

/-- What may be done with a ledger. -/
inductive Ledger.Action where
  | report (source : Source) (diagnostics : List Diagnostic)
  | add (diagnostics : List Diagnostic)
  | clear (file : Bytes)

namespace Register

/-- Adds each diagnostic to the file that `name` says. -/
def recordAll (register : Register) (name : Diagnostic → Bytes) (diagnostics : List Diagnostic) :
    Register :=
  { register with
    diagnostics := fun file =>
      register.diagnostics file ++ diagnostics.filter fun diagnostic => name diagnostic = file }

/-- Forgets a file. -/
def clear (register : Register) (file : Bytes) : Register where
  diagnostics := fun other => if other = file then [] else register.diagnostics other
  source? := fun other => if other = file then none else register.source? other

/-- Knows a source for its file. -/
def know (register : Register) (source : Source) : Register :=
  { register with
    source? := fun file => if file = source.file then some source else register.source? file }

/-- Replaces what is known about a source's file. -/
def report (register : Register) (source : Source) (diagnostics : List Diagnostic) : Register where
  diagnostics := fun file =>
    if file = source.file then diagnostics else register.diagnostics file
  source? := fun file => if file = source.file then some source else register.source? file

/-- The register after an action. Diagnostics that are added go to the files
they name. -/
def act (register : Register) : Ledger.Action → Register
  | .report source diagnostics => register.report source diagnostics
  | .add diagnostics => register.recordAll Diagnostic.file diagnostics
  | .clear file => register.clear file

end Register

namespace Ledger

open Diagnostic

/-- The diagnostics that an action brings in. -/
def Action.diagnostics : Action → List Diagnostic
  | .report _ diagnostics | .add diagnostics => diagnostics
  | .clear _ => []

/-- The ledger after an action. -/
def act (ledger : Ledger) : Action → Ledger
  | .report source diagnostics => ledger.report source diagnostics
  | .add diagnostics => ledger.add diagnostics
  | .clear file => ledger.clear file

/-- The entry is of a file and starts at an offset. -/
def Entry.isAt (file : Bytes) (offset : Int) (entry : Entry) : Bool :=
  entry.file = file && entry.offset = offset

/-- The ledger tells what the register does: its entries are in order, each in
reach of a search and numbered no higher than the last report, and at every
offset of a file they are what the register has there. -/
structure Represents (ledger : Ledger) (register : Register) : Prop where
  sorted : Sorted ledger.entries
  reach : InReach ledger.entries
  counted : ∀ entry ∈ ledger.entries, entry.number ≤ ledger.reports
  entries_at : ∀ file offset, (ledger.entries.filter (Entry.isAt file offset)).map
    Entry.diagnostic = startingAt offset (register.diagnostics file)
  source_eq : ∀ file, ledger.source? file = register.source? file

/-- The latest entry of an offset stands last among those of its file. -/
theorem Sorted.filter_insert {entries : List Entry} (sorted : Sorted entries) (entry : Entry)
    (latest : ∀ other ∈ entries, other.number < entry.number) (file : Bytes) (offset : Int) :
    (Ledger.insert entry entries).filter (Entry.isAt file offset) =
      entries.filter (Entry.isAt file offset) ++
        if entry.isAt file offset then [entry] else [] := by
  have new : ∀ other ∈ entries, other.key ≠ entry.key := fun other member same =>
    Nat.ne_of_lt (latest other member) (congrArg Key.number same)
  obtain ⟨ahead, behind, rfl, inserted, -, behinds⟩ := sorted.exists_insert new
  rw [inserted, List.filter_append, List.filter_append, List.filter_cons]
  split
  · rename_i isAt
    -- what stands behind the new entry is of another file or offset
    have others : behind.filter (Entry.isAt file offset) = [] := by
      refine List.filter_eq_nil_iff.mpr fun other member otherAt => ?_
      simp only [Entry.isAt, Bool.and_eq_true, decide_eq_true_eq] at isAt otherAt
      obtain ⟨rfl, rfl⟩ := isAt
      have older := latest other (List.mem_append_right _ member)
      have before := Key.before_iff.mp (behinds other member)
      simp only [Entry.key, otherAt, List.lt_irrefl, Int.lt_irrefl, false_or, true_and] at before
      exact Nat.lt_asymm before older
    simp [others]
  · simp

namespace Represents

variable {ledger : Ledger} {register : Register}

theorem empty : Represents {} {} where
  sorted := .nil
  reach := by simp [InReach]
  counted := by simp
  entries_at := by simp [startingAt]
  source_eq := by simp [source?]

/-! ## Actions -/

/-- One more diagnostic under a name. -/
theorem record (represents : ledger.Represents register) (name : Diagnostic → Bytes)
    {diagnostic : Diagnostic} (placed : 0 ≤ diagnostic.offset) :
    (ledger.record (name diagnostic) diagnostic).Represents
      (register.recordAll name [diagnostic]) where
  sorted := represents.sorted.insert _
  reach := by
    intro entry member
    rcases mem_insert member with rfl | old
    · exact Int.le_trans (by simp [pivot]) placed
    · exact represents.reach entry old
  counted := by
    intro entry member
    rcases mem_insert member with rfl | old
    · exact Nat.le_refl _
    · exact Nat.le_succ_of_le (represents.counted entry old)
  entries_at := by
    intro file offset
    have inserted := represents.sorted.filter_insert
      ⟨name diagnostic, ledger.reports + 1, diagnostic⟩
      (fun other member => Nat.lt_succ_of_le (represents.counted other member)) file offset
    simp only [Ledger.record, inserted, List.map_append, represents.entries_at,
      Register.recordAll, startingAt, List.filter_append]
    by_cases sameFile : name diagnostic = file <;>
      by_cases sameOffset : diagnostic.offset = offset <;>
      simp_all [Entry.isAt, Entry.offset, Diagnostic.offset]
  source_eq := represents.source_eq

/-- Diagnostics one after another, each under a name. -/
theorem recordAll (represents : ledger.Represents register) (name : Diagnostic → Bytes)
    {diagnostics : List Diagnostic} (placed : ∀ diagnostic ∈ diagnostics, 0 ≤ diagnostic.offset) :
    (diagnostics.foldl (fun ledger diagnostic => ledger.record (name diagnostic) diagnostic)
      ledger).Represents (register.recordAll name diagnostics) := by
  induction diagnostics generalizing ledger register with
  | nil => simpa [Register.recordAll] using represents
  | cons diagnostic diagnostics ih =>
      obtain ⟨first, rest⟩ := List.forall_mem_cons.mp placed
      have recorded := ih (represents.record name first) rest
      have same : (register.recordAll name [diagnostic]).recordAll name diagnostics =
          register.recordAll name (diagnostic :: diagnostics) := by
        simp only [Register.recordAll, List.append_assoc, ← List.filter_append,
          List.singleton_append]
      exact same ▸ recorded

/-- The sources other than that of a file stay known where it is forgotten. -/
theorem find?_forget (sources : List (Bytes × Source)) (file other : Bytes) :
    (sources.filter fun known => known.1 ≠ file).find? (·.1 = other) =
      if other = file then none else sources.find? (·.1 = other) := by
  induction sources with
  | nil => simp
  | cons known sources ih =>
      by_cases isFile : known.1 = file <;> by_cases isOther : known.1 = other <;>
        simp_all

theorem clear (represents : ledger.Represents register) (file : Bytes) :
    (ledger.clear file).Represents (register.clear file) := by
  have entries := clear_entries represents.sorted represents.reach file
  constructor
  · rw [entries]
    exact represents.sorted.filter _
  · intro entry member
    rw [entries] at member
    exact represents.reach entry (List.mem_of_mem_filter member)
  · intro entry member
    rw [entries] at member
    exact represents.counted entry (List.mem_of_mem_filter member)
  · intro other offset
    rw [entries, List.filter_filter]
    by_cases same : other = file
    · have gone : ledger.entries.filter
          (fun entry => entry.isAt other offset && decide (entry.file ≠ file)) = [] := by
        refine List.filter_eq_nil_iff.mpr fun entry _ => ?_
        simp only [Entry.isAt, Bool.and_eq_true, decide_eq_true_eq]
        exact fun both => both.2 (both.1.1.trans same)
      simp only [gone, Register.clear, if_pos same]
      rfl
    · have kept : ledger.entries.filter
          (fun entry => entry.isAt other offset && decide (entry.file ≠ file)) =
            ledger.entries.filter (Entry.isAt other offset) := by
        refine List.filter_congr fun entry _ => ?_
        by_cases isOther : entry.file = other <;> simp [Entry.isAt, isOther, same]
      simp only [kept, represents.entries_at, Register.clear, if_neg same]
  · intro other
    have known := represents.source_eq other
    simp only [source?] at known
    simp only [source?, Ledger.clear, find?_forget, Register.clear, ← known]
    split <;> rfl

theorem know (represents : ledger.Represents register) (source : Source) :
    ({ ledger with sources := (source.file, source) :: ledger.sources } : Ledger).Represents
      (register.know source) := by
  refine { represents with source_eq := fun file => ?_ }
  have known := represents.source_eq file
  by_cases same : file = source.file
  · simp [source?, Register.know, same]
  · simpa [source?, Register.know, same, Ne.symm same] using known

theorem report (represents : ledger.Represents register) (source : Source)
    {diagnostics : List Diagnostic} (placed : ∀ diagnostic ∈ diagnostics, 0 ≤ diagnostic.offset) :
    (ledger.report source diagnostics).Represents (register.report source diagnostics) := by
  have recorded := ((represents.clear source.file).know source).recordAll
    (fun _ => source.file) placed
  have same : ((register.clear source.file).know source).recordAll (fun _ => source.file)
      diagnostics = register.report source diagnostics := by
    simp only [Register.recordAll, Register.report, Register.know, Register.clear,
      Register.mk.injEq]
    constructor
    · funext file
      by_cases same : file = source.file
      · simp [same]
      · simp [same, Ne.symm same]
    · funext file
      split <;> rfl
  exact same ▸ recorded

/-- A ledger and its register stay together through an action. -/
theorem act (represents : ledger.Represents register) {action : Action}
    (placed : ∀ diagnostic ∈ action.diagnostics, 0 ≤ diagnostic.offset) :
    (ledger.act action).Represents (register.act action) := by
  cases action with
  | report source diagnostics => exact represents.report source placed
  | add diagnostics => exact represents.recordAll Diagnostic.file placed
  | clear file => exact represents.clear file

/-- A ledger and its register stay together through any number of actions. -/
theorem actAll (represents : ledger.Represents register) {actions : List Action}
    (placed : ∀ action ∈ actions, ∀ diagnostic ∈ action.diagnostics, 0 ≤ diagnostic.offset) :
    (actions.foldl Ledger.act ledger).Represents (actions.foldl Register.act register) := by
  induction actions generalizing ledger register with
  | nil => exact represents
  | cons action actions ih =>
      obtain ⟨first, rest⟩ := List.forall_mem_cons.mp placed
      exact ih (represents.act first) rest

/-! ## What is shown -/

/-- A file is shown with what was reported for it, by offset. -/
theorem ofFile_eq (represents : ledger.Represents register) (file : Bytes) :
    ledger.ofFile file = arranged (register.diagnostics file) := by
  rw [ofFile, scan_eq_filter represents.sorted represents.reach]
  refine eq_arranged ?_ fun offset => ?_
  · refine List.pairwise_map.mpr (List.Pairwise.imp_of_mem ?_ (represents.sorted.filter _))
    intro first second inFirst inSecond before
    simp only [List.mem_filter, decide_eq_true_eq] at inFirst inSecond
    have order := Key.before_iff.mp before
    simp only [Entry.key, inFirst.2, inSecond.2, List.lt_irrefl, false_or, true_and] at order
    simp only [notBehind, decide_eq_true_eq]
    exact order.elim Int.le_of_lt fun level => Int.le_of_eq level.1
  · rw [← represents.entries_at, startingAt, List.filter_map, List.filter_filter]
    refine congrArg (List.map Entry.diagnostic) (List.filter_congr fun entry _ => ?_)
    exact Bool.and_comm _ _

/-- The files are in byte order, each once. -/
theorem files_sorted (represents : ledger.Represents register) :
    ledger.files.Pairwise (· < ·) := by
  refine Bytes.distinct_sorted (List.pairwise_map.mpr ?_)
  exact represents.sorted.imp fun before => Key.file_le before

/-- The files are those that something was reported for. -/
theorem mem_files_iff (represents : ledger.Represents register) (file : Bytes) :
    file ∈ ledger.files ↔ register.diagnostics file ≠ [] := by
  have listed : file ∈ ledger.files ↔ ledger.ofFile file ≠ [] := by
    rw [files, Bytes.mem_distinct, ofFile, scan_eq_filter represents.sorted represents.reach]
    simp [List.filter_eq_nil_iff]
  rw [listed, represents.ofFile_eq, ne_eq, arranged_eq_nil_iff]

/-- All diagnostics are those of the files one after another, in byte order of
any names that the files are among. -/
theorem all_eq (represents : ledger.Represents register) {names : List Bytes}
    (sorted : names.Pairwise (· < ·))
    (covers : ∀ file, register.diagnostics file ≠ [] → file ∈ names) :
    ledger.all = names.flatMap fun file => arranged (register.diagnostics file) := by
  have gathered : Sorted (names.flatMap fun file =>
      ledger.entries.filter fun entry => entry.file = file) := by
    refine List.pairwise_flatMap.mpr ⟨fun file _ => represents.sorted.filter _, ?_⟩
    refine sorted.imp fun {first second} less entry inFirst other inSecond => ?_
    simp only [List.mem_filter, decide_eq_true_eq] at inFirst inSecond
    obtain ⟨⟨-, rfl⟩, -, rfl⟩ := And.intro inFirst inSecond
    exact Key.before_iff.mpr (.inl less)
  have same : ledger.entries = names.flatMap fun file =>
      ledger.entries.filter fun entry => entry.file = file := by
    refine represents.sorted.eq_of_mem_iff gathered fun entry => ?_
    have named : entry ∈ ledger.entries → entry.file ∈ names := fun member =>
      covers _ ((represents.mem_files_iff _).mp
        ((Bytes.mem_distinct _).mpr (List.mem_map_of_mem member)))
    simpa using named
  rw [all, same, List.map_flatMap]
  refine List.flatMap_congr fun file _ => ?_
  rw [← represents.ofFile_eq, ofFile, scan_eq_filter represents.sorted represents.reach]

end Represents

/-- Whatever is reported, added and cleared at offsets that are not negative, a
ledger shows for every file what was reported for it, by offset, and knows the
source reported last. The files are those that have something to show, in byte
order, and all that there is are their diagnostics one after another. -/
theorem foldl_act_shows (actions : List Action)
    (placed : ∀ action ∈ actions, ∀ diagnostic ∈ action.diagnostics, 0 ≤ diagnostic.offset) :
    let ledger : Ledger := actions.foldl act {}
    let register : Register := actions.foldl Register.act {}
    (∀ file, ledger.ofFile file = arranged (register.diagnostics file)) ∧
      ledger.files.Pairwise (· < ·) ∧
      (∀ file, file ∈ ledger.files ↔ ledger.ofFile file ≠ []) ∧
      ledger.all = ledger.files.flatMap ledger.ofFile ∧
      ledger.size = ledger.all.length ∧
      ∀ file, ledger.source? file = register.source? file := by
  intro ledger register
  have represents : ledger.Represents register := Represents.empty.actAll placed
  refine ⟨represents.ofFile_eq, represents.files_sorted, ?_, ?_, ?_, represents.source_eq⟩
  · intro file
    rw [represents.mem_files_iff, represents.ofFile_eq, ne_eq, ne_eq, arranged_eq_nil_iff]
  · have shown := represents.all_eq represents.files_sorted fun file =>
      (represents.mem_files_iff file).mpr
    rw [shown, ← funext represents.ofFile_eq]
  · exact (List.length_map _).symm

/-- A diagnostic of a file at an offset. -/
def sample (file : Bytes) (offset : Nat) : Diagnostic :=
  { file, start := ⟨offset, 1, offset + 1⟩, stop := ⟨offset, 1, offset + 1⟩, message := [] }

/-- The first report for `A` is replaced by one that is out of order, what is
added to `B` and `C` stays, and `C` is forgotten. -/
def replaced : List Action :=
  [.report (.of "A" "x") [sample "A" 4], .add [sample "C" 0, sample "B" 2],
    .report (.of "A" "xyz") [sample "A" 3, sample "A" 1], .clear "C"]

theorem foldl_act_shows_replaced :
    (∀ action ∈ replaced, ∀ diagnostic ∈ action.diagnostics, 0 ≤ diagnostic.offset) ∧
      (replaced.foldl act {}).files = ["A", "B"] ∧
      (replaced.foldl act {}).all =
        (replaced.foldl act {}).ofFile "A" ++ (replaced.foldl act {}).ofFile "B" ∧
      (replaced.foldl act {}).ofFile "A" = arranged [sample "A" 3, sample "A" 1] := by
  have placed : ∀ action ∈ replaced, ∀ diagnostic ∈ action.diagnostics,
      0 ≤ diagnostic.offset := by decide
  have files : (replaced.foldl act {}).files = ["A", "B"] := by decide
  obtain ⟨ofFile, -, -, all, -⟩ := foldl_act_shows replaced placed
  refine ⟨placed, files, ?_, ofFile "A"⟩
  rw [all, files]
  simp

end Ledger

end JavaFront
