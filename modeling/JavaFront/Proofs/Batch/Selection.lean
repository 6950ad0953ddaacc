import JavaFront.Batch
import JavaFront.Proofs.Files.Following
import JavaFront.Proofs.Text.Order
import Mathlib.Data.List.Infix
import Mathlib.Data.List.Sort

/-!
# The files that settings select

A walk that leaves out excluded directories, works on several roots and sorts
what it finds selects exactly the files that the settings describe, each by the
names under which it is reached from a root. Which paths a pattern describes does
not matter for that: the language of patterns is a parameter.
-/

namespace JavaFront

/-! ## Parts of a selection -/

/-- The selection succeeds with just these paths. -/
def Selects {Reason : Type} (selection : Except Reason (List Bytes)) (described : Bytes → Prop) :
    Prop :=
  ∃ paths, selection = .ok paths ∧ ∀ path, path ∈ paths ↔ described path

namespace Selects

variable {Reason : Type} {selection : Except Reason (List Bytes)} {described : Bytes → Prop}

theorem congr (selects : Selects selection described) {other : Bytes → Prop}
    (same : ∀ path, described path ↔ other path) : Selects selection other := by
  obtain ⟨paths, ok, members⟩ := selects
  exact ⟨paths, ok, fun path => (members path).trans (same path)⟩

theorem mapError (selects : Selects selection described) {Other : Type} (wrap : Reason → Other) :
    Selects (selection.mapError wrap) described := by
  obtain ⟨paths, rfl, members⟩ := selects
  exact ⟨paths, rfl, members⟩

theorem concat {Part : Type} {parts : List Part} {select : Part → Except Reason (List Bytes)}
    {described : Part → Bytes → Prop}
    (each : ∀ part ∈ parts, Selects (select part) (described part)) :
    Selects (Selection.concat (parts.map select)) fun path =>
      ∃ part ∈ parts, described part path := by
  induction parts with
  | nil => exact ⟨[], rfl, by simp⟩
  | cons part parts ih =>
      obtain ⟨own, others⟩ := List.forall_mem_cons.mp each
      obtain ⟨paths, ok, members⟩ := own
      obtain ⟨more, rest, memberMore⟩ := ih others
      refine ⟨paths ++ more, ?_, fun path => ?_⟩
      · rw [List.map_cons, Selection.concat, ok, rest]
        rfl
      · simp [members, memberMore]

end Selects

theorem Directory.mem_sorted {entries : Directory} {entry : Bytes × FileTree} :
    entry ∈ Directory.sorted entries ↔ entry ∈ entries :=
  List.mem_mergeSort

theorem error_or_of_bind {Reason Part Whole : Type} {part : Except Reason Part}
    {next : Part → Except Reason Whole} {reason : Reason} (failed : part >>= next = .error reason) :
    part = .error reason ∨ ∃ value, part = .ok value ∧ next value = .error reason := by
  cases part with
  | error own => exact .inl (congrArg Except.error (Except.error.inj failed))
  | ok value => exact .inr ⟨value, rfl, failed⟩

theorem error_of_mapError {Reason Other Whole : Type} {whole : Except Reason Whole}
    {wrap : Reason → Other} {reason : Other} (failed : whole.mapError wrap = .error reason) :
    ∃ own, whole = .error own ∧ wrap own = reason := by
  cases whole with
  | error own => exact ⟨own, rfl, Except.error.inj failed⟩
  | ok value => cases failed

theorem Selection.mem_of_concat_error {Reason : Type} {reason : Reason}
    {selections : List (Except Reason (List Bytes))}
    (failed : Selection.concat selections = .error reason) : .error reason ∈ selections := by
  induction selections with
  | nil => cases failed
  | cons selection selections ih =>
      cases selection with
      | error own =>
          obtain rfl : own = reason := Except.error.inj failed
          exact List.mem_cons_self
      | ok paths =>
          refine List.mem_cons_of_mem _ (ih ?_)
          cases rest : Selection.concat selections with
          | error own => simpa [Selection.concat, rest, bind, Except.bind] using failed
          | ok more => simp [Selection.concat, rest, bind, Except.bind, pure, Except.pure] at failed

/-! ## Below an entry -/

namespace FileTree

variable {globs : Glob.Language} {settings : Settings} {searchable : Bool}
  {relative path reported : Bytes} {entries : Directory} {rights : Rights} {tree : FileTree}

/-- A file below the tree (or the tree itself) is taken in and reported under
this path: an include pattern describes it, and no exclude pattern describes it
or a directory on the way to it. -/
def Takes (tree : FileTree) (globs : Glob.Language) (settings : Settings)
    (relative path reported : Bytes) : Prop :=
  ∃ names found, tree.Reaches names found ∧ found.isDirectory = false ∧
    reported = path ++ Path.trail names ∧
    globs.anyDescribes settings.included (relative ++ Path.trail names) = true ∧
    ∀ front, front <+: names →
      globs.anyDescribes settings.excluded (relative ++ Path.trail front) = false

theorem takes_iff_of_leaf (leaf : tree.isDirectory = false) :
    tree.Takes globs settings relative path reported ↔
      globs.anyDescribes settings.excluded relative = false ∧
        globs.anyDescribes settings.included relative = true ∧ reported = path := by
  constructor
  · rintro ⟨names, found, reached, file, rfl, included, free⟩
    cases reached with
    | here => exact ⟨by simpa using free [] List.nil_prefix, by simpa using included, by simp⟩
    | inside => simp [isDirectory] at leaf
  · rintro ⟨free, included, rfl⟩
    exact ⟨[], tree, .here, leaf, by simp, by simpa using included,
      fun front ahead => by simpa [List.prefix_nil.mp ahead] using free⟩

theorem takes_directory_iff :
    (directory entries rights).Takes globs settings relative path reported ↔
      globs.anyDescribes settings.excluded relative = false ∧
        ∃ entry ∈ entries, entry.2.Takes globs settings (relative ++ Path.slash :: entry.1)
          (path ++ Path.slash :: entry.1) reported := by
  constructor
  · rintro ⟨names, found, reached, file, rfl, included, free⟩
    refine ⟨by simpa using free [] List.nil_prefix, ?_⟩
    cases reached with
    | here => cases file
    | @inside _ _ name names tree _ member below =>
        refine ⟨(name, tree), member, names, found, below, file, by simp, by simpa using included,
          fun front ahead => ?_⟩
        simpa using free (name :: front) (List.cons_prefix_cons.mpr ⟨rfl, ahead⟩)
  · rintro ⟨own, ⟨name, tree⟩, member, names, found, below, file, rfl, included, free⟩
    refine ⟨name :: names, found, .inside member below, file, by simp, by simpa using included,
      fun front ahead => ?_⟩
    cases front with
    | nil => simpa using own
    | cons first front =>
        obtain ⟨rfl, behind⟩ := List.cons_prefix_cons.mp ahead
        simpa using free front behind

theorem gather_selectAll (globs : Glob.Language) (settings : Settings) (searchable : Bool)
    (relative path : Bytes) (entries : Directory) :
    Selection.gather (selectAll globs settings searchable relative path entries) =
      Selection.concat ((Directory.sorted entries).map fun entry =>
        entry.2.select globs settings searchable (relative ++ Path.slash :: entry.1)
          (path ++ Path.slash :: entry.1)) := by
  have mapped : selectAll globs settings searchable relative path entries = entries.map fun entry =>
      (entry.1, entry.2.select globs settings searchable (relative ++ Path.slash :: entry.1)
        (path ++ Path.slash :: entry.1)) := by
    induction entries with
    | nil => rfl
    | cons entry entries ih => simp [selectAll, ih]
  -- Selecting leaves the names alone, so the entries can be put in order beforehand.
  have sorted := List.map_mergeSort (l := entries)
    (r := fun first second => decide (first.1 ≤ second.1)) (s := fun first second =>
      decide (first.1 ≤ second.1)) (f := fun entry =>
        (entry.1, entry.2.select globs settings searchable (relative ++ Path.slash :: entry.1)
          (path ++ Path.slash :: entry.1))) fun _ _ _ _ => rfl
  rw [Selection.gather, mapped, ← sorted, List.map_map]
  rfl

theorem gather_selects
    (each : ∀ entry ∈ entries,
      Selects (entry.2.select globs settings searchable (relative ++ Path.slash :: entry.1)
        (path ++ Path.slash :: entry.1))
        (entry.2.Takes globs settings (relative ++ Path.slash :: entry.1)
          (path ++ Path.slash :: entry.1))) :
    Selects (Selection.gather (selectAll globs settings searchable relative path entries))
      fun reported => ∃ entry ∈ entries, entry.2.Takes globs settings (relative ++ Path.slash :: entry.1)
        (path ++ Path.slash :: entry.1) reported := by
  rw [gather_selectAll]
  have parts := Selects.concat fun entry member => each entry (Directory.mem_sorted.mp member)
  exact parts.congr fun reported => by simp only [Directory.mem_sorted]

theorem select_of_leaf (leaf : tree.isDirectory = false) :
    tree.select globs settings searchable relative path =
      if globs.anyDescribes settings.excluded relative then .ok []
      else if globs.anyDescribes settings.included relative then .ok [path]
      else .ok [] := by
  cases tree with
  | directory => cases leaf
  | file | link => rfl

theorem select_selects_of_leaf (leaf : tree.isDirectory = false) :
    Selects (tree.select globs settings searchable relative path)
      (tree.Takes globs settings relative path) := by
  refine Selects.congr ?_ fun reported => (takes_iff_of_leaf leaf).symm
  rw [select_of_leaf leaf]
  cases excluded : globs.anyDescribes settings.excluded relative with
  | true => exact ⟨[], rfl, by simp⟩
  | false =>
      cases included : globs.anyDescribes settings.included relative with
      | true => exact ⟨[path], rfl, by simp⟩
      | false => exact ⟨[], rfl, by simp⟩

/-- The walk comes into every directory of the tree: it may be opened, its path is
not too long, and names may be looked up in the directory around it. -/
structure IsWalkable (tree : FileTree) (path : Bytes) : Prop where
  opens : ∀ names (inner : Folder), tree.Reaches names inner.tree →
    inner.rights.list = true ∧ (path ++ Path.trail names).length ≤ Disk.longestPath
  searchable : ∀ names (around inner : Folder) name, tree.Reaches names around.tree →
    (name, inner.tree) ∈ around.entries → around.rights.search = true

theorem IsWalkable.inside (walkable : (directory entries rights).IsWalkable path) {name : Bytes}
    (member : (name, tree) ∈ entries) : tree.IsWalkable (path ++ Path.slash :: name) where
  opens names inner reached := by
    simpa using walkable.opens (name :: names) inner (.inside member reached)
  searchable names around inner next reached :=
    walkable.searchable (name :: names) around inner next (.inside member reached)

theorem IsWalkable.search_of_mem (walkable : (directory entries rights).IsWalkable path)
    {name : Bytes} (member : (name, tree) ∈ entries) (directory : tree.isDirectory = true) :
    rights.search = true := by
  cases tree with
  | file | link => cases directory
  | directory inner own =>
      exact walkable.searchable [] ⟨entries, rights⟩ ⟨inner, own⟩ name .here member

/-- The walk below an entry succeeds with just the files to be taken in. -/
theorem select_selects (globs : Glob.Language) (settings : Settings) : (tree : FileTree) →
    (searchable : Bool) → (relative path : Bytes) → tree.IsWalkable path →
    (tree.isDirectory = true → searchable = true) →
    Selects (tree.select globs settings searchable relative path)
      (tree.Takes globs settings relative path)
  | .file _ _, _, _, _, _, _ => select_selects_of_leaf rfl
  | .link _, _, _, _, _, _ => select_selects_of_leaf rfl
  | .directory entries rights, searchable, relative, path, walkable, around => by
      refine Selects.congr ?_ fun reported => takes_directory_iff.symm
      rw [select]
      cases excluded : globs.anyDescribes settings.excluded relative with
      | true => exact ⟨[], rfl, by simp⟩
      | false =>
          obtain ⟨opens, short⟩ := walkable.opens [] ⟨entries, rights⟩ .here
          rw [Path.trail_nil, List.append_nil] at short
          have entered : (searchable && rights.list) = true :=
            Bool.and_eq_true_iff.mpr ⟨around rfl, opens⟩
          rw [if_neg Bool.false_ne_true, if_neg (Nat.not_lt.mpr short), if_pos entered]
          have parts : Selects (Selection.gather
              (selectAll globs settings rights.search relative path entries)) _ :=
            gather_selects fun (name, tree) member =>
              select_selects globs settings tree _ _ _ (walkable.inside member)
                (walkable.search_of_mem member)
          exact parts.congr fun reported => by simp
termination_by tree => sizeOf tree
decreasing_by
  have smaller := List.sizeOf_lt_of_mem member
  simp only [Prod.mk.sizeOf_spec, FileTree.directory.sizeOf_spec] at smaller ⊢
  omega

/-- Below an entry only the length of a path can stop the walk. -/
theorem nameTooLong_of_select {error : AccessError} : (tree : FileTree) → (searchable : Bool) →
    (relative path : Bytes) →
    tree.select globs settings searchable relative path = .error error →
    error.obstacle = .nameTooLong
  | .file _ _, _, _, _, failed | .link _, _, _, _, failed => by
      rw [select_of_leaf rfl] at failed
      split at failed <;> try split at failed
      all_goals cases failed
  | .directory entries rights, searchable, relative, path, failed => by
      rw [select] at failed
      split at failed
      · cases failed
      split at failed
      · exact Except.error.inj failed ▸ rfl
      split at failed
      · rw [gather_selectAll] at failed
        obtain ⟨⟨name, tree⟩, member, own⟩ :=
          List.mem_map.mp (Selection.mem_of_concat_error failed)
        have member := Directory.mem_sorted.mp member
        exact nameTooLong_of_select tree _ _ _ own
      · cases failed
termination_by tree => sizeOf tree
decreasing_by
  have smaller := List.sizeOf_lt_of_mem member
  simp only [Prod.mk.sizeOf_spec, FileTree.directory.sizeOf_spec] at smaller ⊢
  omega

end FileTree

/-! ## Below a root -/

/-- The settings take in the file that is reached from a root by these names: an
include pattern describes its path from the root, and no exclude pattern
describes that path or that of a directory on the way. -/
structure Settings.Describes (settings : Settings) (globs : Glob.Language) (names : List Bytes) :
    Prop where
  included : globs.anyDescribes settings.included (Bytes.join [Path.slash] names) = true
  free : ∀ front, front ≠ [] → front <+: names →
    globs.anyDescribes settings.excluded (Bytes.join [Path.slash] front) = false

instance (settings : Settings) (globs : Glob.Language) (names : List Bytes) :
    Decidable (settings.Describes globs names) :=
  decidable_of_iff
    (globs.anyDescribes settings.included (Bytes.join [Path.slash] names) = true ∧
      ∀ front ∈ names.inits, front ≠ [] →
        globs.anyDescribes settings.excluded (Bytes.join [Path.slash] front) = false)
    ⟨fun ⟨included, free⟩ => ⟨included, fun front filled ahead =>
        free front ((List.mem_inits front names).mpr ahead) filled⟩,
      fun ⟨included, free⟩ => ⟨included, fun front ahead filled =>
        free front filled ((List.mem_inits front names).mp ahead)⟩⟩

namespace Disk

variable {globs : Glob.Language} {disk : Disk} {settings : Settings} {root : Bytes}
  {folder : Folder}

/-- The paths that the settings describe at one root: the root itself if it is no
directory, else the files taken in below it. -/
inductive Describes (disk : Disk) (globs : Glob.Language) (settings : Settings) (root : Bytes) :
    Bytes → Prop where
  | itself {tree : FileTree} (leads : disk.resolve true root = .ok tree)
    (file : tree.isDirectory = false) : Describes disk globs settings root root
  | below {folder : Folder} {names : List Bytes} {found : FileTree}
    (leads : disk.resolve true root = .ok folder.tree)
    (reached : folder.tree.Reaches names found) (file : found.isDirectory = false)
    (described : settings.Describes globs names) :
    Describes disk globs settings root (Path.join root (Bytes.join [Path.slash] names))

/-- The root is a directory, not a link to one, and it and each directory below it
can be listed by its path. -/
structure IsSearchable (disk : Disk) (root : Bytes) (folder : Folder) : Prop where
  itself : disk.resolve false root = .ok folder.tree
  listed : ∃ listed, disk.list root = .ok listed
  readable : ∀ names (inner : Folder), folder.tree.Reaches names inner.tree → names ≠ [] →
    ∃ listed, disk.list (Path.join root (Bytes.join [Path.slash] names)) = .ok listed

/-- What is described at a root directory is taken in below one of its entries. -/
theorem describes_iff_takes (proper : disk.IsProper)
    (leads : disk.resolve true root = .ok folder.tree) (path : Bytes) :
    disk.Describes globs settings root path ↔
      ∃ entry ∈ folder.entries,
        entry.2.Takes globs settings entry.1 (Path.join root entry.1) path := by
  have given : root ≠ [] := (resolve_eq_ok_iff.mp leads).1.2.1
  have properEntries : folder.tree.IsProper := proper.resolve leads
  constructor
  · intro described
    cases described with
    | itself found file =>
        obtain rfl := Except.ok.inj (leads.symm.trans found)
        cases file
    | @below there names _ found reached file described =>
        obtain rfl : folder = there := Folder.tree_inj.mp (Except.ok.inj (leads.symm.trans found))
        have named := reached.isName properEntries
        cases reached with
        | here => cases file
        | @inside _ _ name names tree _ member below =>
            obtain ⟨first, others⟩ := List.forall_mem_cons.mp named
            refine ⟨(name, tree), member, names, _, below, file,
              Path.join_trail given first others, ?_, fun front ahead => ?_⟩
            · rw [← Path.join_cons_trail]
              exact described.included
            · rw [← Path.join_cons_trail]
              exact described.free _ (List.cons_ne_nil _ _)
                (List.cons_prefix_cons.mpr ⟨rfl, ahead⟩)
  · rintro ⟨⟨name, tree⟩, member, names, found, below, file, rfl, included, free⟩
    have reached : folder.tree.Reaches (name :: names) found := .inside member below
    obtain ⟨first, others⟩ := List.forall_mem_cons.mp (reached.isName properEntries)
    rw [← Path.join_trail given first others]
    refine .below leads reached file ⟨?_, fun front filled ahead => ?_⟩
    · rw [Path.join_cons_trail]
      exact included
    · obtain ⟨next, front, rfl⟩ := List.exists_cons_of_ne_nil filled
      obtain ⟨rfl, behind⟩ := List.cons_prefix_cons.mp ahead
      rw [Path.join_cons_trail]
      exact free front behind

theorem selectRoot_of_directory (itself : disk.resolve false root = .ok folder.tree)
    (opens : folder.rights.list = true) (globs : Glob.Language) (settings : Settings) :
    disk.selectRoot settings root globs =
      (disk.selectBelow settings root folder.sorted.entries globs).mapError
        (Batch.Error.walk root) := by
  have leads := resolve_true itself
  have listed : disk.list root = .ok folder.sorted := list_eq_ok_iff.mpr ⟨_, leads, opens, rfl⟩
  simp only [selectRoot, examine, leads, itself, visit_eq_ok listed]
  rfl

section Searching

variable (proper : disk.IsProper) (searchable : disk.IsSearchable root folder)
  (cleaned : disk.resolve true (Path.clean root) = .ok folder.tree)
include proper searchable cleaned

/-- A directory below a root is listed by the path under which it is reported, and
its names are looked up there if there are directories among them. -/
theorem list_of_reaches {name : Bytes} {tree : FileTree} (member : (name, tree) ∈ folder.entries)
    {names : List Bytes} {inner : Folder} (reached : tree.Reaches names inner.tree) :
    disk.list (Path.join root name ++ Path.trail names) = .ok inner.sorted ∧
      inner.rights.list = true ∧
      (Path.join root name ++ Path.trail names).length ≤ longestPath ∧
      ∀ next (further : Folder), (next, further.tree) ∈ inner.entries →
        inner.rights.search = true := by
  have leads := resolve_true searchable.itself
  have given : root ≠ [] := (resolve_eq_ok_iff.mp leads).1.2.1
  have inside : folder.tree.Reaches (name :: names) inner.tree := .inside member reached
  obtain ⟨first, others⟩ := List.forall_mem_cons.mp (inside.isName (proper.resolve leads))
  obtain ⟨listed, found⟩ := searchable.readable _ _ inside (List.cons_ne_nil name names)
  obtain ⟨rfl, opens, short⟩ :=
    list_below given cleaned proper inside (List.cons_ne_nil name names) found
  rw [Path.join_trail given first others] at found short
  refine ⟨found, opens, short, fun next further memberFurther => ?_⟩
  obtain ⟨_, foundFurther⟩ := searchable.readable _ _
    (inside.append (.inside memberFurther .here)) (by simp)
  exact search_below given cleaned proper inside memberFurther foundFurther

theorem isWalkable_of_mem {name : Bytes} {tree : FileTree}
    (member : (name, tree) ∈ folder.entries) : tree.IsWalkable (Path.join root name) where
  opens _ _ reached :=
    have ⟨_, opens, short, _⟩ := list_of_reaches proper searchable cleaned member reached
    ⟨opens, short⟩
  searchable _ _ further next reached memberFurther :=
    have ⟨_, _, _, search⟩ := list_of_reaches proper searchable cleaned member reached
    search next further memberFurther

theorem selectEntry_selects (globs : Glob.Language) (settings : Settings) {name : Bytes}
    {tree : FileTree} (member : (name, tree) ∈ folder.entries) :
    Selects (disk.selectEntry settings root name tree globs)
      (tree.Takes globs settings name (Path.join root name)) := by
  cases tree with
  | file | link => exact FileTree.select_selects_of_leaf rfl
  | directory entries rights =>
      refine Selects.congr ?_ fun path => FileTree.takes_directory_iff.symm
      rw [selectEntry]
      cases excluded : globs.anyDescribes settings.excluded name with
      | true => exact ⟨[], rfl, by simp⟩
      | false =>
          have walkable := isWalkable_of_mem proper searchable cleaned member
          have here : (FileTree.directory entries rights).Reaches []
              (Folder.tree ⟨entries, rights⟩) := .here
          have listed := (list_of_reaches proper searchable cleaned member here).1
          rw [Path.trail_nil, List.append_nil] at listed
          rw [if_neg Bool.false_ne_true, visit_eq_ok listed]
          have parts : Selects (Selection.gather (FileTree.selectAll globs settings rights.search
              name (Path.join root name) (Directory.sorted entries))) _ :=
            FileTree.gather_selects fun (next, tree) found =>
              have below := Directory.mem_sorted.mp found
              FileTree.select_selects globs settings tree _ _ _ (walkable.inside below)
                (walkable.search_of_mem below)
          exact parts.congr fun path => by simp [Directory.mem_sorted]

/-- A root directory yields just the files that are described at it. -/
theorem selectRoot_selects_of_directory (globs : Glob.Language) (settings : Settings) :
    Selects (disk.selectRoot settings root globs) (disk.Describes globs settings root) := by
  have leads := resolve_true searchable.itself
  obtain ⟨_, listed⟩ := searchable.listed
  obtain ⟨there, found, opens, -⟩ := list_eq_ok_iff.mp listed
  obtain rfl : folder = there := Folder.tree_inj.mp (Except.ok.inj (leads.symm.trans found))
  refine Selects.congr ?_ fun path => (describes_iff_takes proper leads path).symm
  have parts : Selects (disk.selectBelow settings root folder.sorted.entries globs) fun path =>
      ∃ entry ∈ folder.sorted.entries,
        entry.2.Takes globs settings entry.1 (Path.join root entry.1) path :=
    Selects.concat fun entry member => selectEntry_selects proper searchable cleaned globs settings
      (Directory.mem_sorted.mp member)
  have whole := parts.mapError (Batch.Error.walk root)
  simp only [Folder.sorted, Directory.mem_sorted] at whole
  rwa [selectRoot_of_directory searchable.itself opens]

end Searching

/-- A root that is no directory is selected as it is given. -/
theorem selectRoot_selects_of_file {tree : FileTree} (leads : disk.resolve true root = .ok tree)
    (file : tree.isDirectory = false) (globs : Glob.Language) (settings : Settings) :
    Selects (disk.selectRoot settings root globs) (disk.Describes globs settings root) := by
  refine ⟨[root], ?_, fun path => ⟨fun member => ?_, fun described => ?_⟩⟩
  · simp only [selectRoot, examine, leads]
    cases tree with
    | directory => cases file
    | file | link => rfl
  · obtain rfl := List.mem_singleton.mp member
    exact .itself leads file
  · cases described with
    | itself => exact List.mem_singleton_self root
    | below found =>
        obtain rfl := Except.ok.inj (leads.symm.trans found)
        cases file

/-! ## The whole selection -/

/-- The root is there and is no directory. -/
def IsFile (disk : Disk) (root : Bytes) : Prop :=
  ∃ tree, disk.resolve true root = .ok tree ∧ tree.isDirectory = false

theorem describes_with_roots {path : Bytes} (roots : List Bytes) :
    disk.Describes globs { settings with roots } root path ↔
      disk.Describes globs settings root path := by
  constructor
  · rintro (⟨leads, file⟩ | ⟨leads, reached, file, included, free⟩)
    · exact .itself leads file
    · exact .below leads reached file ⟨included, free⟩
  · rintro (⟨leads, file⟩ | ⟨leads, reached, file, included, free⟩)
    · exact .itself leads file
    · exact .below leads reached file ⟨included, free⟩

theorem select_sorted {paths : List Bytes} (selected : disk.select settings globs = .ok paths) :
    paths.Pairwise (· < ·) := by
  simp only [select] at selected
  cases roots : disk.selectRoots settings settings.roots globs with
  | error error => simp [roots, Except.map] at selected
  | ok found =>
      obtain rfl : Bytes.distinct (Bytes.sort found) = paths := by
        simpa [roots, Except.map] using selected
      exact Bytes.distinct_sorted (Bytes.sort_sorted found)

theorem select_selects {described : Bytes → Bytes → Prop}
    (each : ∀ root ∈ settings.roots,
      Selects (disk.selectRoot settings root globs) (described root)) :
    Selects (disk.select settings globs) fun path =>
      ∃ root ∈ settings.roots, described root path := by
  obtain ⟨paths, found, members⟩ := Selects.concat each
  refine ⟨Bytes.distinct (Bytes.sort paths), ?_, fun path => ?_⟩
  · rw [select, selectRoots, found]
    rfl
  · rw [Bytes.mem_distinct, Bytes.sort, List.mem_mergeSort, members]

/-- A selection is determined by its members. -/
theorem select_eq_ok {described : Bytes → Prop}
    (selects : Selects (disk.select settings globs) described)
    {paths : List Bytes} (sorted : paths.Pairwise (· < ·))
    (members : ∀ path, path ∈ paths ↔ described path) : disk.select settings globs = .ok paths := by
  obtain ⟨found, selected, memberFound⟩ := selects
  rw [selected, (select_sorted selected).eq_of_mem_iff sorted fun path =>
    (memberFound path).trans (members path).symm]

/-- The selection from a single root. -/
theorem select_of_root (only : settings.roots = [root]) {paths : List Bytes}
    (found : disk.selectRoot settings root globs = .ok paths) (sorted : paths.Pairwise (· < ·)) :
    disk.select settings globs = .ok paths := by
  have each : ∀ given ∈ settings.roots,
      Selects (disk.selectRoot settings given globs) (· ∈ paths) := by
    rw [only]
    exact List.forall_mem_singleton.mpr ⟨paths, found, fun _ => .rfl⟩
  exact select_eq_ok (select_selects each) sorted fun path => by simp [only]

/-- Where every root is a file or a directory that can be searched, and every
root directory is also found under its clean spelling, just the described paths
are selected, in strict order. Neither the order of the roots nor how often one
is given matters. -/
theorem select_exact (globs : Glob.Language) (disk : Disk) (settings : Settings)
    (proper : disk.IsProper)
    (exist : ∀ root ∈ settings.roots, disk.IsFile root ∨ ∃ folder, disk.IsSearchable root folder)
    (cleaned : ∀ root ∈ settings.roots, ∀ folder, disk.IsSearchable root folder →
      disk.resolve true (Path.clean root) = .ok folder.tree) :
    ∃ paths, disk.select settings globs = .ok paths ∧ paths.Pairwise (· < ·) ∧
      (∀ path, path ∈ paths ↔ ∃ root ∈ settings.roots, disk.Describes globs settings root path) ∧
      ∀ roots, (∀ root, root ∈ roots ↔ root ∈ settings.roots) →
        disk.select { settings with roots } globs = .ok paths := by
  -- For other lists of roots too: what a root yields depends on the patterns only.
  have each (patterns : Settings) : ∀ root ∈ settings.roots,
      Selects (disk.selectRoot patterns root globs) (disk.Describes globs patterns root) := by
    intro root given
    obtain ⟨tree, leads, file⟩ | ⟨folder, searchable⟩ := exist root given
    · exact selectRoot_selects_of_file leads file globs patterns
    · exact selectRoot_selects_of_directory proper searchable
        (cleaned root given folder searchable) globs patterns
  obtain ⟨paths, selected, members⟩ := select_selects (each settings)
  refine ⟨paths, selected, select_sorted selected, members, fun roots same => ?_⟩
  refine select_eq_ok (select_selects fun root given => each _ root ((same root).mp given))
    (select_sorted selected) fun path => ?_
  simp only [members, same, describes_with_roots]

/-- A directory with sources, generated ones among them. -/
def sources : Directory :=
  [("A.java", .file ""), ("gen", .directory [("G.java", .file "")]),
    ("sub", .directory [("B.java", .file "")])]

/-- The sources and a file beside them. -/
def project : Disk where
  entries := [("One.java", .file ""), ("src", .directory sources)]

/-- Both of them as roots, one given twice, without the generated sources. -/
def handwritten : Settings where
  roots := ["src", "One.java", "src"]
  excluded := ["gen"]

theorem project_isSearchable : project.IsSearchable "src" sources where
  itself := rfl
  listed := ⟨_, rfl⟩
  readable := by
    rintro names ⟨inner, rights⟩ reached below
    cases reached with
    | here => exact absurd rfl below
    | inside member further =>
        simp only [sources, List.mem_cons, Prod.mk.injEq, List.not_mem_nil, or_false] at member
        obtain ⟨rfl, rfl⟩ | ⟨rfl, rfl⟩ | ⟨rfl, rfl⟩ := member
        · cases further
        all_goals
          cases further with
          | here => exact ⟨_, rfl⟩
          | inside member further =>
              obtain ⟨rfl, rfl⟩ := Prod.mk.inj (List.mem_singleton.mp member)
              cases further

theorem select_exact_project :
    project.IsProper ∧
      (∀ root ∈ handwritten.roots,
        project.IsFile root ∨ ∃ folder, project.IsSearchable root folder) ∧
      (∀ root ∈ handwritten.roots, ∀ folder, project.IsSearchable root folder →
        project.resolve true (Path.clean root) = .ok folder.tree) ∧
      ∃ paths, project.select handwritten = .ok paths ∧ paths.Pairwise (· < ·) ∧
        ("One.java" : Bytes) ∈ paths ∧ ("src/sub/B.java" : Bytes) ∈ paths ∧
        project.select { handwritten with roots := ["One.java", "src"] } = .ok paths := by
  have proper : project.IsProper := by decide
  have exist : ∀ root ∈ handwritten.roots,
      project.IsFile root ∨ ∃ folder, project.IsSearchable root folder := by
    simp only [handwritten, List.forall_mem_cons]
    have directory : ∃ folder, project.IsSearchable "src" folder :=
      ⟨sources, project_isSearchable⟩
    exact ⟨.inr directory, .inl ⟨.file "", rfl, rfl⟩, .inr directory, by simp⟩
  have cleaned : ∀ root ∈ handwritten.roots, ∀ folder, project.IsSearchable root folder →
      project.resolve true (Path.clean root) = .ok folder.tree := by
    intro root given folder searchable
    have clean : ∀ root ∈ handwritten.roots, Path.clean root = root := by decide
    rw [clean root given]
    exact resolve_true searchable.itself
  obtain ⟨paths, selected, sorted, members, reordered⟩ :=
    select_exact Glob.language project handwritten proper exist cleaned
  have file : project.Describes Glob.language handwritten "One.java" "One.java" := by
    have leads : project.resolve true "One.java" = .ok (.file "") := rfl
    exact .itself leads rfl
  have inner : project.Describes Glob.language handwritten "src" "src/sub/B.java" := by
    have leads : project.resolve true "src" = .ok (Folder.tree sources) := rfl
    have reached : (Folder.tree sources).Reaches ["sub", "B.java"] (.file "") :=
      .inside (.tail _ (.tail _ (.head _))) (.inside (.head _) .here)
    exact .below leads reached rfl (by decide +kernel)
  exact ⟨proper, exist, cleaned, paths, selected, sorted,
    (members _).mpr ⟨"One.java", by decide, file⟩, (members _).mpr ⟨"src", by decide, inner⟩,
    reordered _ fun root => by simp [handwritten]; tauto⟩

/-- Two directories of one name, and a link whose target lies in the directory of
one of them. -/
def crooked : Disk where
  entries := [("d", .directory [("e", .directory [("g.java", .file "")])]),
    ("e", .directory [("h.java", .file "")]), ("l", .link "d/e")]

/-- What lies above the target of the link. -/
def upward : Settings where
  roots := ["l/.."]

/-- Without its clean spelling a root directory may be searched in another place:
behind a link, a step up leads from its target, but is taken back by name when
the path of an entry is spelled. -/
theorem select_crooked :
    crooked.IsProper ∧
      crooked.IsSearchable "l/.." { entries := [("e", .directory [("g.java", .file "")])] } ∧
      crooked.Describes Glob.language upward "l/.." "e/g.java" ∧
      crooked.select upward = .ok ["e/h.java"] := by
  have proper : crooked.IsProper := by decide
  have leads : crooked.resolve true "l/.." =
      .ok (Folder.tree { entries := [("e", .directory [("g.java", .file "")])] }) := rfl
  refine ⟨proper, ⟨leads, ⟨_, rfl⟩, fun names ⟨inner, rights⟩ reached below => ?_⟩, ?_, ?_⟩
  · cases reached with
    | here => exact absurd rfl below
    | inside member further =>
        obtain ⟨rfl, rfl⟩ := Prod.mk.inj (List.mem_singleton.mp member)
        cases further with
        | here => exact ⟨_, rfl⟩
        | inside member further =>
            obtain ⟨rfl, rfl⟩ := Prod.mk.inj (List.mem_singleton.mp member)
            cases further
  · have reached : (FileTree.directory [("e", .directory [("g.java", .file "")])]).Reaches
        ["e", "g.java"] (.file "") := .inside (.head _) (.inside (.head _) .here)
    exact .below leads reached rfl (by decide +kernel)
  · have sorted {entry : Bytes × FileTree} : Directory.sorted [entry] = [entry] :=
      List.mergeSort_singleton entry
    have inner : crooked.list "e" =
        .ok { entries := Directory.sorted [("h.java", .file "")] } := rfl
    have entry : crooked.selectEntry upward "l/.." "e" (.directory [("g.java", .file "")]) =
        .ok ["e/h.java"] := by
      have walked := visit_eq_ok inner
      rw [sorted] at walked
      change (do
        let folder ← crooked.visit "e"
        Selection.gather (FileTree.selectAll Glob.language upward folder.rights.search "e" "e"
          folder.entries)) = _
      rw [walked]
      change Selection.gather _ = _
      rw [FileTree.gather_selectAll, sorted]
      decide +kernel
    refine select_of_root rfl ?_ (List.pairwise_singleton _ _)
    rw [selectRoot_of_directory leads rfl, Folder.sorted, sorted, selectBelow, List.map_singleton,
      entry]
    rfl

/-! ## What may not be opened -/

variable {error : AccessError}

theorem visit_error {path : Bytes} (failed : disk.visit path = .error error) :
    error.obstacle ≠ .denied := by
  rw [visit] at failed
  split at failed
  · cases failed
  · next listed open_ =>
    rintro denied
    obtain ⟨access, place, obstacle⟩ := error
    exact open_ access place (denied ▸ failed)

theorem selectEntry_error {name : Bytes} {tree : FileTree}
    (failed : disk.selectEntry settings root name tree globs = .error error) :
    error.obstacle ≠ .denied := by
  cases tree with
  | file | link => simp [FileTree.nameTooLong_of_select _ _ _ _ failed]
  | directory entries rights =>
      rw [selectEntry] at failed
      split at failed
      · cases failed
      obtain visited | ⟨folder, -, below⟩ := error_or_of_bind failed
      · exact visit_error visited
      · rw [FileTree.gather_selectAll] at below
        obtain ⟨entry, -, own⟩ := List.mem_map.mp (Selection.mem_of_concat_error below)
        simp [FileTree.nameTooLong_of_select _ _ _ _ own]

theorem selectRoot_error {given : Bytes}
    (failed : disk.selectRoot settings given globs = .error (.walk root error)) :
    error.obstacle ≠ .denied := by
  rw [selectRoot] at failed
  obtain looked | ⟨tree, -, walked⟩ := error_or_of_bind failed
  · obtain ⟨_, -, wrapped⟩ := error_of_mapError looked
    cases wrapped
  · split at walked
    · split at walked
      · obtain ⟨own, stopped, wrapped⟩ := error_of_mapError walked
        obtain ⟨rfl, rfl⟩ := Batch.Error.walk.inj wrapped
        obtain visited | ⟨folder, -, below⟩ := error_or_of_bind stopped
        · exact visit_error visited
        · obtain ⟨entry, -, own⟩ := List.mem_map.mp (Selection.mem_of_concat_error below)
          exact selectEntry_error own
      · cases walked
    · cases walked

/-- A walk is never stopped by what may not be opened. -/
theorem select_walk_error (failed : disk.select settings globs = .error (.walk root error)) :
    error.obstacle ≠ .denied := by
  rw [select, selectRoots] at failed
  cases roots : Selection.concat
      (settings.roots.map fun root => disk.selectRoot settings root globs) with
  | ok paths => simp [roots, Except.map] at failed
  | error reason =>
      obtain rfl : reason = .walk root error := by simpa [roots, Except.map] using failed
      obtain ⟨given, -, own⟩ := List.mem_map.mp (Selection.mem_of_concat_error roots)
      exact selectRoot_error own

end Disk

end JavaFront
