import JavaFront.Proofs.Batch.Selection

/-!
# Roots behind links

A directory has the same files below it whatever path leads to it. A root
through which a link leads, or one that ends in a slash behind a link, is
therefore searched like the directory itself. A root that is a link is not: it
counts as a directory when it is looked at and as a file when it is walked, and
no file is selected.
-/

namespace JavaFront

/-- The settings take in a file below the directory under this path from it. -/
def Settings.TakesIn (settings : Settings) (globs : Glob.Language) (folder : Folder)
    (relative : Bytes) : Prop :=
  ∃ names found, folder.tree.Reaches names found ∧ found.isDirectory = false ∧
    settings.Describes globs names ∧ relative = Bytes.join [Path.slash] names

namespace Disk

variable {globs : Glob.Language} {disk : Disk} {settings : Settings} {root relative : Bytes}
  {folder : Folder} {relatives : List Bytes}

/-! ## Paths from a root -/

theorem describes_iff_takesIn (leads : disk.resolve true root = .ok folder.tree)
    (path : Bytes) :
    disk.Describes globs settings root path ↔
      ∃ relative, settings.TakesIn globs folder relative ∧ path = Path.join root relative := by
  constructor
  · intro described
    cases described with
    | itself found file =>
        obtain rfl := Except.ok.inj (leads.symm.trans found)
        cases file
    | @below there _ _ found reached file described =>
        obtain rfl : folder = there := Folder.tree_inj.mp (Except.ok.inj (leads.symm.trans found))
        exact ⟨_, ⟨_, _, reached, file, described, rfl⟩, rfl⟩
  · rintro ⟨_, ⟨names, found, reached, file, described, rfl⟩, rfl⟩
    exact .below leads reached file described

/-- The paths of all files below a root differ only behind the same lead. -/
theorem join_of_takesIn (proper : disk.IsProper)
    (leads : disk.resolve true root = .ok folder.tree)
    (taken : settings.TakesIn globs folder relative) :
    Path.join root relative = Path.lead root ++ relative := by
  obtain ⟨names, found, reached, file, -, rfl⟩ := taken
  refine Path.join_lead (resolve_eq_ok_iff.mp leads).1.2.1
    (reached.isName (proper.resolve leads)) ?_
  rintro rfl
  cases reached
  cases file

section Searching

variable (proper : disk.IsProper) (searchable : disk.IsSearchable root folder)
  (cleaned : disk.resolve true (Path.clean root) = .ok folder.tree)
include proper searchable cleaned

theorem exists_relatives (globs : Glob.Language) (settings : Settings) :
    ∃ relatives : List Bytes, relatives.Pairwise (· < ·) ∧
      ∀ relative, relative ∈ relatives ↔ settings.TakesIn globs folder relative := by
  have leads := resolve_true searchable.itself
  obtain ⟨paths, -, members⟩ :=
    selectRoot_selects_of_directory proper searchable cleaned globs settings
  refine ⟨Bytes.distinct (Bytes.sort (paths.map (List.drop (Path.lead root).length))),
    Bytes.distinct_sorted (Bytes.sort_sorted _), fun relative => ?_⟩
  rw [Bytes.mem_distinct, Bytes.sort, List.mem_mergeSort, List.mem_map]
  constructor
  · rintro ⟨path, member, rfl⟩
    obtain ⟨relative, taken, rfl⟩ :=
      (describes_iff_takesIn leads path).mp ((members path).mp member)
    rwa [join_of_takesIn proper leads taken, List.drop_left]
  · intro taken
    refine ⟨Path.join root relative, (members _).mpr ((describes_iff_takesIn leads _).mpr
      ⟨relative, taken, rfl⟩), ?_⟩
    rw [join_of_takesIn proper leads taken, List.drop_left]

/-- A root directory yields the files below it in the order of their paths from it. -/
theorem select_of_relatives (sorted : relatives.Pairwise (· < ·))
    (members : ∀ relative, relative ∈ relatives ↔ settings.TakesIn globs folder relative) :
    disk.select { settings with roots := [root] } globs = .ok (relatives.map (Path.join root)) := by
  have leads := resolve_true searchable.itself
  have each : ∀ given ∈ [root],
      Selects (disk.selectRoot { settings with roots := [root] } given globs)
        (disk.Describes globs { settings with roots := [root] } given) :=
    List.forall_mem_singleton.mpr
      (selectRoot_selects_of_directory proper searchable cleaned globs _)
  refine select_eq_ok (select_selects each) ?_ fun path => ?_
  · refine List.pairwise_map.mpr (sorted.imp_of_mem fun {first second} left right before => ?_)
    rw [join_of_takesIn proper leads ((members first).mp left),
      join_of_takesIn proper leads ((members second).mp right)]
    exact List.append_left_lt before
  · simp only [List.mem_singleton, exists_eq_left, describes_with_roots,
      describes_iff_takesIn leads, List.mem_map, members]
    exact exists_congr fun _ => and_congr_right fun _ => eq_comm

end Searching

/-! ## Links as roots -/

theorem selectRoot_link {target : Bytes} (leads : disk.resolve true root = .ok folder.tree)
    (link : disk.resolve false root = .ok (.link target)) (globs : Glob.Language)
    (settings : Settings) : disk.selectRoot settings root globs = .ok [] := by
  simp only [selectRoot, examine, leads, link]
  rfl

/-- All paths that lead to a directory yield the same files, under the same paths
from it, unless the path itself is a link: then it yields none. -/
theorem select_linked (globs : Glob.Language) (disk : Disk) (settings : Settings) {folder : Folder}
    {directory : Bytes} (proper : disk.IsProper) (searchable : disk.IsSearchable directory folder)
    (cleaned : disk.resolve true (Path.clean directory) = .ok folder.tree) :
    ∃ relatives : List Bytes,
      (∀ relative, relative ∈ relatives ↔ settings.TakesIn globs folder relative) ∧
      disk.select { settings with roots := [directory] } globs =
        .ok (relatives.map (Path.join directory)) ∧
      ∀ root, disk.resolve true root = .ok folder.tree →
        (disk.IsSearchable root folder →
          disk.resolve true (Path.clean root) = .ok folder.tree →
            disk.select { settings with roots := [root] } globs =
              .ok (relatives.map (Path.join root))) ∧
        ∀ target, disk.resolve false root = .ok (.link target) →
          disk.select { settings with roots := [root] } globs = .ok [] := by
  obtain ⟨relatives, sorted, members⟩ := exists_relatives proper searchable cleaned globs settings
  refine ⟨relatives, members, select_of_relatives proper searchable cleaned sorted members,
    fun root leads => ⟨fun searchable cleaned =>
      select_of_relatives proper searchable cleaned sorted members, fun target link => ?_⟩⟩
  exact select_of_root rfl (selectRoot_link leads link globs _) .nil

/-- A directory with one source. -/
def single : Directory :=
  [("A.java", .file "")]

/-- The directory and a link to it. -/
def linked : Disk where
  entries := [("d", .directory single), ("l", .link "d")]

theorem linked_isSearchable {root : Bytes}
    (itself : linked.resolve false root = .ok (Folder.tree single)) :
    linked.IsSearchable root single where
  itself := itself
  listed := ⟨_, list_eq_ok_iff.mpr ⟨_, resolve_true itself, rfl, rfl⟩⟩
  readable := by
    rintro names ⟨inner, rights⟩ reached below
    cases reached with
    | here => exact absurd rfl below
    | inside member further =>
        obtain ⟨rfl, rfl⟩ := Prod.mk.inj (List.mem_singleton.mp member)
        cases further

theorem select_linked_slash :
    linked.IsProper ∧ linked.IsSearchable "d" single ∧
      linked.resolve true (Path.clean "d") = .ok (Folder.tree single) ∧
      ∃ relatives : List Bytes, ("A.java" : Bytes) ∈ relatives ∧
        linked.select { roots := ["d"] } = .ok (relatives.map (Path.join "d")) ∧
        linked.select { roots := ["l/"] } = .ok (relatives.map (Path.join "l/")) ∧
        linked.select { roots := ["l"] } = .ok [] := by
  have proper : linked.IsProper := by decide
  have searchable : linked.IsSearchable "d" single := linked_isSearchable rfl
  have cleaned : linked.resolve true (Path.clean "d") = .ok (Folder.tree single) :=
    rfl
  obtain ⟨relatives, members, selected, others⟩ :=
    select_linked Glob.language linked {} proper searchable cleaned
  have taken : Settings.TakesIn {} Glob.language single "A.java" :=
    ⟨["A.java"], .file "", .inside (.head _) .here, rfl, by decide +kernel, rfl⟩
  exact ⟨proper, searchable, cleaned, relatives, (members _).mpr taken, selected,
    (others "l/" rfl).1 (linked_isSearchable rfl) rfl, (others "l" rfl).2 "d" rfl⟩

/-- The file below a directory is selected when the directory is given, and missed
when a link to the directory is. -/
theorem select_link_misses :
    linked.IsProper ∧ linked.IsSearchable "d" single ∧
      linked.resolve false "l" = .ok (.link "d") ∧
      linked.resolve true "l" = .ok (Folder.tree single) ∧
      linked.select { roots := ["d"] } = .ok ["d/A.java"] ∧
      linked.select { roots := ["l"] } = .ok [] := by
  have itself : linked.resolve false "d" = .ok (Folder.tree single) := rfl
  have link : linked.resolve false "l" = .ok (.link "d") := rfl
  have leads : linked.resolve true "l" = .ok (Folder.tree single) := rfl
  refine ⟨by decide, linked_isSearchable itself, link, leads,
    select_of_root rfl ?_ (List.pairwise_singleton _ _),
    select_of_root rfl (selectRoot_link leads link _ _) .nil⟩
  have sorted : Directory.sorted single = single := List.mergeSort_singleton _
  rw [selectRoot_of_directory itself rfl, Folder.sorted, sorted]
  decide +kernel

end Disk

end JavaFront
