import JavaFront.Files
import JavaFront.Proofs.Files.Paths

/-!
# Following paths

On a proper disk every entry of a directory has a name of its own. From a
directory to which a path leads, its entries are reached by adding their names
to the path, whatever links the path goes through, as far as they may be looked
up.
-/

namespace JavaFront

/-! ## Proper trees -/

mutual

/-- Every directory of the tree gives each of its entries a name of its own. -/
def FileTree.IsProper : FileTree → Prop
  | .directory entries _ => FileTree.AllProper entries
  | _ => True

/-- The entries have names of their own and are proper themselves. -/
def FileTree.AllProper : List (Bytes × FileTree) → Prop
  | [] => True
  | (name, tree) :: entries =>
    (Path.IsName name ∧ ∀ entry ∈ entries, entry.1 ≠ name) ∧ tree.IsProper ∧
      FileTree.AllProper entries

end

mutual

instance FileTree.decidableIsProper : (tree : FileTree) → Decidable tree.IsProper
  | .directory entries _ => FileTree.decidableAllProper entries
  | .file _ _ => inferInstanceAs (Decidable True)
  | .link _ => inferInstanceAs (Decidable True)

instance FileTree.decidableAllProper : (entries : List (Bytes × FileTree)) →
    Decidable (FileTree.AllProper entries)
  | [] => inferInstanceAs (Decidable True)
  | (name, tree) :: entries =>
    have := tree.decidableIsProper
    have := FileTree.decidableAllProper entries
    inferInstanceAs (Decidable ((Path.IsName name ∧ ∀ entry ∈ entries, entry.1 ≠ name) ∧
      tree.IsProper ∧ FileTree.AllProper entries))

end

theorem Folder.tree_inj {first second : Folder} : first.tree = second.tree ↔ first = second := by
  simp [Folder.ext_iff]

namespace FileTree

/-- Going down from a tree by names, from directory to entry. -/
inductive Reaches : FileTree → List Bytes → FileTree → Prop where
  | here {tree : FileTree} : Reaches tree [] tree
  | inside {entries : Directory} {rights : Rights} {name : Bytes} {names : List Bytes}
    {tree found : FileTree} (member : (name, tree) ∈ entries)
    (below : Reaches tree names found) :
    Reaches (.directory entries rights) (name :: names) found

/-- The tree is a directory. -/
def isDirectory : FileTree → Bool
  | .directory _ _ => true
  | _ => false

variable {entries : Directory} {name : Bytes} {tree : FileTree}

theorem AllProper.of_mem (proper : AllProper entries) (member : (name, tree) ∈ entries) :
    Path.IsName name ∧ tree.IsProper ∧ Directory.get? entries name = some tree := by
  induction entries with
  | nil => cases member
  | cons first entries ih =>
      obtain ⟨⟨named, distinct⟩, own, others⟩ := proper
      rcases List.mem_cons.mp member with rfl | behind
      · exact ⟨named, own, by simp [Directory.get?]⟩
      · obtain ⟨properName, properTree, found⟩ := ih others behind
        have different : first.1 ≠ name := (distinct _ behind).symm
        exact ⟨properName, properTree, by simpa [Directory.get?, different] using found⟩

theorem mem_of_get? (found : Directory.get? entries name = some tree) : (name, tree) ∈ entries := by
  obtain ⟨⟨own, _⟩, find, rfl⟩ := Option.map_eq_some_iff.mp found
  obtain rfl : own = name := by simpa using List.find?_some find
  exact List.mem_of_find?_eq_some find

/-- Whatever leads to a directory starts at one. -/
theorem Reaches.start_directory {names : List Bytes} {inner : Folder}
    (reached : tree.Reaches names inner.tree) : ∃ folder : Folder, tree = folder.tree := by
  cases reached with
  | here => exact ⟨inner, rfl⟩
  | @inside entries rights => exact ⟨⟨entries, rights⟩, rfl⟩

theorem Reaches.eq_of_nil {found : FileTree} (reached : tree.Reaches [] found) : found = tree := by
  cases reached
  rfl

theorem Reaches.append {names more : List Bytes} {found inner : FileTree}
    (reached : tree.Reaches names found) (further : found.Reaches more inner) :
    tree.Reaches (names ++ more) inner := by
  induction reached with
  | here => exact further
  | inside member _ ih => exact .inside member (ih further)

theorem Reaches.isName {names : List Bytes} {found : FileTree} (reached : tree.Reaches names found)
    (proper : tree.IsProper) : ∀ name ∈ names, Path.IsName name := by
  induction reached with
  | here => simp
  | inside member _ ih =>
      obtain ⟨named, own, -⟩ := AllProper.of_mem proper member
      exact List.forall_mem_cons.mpr ⟨named, ih own⟩

end FileTree

namespace Disk

/-- The directory and all directories above it are proper. -/
def IsProper (disk : Disk) : Prop :=
  ∀ folder ∈ disk.toFolder :: disk.above, FileTree.AllProper folder.entries

instance (disk : Disk) : Decidable disk.IsProper :=
  inferInstanceAs
    (Decidable (∀ folder ∈ disk.toFolder :: disk.above, FileTree.AllProper folder.entries))

variable {disk spot : Disk} {last : Bool} {links : Nat} {names : List Bytes} {tree : FileTree}
  {folder : Folder}

namespace IsProper

theorem parent (proper : disk.IsProper) : disk.parent.IsProper := by
  obtain ⟨folder, above⟩ := disk
  cases above with
  | nil => exact proper
  | cons => exact (List.forall_mem_cons.mp proper).2

theorem top (proper : disk.IsProper) : disk.top.IsProper := by
  obtain ⟨folder, above⟩ := disk
  refine List.forall_mem_singleton.mpr (proper _ ?_)
  rcases List.eq_nil_or_concat above with rfl | ⟨between, highest, rfl⟩
  · exact List.mem_cons_self
  · simp [Disk.top]

theorem enter (proper : disk.IsProper) (inner : FileTree.AllProper folder.entries) :
    (disk.enter folder).IsProper :=
  List.forall_mem_cons.mpr ⟨inner, proper⟩

end IsProper

/-! ## One stretch without links -/

/-- What one name can do: lead on, lead nowhere, or be that of a file or link. -/
theorem pass_cons_cases (disk : Disk) (name : Bytes) :
    (∃ next : Disk, (disk.IsProper → next.IsProper) ∧
      ∀ last rest, disk.pass last (name :: rest) = next.pass last rest) ∨
    (∃ obstacle, ∀ last rest, disk.pass last (name :: rest) = .blocked obstacle) ∨
    (∃ content readable, ∀ last rest, disk.pass last (name :: rest) =
      if rest.isEmpty then .arrived (.file content readable) else .blocked .notDirectory) ∨
    ∃ target, ∀ last rest, disk.pass last (name :: rest) =
      if rest.isEmpty && !last then .arrived (.link target) else .detour disk target rest := by
  by_cases empty : name.isEmpty = true
  · exact .inl ⟨disk, id, fun last rest => by rw [pass, if_pos empty]⟩
  by_cases closed : (!disk.rights.search) = true
  · exact .inr (.inl ⟨_, fun last rest => by rw [pass, if_neg empty, if_pos closed]⟩)
  have allowed (last : Bool) (rest : List Bytes) :=
    (pass.eq_2 disk last name rest).trans ((if_neg empty).trans (if_neg closed))
  by_cases stay : name = Path.here
  · exact .inl ⟨disk, id, fun last rest => by rw [allowed, if_pos stay]⟩
  by_cases up : name = Path.above
  · exact .inl ⟨disk.parent, IsProper.parent,
      fun last rest => by rw [allowed, if_neg stay, if_pos up]⟩
  by_cases long : longestName < name.length
  · exact .inr (.inl ⟨_, fun last rest => by rw [allowed, if_neg stay, if_neg up, if_pos long]⟩)
  have looked (last : Bool) (rest : List Bytes) :=
    (allowed last rest).trans ((if_neg stay).trans ((if_neg up).trans (if_neg long)))
  cases found : disk.entries.get? name with
  | none => exact .inr (.inl ⟨_, fun last rest => by rw [looked, found]⟩)
  | some tree =>
      cases tree with
      | directory entries rights =>
          have inner : FileTree.AllProper disk.entries → FileTree.AllProper entries := fun proper =>
            (proper.of_mem (FileTree.mem_of_get? found)).2.1
          exact .inl ⟨disk.enter ⟨entries, rights⟩,
            fun proper => proper.enter (inner (proper _ List.mem_cons_self)),
            fun last rest => by rw [looked, found]⟩
      | file content readable =>
          exact .inr (.inr (.inl ⟨content, readable, fun last rest => by rw [looked, found]⟩))
      | link target => exact .inr (.inr (.inr ⟨target, fun last rest => by rw [looked, found]⟩))

/-- A stretch that does not end at a link is the same if a link at its end is to
be followed. -/
theorem pass_true {passage : Passage} (passed : disk.pass last names = passage)
    (stays : ∀ target, passage ≠ .arrived (.link target)) : disk.pass true names = passage := by
  subst passed
  induction names generalizing disk with
  | nil => rfl
  | cons name names ih =>
      obtain ⟨next, -, leads⟩ | ⟨obstacle, blocked⟩ | ⟨content, readable, file⟩ | ⟨target, link⟩ :=
        pass_cons_cases disk name
      · simp only [leads] at stays ⊢
        exact ih stays
      · rw [blocked, blocked]
      · rw [file, file]
      · rw [link] at stays ⊢
        rw [link]
        split at stays
        · exact absurd rfl (stays target)
        · next further => simp [further]

theorem pass_append_arrived (arrived : disk.pass true names = .arrived folder.tree) :
    ∃ spot : Disk, spot.toFolder = folder ∧
      ∀ last more, disk.pass last (names ++ more) = spot.pass last more := by
  induction names generalizing disk with
  | nil =>
      simp only [pass, Passage.arrived.injEq, FileTree.directory.injEq] at arrived
      exact ⟨disk, Folder.ext arrived.1 arrived.2, fun _ _ => rfl⟩
  | cons name names ih =>
      obtain ⟨next, -, leads⟩ | ⟨obstacle, blocked⟩ | ⟨content, readable, file⟩ | ⟨target, link⟩ :=
        pass_cons_cases disk name
      · rw [leads] at arrived
        obtain ⟨spot, same, on⟩ := ih arrived
        exact ⟨spot, same, fun last more => by rw [List.cons_append, leads, on]⟩
      · simp [blocked] at arrived
      · rw [file] at arrived
        split at arrived <;> simp at arrived
      · simp [link] at arrived

theorem pass_append_detour {target : Bytes} {rest : List Bytes}
    (turned : disk.pass true names = .detour spot target rest) (more : List Bytes) :
    disk.pass true (names ++ more) = .detour spot target (rest ++ more) := by
  induction names generalizing disk with
  | nil => simp [pass] at turned
  | cons name names ih =>
      obtain ⟨next, -, leads⟩ | ⟨obstacle, blocked⟩ | ⟨content, readable, file⟩ | ⟨target, link⟩ :=
        pass_cons_cases disk name
      · rw [leads] at turned
        rw [List.cons_append, leads, ih turned]
      · simp [blocked] at turned
      · rw [file] at turned
        split at turned <;> simp at turned
      · simp only [link, Bool.not_true, Bool.and_false, Bool.false_eq_true, if_false,
          Passage.detour.injEq] at turned
        obtain ⟨rfl, rfl, rfl⟩ := turned
        simp [link]

/-- A stretch on a proper disk stays on proper ground. -/
theorem IsProper.pass (proper : disk.IsProper) :
    (∀ tree, disk.pass last names = .arrived tree → tree.IsProper) ∧
      ∀ spot target rest, disk.pass last names = .detour spot target rest → spot.IsProper := by
  induction names generalizing disk with
  | nil =>
      simp only [Disk.pass, Passage.arrived.injEq, reduceCtorEq, false_implies, implies_true,
        and_true]
      rintro _ rfl
      exact proper _ List.mem_cons_self
  | cons name names ih =>
      obtain ⟨next, kept, leads⟩ | ⟨obstacle, blocked⟩ | ⟨content, readable, file⟩ |
        ⟨target, link⟩ := pass_cons_cases disk name
      · rw [leads]
        exact ih (kept proper)
      · simp [blocked]
      · rw [file]
        split <;> simp [FileTree.IsProper]
      · rw [link]
        split <;> simp [FileTree.IsProper, proper]

/-! ## Through links -/

/-- Where the target of a link starts. -/
def turn (spot : Disk) (target : Bytes) : Disk :=
  if Path.isAbsolute target then spot.top else spot

theorem IsProper.turn (proper : spot.IsProper) (target : Bytes) : (spot.turn target).IsProper := by
  rw [Disk.turn]
  split
  · exact proper.top
  · exact proper

theorem follow_eq (disk : Disk) (last : Bool) (links : Nat) (names : List Bytes) :
    disk.follow last links names =
      match disk.pass last names with
      | .arrived tree => .ok tree
      | .blocked obstacle => .error obstacle
      | .detour spot target rest =>
        match links with
        | 0 => .error .tooManyLinks
        | links + 1 => (spot.turn target).follow last links (Path.names target ++ rest) := by
  rw [Disk.follow.eq_def]
  dsimp only
  cases disk.pass last names <;> cases links <;> rfl

/-- A path leads to a tree through at most so many links: it arrives there on its
first stretch, or turns off to the target of a link and leads there from it. -/
inductive Leads (last : Bool) (tree : FileTree) : Nat → Disk → List Bytes → Prop where
  | arrives {links : Nat} {disk : Disk} {names : List Bytes}
    (arrived : disk.pass last names = .arrived tree) : Leads last tree links disk names
  | turns {links : Nat} {disk spot : Disk} {names rest : List Bytes} {target : Bytes}
    (turned : disk.pass last names = .detour spot target rest)
    (further : Leads last tree links (spot.turn target) (Path.names target ++ rest)) :
    Leads last tree (links + 1) disk names

theorem follow_iff_leads :
    disk.follow last links names = .ok tree ↔ Leads last tree links disk names := by
  constructor
  · intro led
    induction links generalizing disk names with
    | zero =>
        rw [follow_eq] at led
        split at led
        · next arrived => exact .arrives (Except.ok.inj led ▸ arrived)
        · cases led
        · cases led
    | succ links ih =>
        rw [follow_eq] at led
        split at led
        · next arrived => exact .arrives (Except.ok.inj led ▸ arrived)
        · cases led
        · next turned => exact .turns turned (ih led)
  · intro leads
    induction leads with
    | arrives arrived => rw [follow_eq, arrived]
    | turns turned _ ih =>
        rw [follow_eq, turned]
        exact ih

theorem Leads.isProper (leads : Leads last tree links disk names) (proper : disk.IsProper) :
    tree.IsProper := by
  induction leads with
  | arrives arrived => exact proper.pass.1 tree arrived
  | turns turned _ ih => exact ih ((proper.pass.2 _ _ _ turned).turn _)

/-- A directory that is found without following a link at the end is found with
following it too. -/
theorem Leads.through (leads : Leads last folder.tree links disk names) :
    Leads true folder.tree links disk names := by
  induction leads with
  | arrives arrived => exact .arrives (pass_true arrived (by simp))
  | turns turned _ ih => exact .turns (pass_true turned (by simp)) ih

/-- From a directory a path goes on as from a spot where this directory is the
working directory. -/
theorem Leads.append (leads : Leads true folder.tree links disk names) :
    ∃ fewer, ∃ spot : Disk, spot.toFolder = folder ∧
      ∀ more, disk.follow true links (names ++ more) = spot.follow true fewer more := by
  induction leads with
  | @arrives links _ _ arrived =>
      obtain ⟨spot, same, on⟩ := pass_append_arrived arrived
      exact ⟨links, spot, same, fun more => by rw [follow_eq, on, ← follow_eq]⟩
  | turns turned _ ih =>
      obtain ⟨fewer, spot, same, on⟩ := ih
      refine ⟨fewer, spot, same, fun more => ?_⟩
      rw [follow_eq, pass_append_detour turned more, ← on, List.append_assoc]

/-! ## Down into a directory -/

/-- A name of an entry is looked up if that is allowed and the name not too long. -/
theorem pass_name_cases {name : Bytes} (named : Path.IsName name) (inner : Folder)
    (found : disk.entries.get? name = some inner.tree) (last : Bool) :
    (∃ obstacle, ∀ rest, disk.pass last (name :: rest) = .blocked obstacle) ∨
      disk.rights.search = true ∧
        ∀ rest, disk.pass last (name :: rest) = (disk.enter inner).pass last rest := by
  cases search : disk.rights.search with
  | false => exact .inl ⟨.denied, fun rest => by simp [pass, named.filled, search]⟩
  | true =>
      by_cases long : longestName < name.length
      · exact .inl ⟨.nameTooLong, fun rest => by
          simp [pass, named.filled, named.notHere, named.notAbove, search, long]⟩
      · exact .inr ⟨rfl, fun rest => by
          simp [pass, named.filled, named.notHere, named.notAbove, search, long, found]⟩

/-- The names of a directory below lead down to it, unless one may not be looked up
or is too long. -/
theorem pass_of_reaches {inner : Folder} (reached : disk.tree.Reaches names inner.tree)
    (proper : FileTree.AllProper disk.entries) (last : Bool) :
    disk.pass last names = .arrived inner.tree ∨
      ∃ obstacle, disk.pass last names = .blocked obstacle := by
  induction names generalizing disk with
  | nil => exact .inl (congrArg Passage.arrived reached.eq_of_nil.symm)
  | cons name names ih =>
      obtain _ | ⟨member, below⟩ := reached
      obtain ⟨named, own, found⟩ := proper.of_mem member
      obtain ⟨there, rfl⟩ := below.start_directory
      obtain ⟨obstacle, blocked⟩ | ⟨-, on⟩ := pass_name_cases named there found last
      · exact .inr ⟨obstacle, blocked names⟩
      · rw [on]
        exact ih below own

/-- Where the names of a directory in another one lead down to it, names may be
looked up in the other one. -/
theorem search_of_pass {around inner : Folder} {name : Bytes}
    (reached : disk.tree.Reaches names around.tree)
    (proper : FileTree.AllProper disk.entries) (member : (name, inner.tree) ∈ around.entries)
    (arrived : disk.pass last (names ++ [name]) = .arrived tree) :
    around.rights.search = true := by
  induction names generalizing disk with
  | nil =>
      obtain rfl : around = disk.toFolder := Folder.tree_inj.mp reached.eq_of_nil
      obtain ⟨named, -, found⟩ := proper.of_mem member
      obtain ⟨obstacle, blocked⟩ | ⟨search, -⟩ := pass_name_cases named inner found last
      · simp [blocked] at arrived
      · exact search
  | cons next names ih =>
      obtain _ | ⟨first, below⟩ := reached
      obtain ⟨named, own, found⟩ := proper.of_mem first
      obtain ⟨there, rfl⟩ := below.start_directory
      obtain ⟨obstacle, blocked⟩ | ⟨-, on⟩ := pass_name_cases named there found last
      · simp [blocked] at arrived
      · rw [List.cons_append, on] at arrived
        exact @ih (disk.enter there) below own arrived

/-! ## Paths -/

theorem resolve_eq_ok_iff {path : Bytes} :
    disk.resolve last path = .ok tree ↔
      (0 ∉ path ∧ path ≠ [] ∧ path.length ≤ longestPath) ∧
        Leads last tree mostLinks (disk.turn path) (Path.names path) := by
  rw [← follow_iff_leads, resolve, turn]
  by_cases ends : 0 ∈ path
  · simp [ends]
  · by_cases empty : path = []
    · simp [empty]
    · by_cases long : longestPath < path.length
      · simp [ends, empty, long, Nat.not_le.mpr long]
      · simp [ends, empty, long, Nat.not_lt.mp long]

/-- The spelling of a clean path leads where its names do, or nowhere: that of the
working directory is a name, which may not be looked up everywhere. -/
theorem pass_names_spell (disk : Disk) (last : Bool) {parts : List Bytes}
    (filled : ∀ name ∈ parts, name ≠ [] ∧ Path.slash ∉ name) (absolute : Bool) :
    disk.pass last (Path.names (Path.spell absolute parts)) = disk.pass last parts ∨
      ∃ obstacle, disk.pass last (Path.names (Path.spell absolute parts)) = .blocked obstacle := by
  cases parts with
  | nil =>
      cases absolute with
      | true => exact .inl rfl
      | false =>
          have spelled : disk.pass last (Path.names (Path.spell false [])) =
              if !disk.rights.search then .blocked .denied else disk.pass last [] := rfl
          cases search : disk.rights.search with
          | true => exact .inl (by simp [spelled, search])
          | false => exact .inr ⟨.denied, by simp [spelled, search]⟩
  | cons name parts =>
      have split := Path.names_join (fun part member => (filled part member).2)
        (List.cons_ne_nil name parts)
      cases absolute with
      | false => exact .inl (congrArg _ split)
      | true =>
          -- The slash in front gives an empty name, which changes nothing.
          have spelled := (Path.names_append [] _).trans (congrArg (Path.names [] ++ ·) split)
          exact .inl ((congrArg (disk.pass last) spelled).trans rfl)

theorem leads_of_resolve_spell {parts : List Bytes} {absolute : Bool}
    (filled : ∀ name ∈ parts, name ≠ [] ∧ Path.slash ∉ name)
    (found : disk.resolve last (Path.spell absolute parts) = .ok tree) :
    Leads last tree mostLinks (if absolute then disk.top else disk) parts := by
  have leads := (resolve_eq_ok_iff.mp found).2
  rw [turn, Path.isAbsolute_spell absolute filled] at leads
  obtain same | ⟨obstacle, blocked⟩ :=
    (if absolute then disk.top else disk).pass_names_spell last filled absolute
  · cases leads with
    | arrives arrived => exact .arrives (same ▸ arrived)
    | turns turned further => exact .turns (same ▸ turned) further
  · cases leads with
    | arrives arrived => simp [blocked] at arrived
    | turns turned => simp [blocked] at turned

theorem IsProper.resolve {path : Bytes} (proper : disk.IsProper)
    (found : disk.resolve last path = .ok tree) : tree.IsProper :=
  (resolve_eq_ok_iff.mp found).2.isProper (proper.turn path)

/-- A directory to which a path leads without its last link is found with it. -/
theorem resolve_true {path : Bytes} (found : disk.resolve last path = .ok folder.tree) :
    disk.resolve true path = .ok folder.tree := by
  rw [resolve_eq_ok_iff] at found ⊢
  exact ⟨found.1, found.2.through⟩

theorem list_eq_ok_iff {path : Bytes} {listed : Folder} :
    disk.list path = .ok listed ↔
      ∃ folder : Folder, disk.resolve true path = .ok folder.tree ∧ folder.rights.list = true ∧
        folder.sorted = listed := by
  rw [list, openAt]
  cases disk.resolve true path with
  | error obstacle => simp [bind, Except.bind]
  | ok tree =>
      cases tree with
      | file content readable => cases readable <;> simp [bind, Except.bind, FileTree.isOpen]
      | link target => simp [bind, Except.bind, FileTree.isOpen]
      | directory entries rights =>
          constructor
          · intro listed
            refine ⟨⟨entries, rights⟩, rfl, ?_⟩
            cases opens : rights.list <;> simp_all [bind, Except.bind, FileTree.isOpen]
          · rintro ⟨folder, same, opens, rfl⟩
            obtain ⟨rfl, rfl⟩ : entries = folder.entries ∧ rights = folder.rights := by
              simpa using same
            simp [bind, Except.bind, FileTree.isOpen, opens]

theorem visit_eq_ok {path : Bytes} {listed : Folder} (found : disk.list path = .ok listed) :
    disk.visit path = .ok listed := by
  rw [visit, found]

section Below

variable {root : Bytes} {inner listed : Folder} (given : root ≠ [])
  (led : disk.resolve true (Path.clean root) = .ok folder.tree)
include given led

/-- Where the clean spelling of a path leads to a directory, a path of names below
it leads where the names lead from the directory. -/
theorem pass_below (named : ∀ name ∈ names, Path.IsName name) (below : names ≠ [])
    (found : disk.resolve true (Path.join root (Bytes.join [Path.slash] names)) = .ok tree) :
    ∃ fewer, ∃ spot : Disk, spot.toFolder = folder ∧ spot.follow true fewer names = .ok tree := by
  rw [Path.join_below given named below] at found
  have filled : ∀ name ∈ Path.kept root, name ≠ [] ∧ Path.slash ∉ name :=
    fun _ => Path.filled_of_mem_kept
  -- The root may lead through links; the names behind it pass none.
  obtain ⟨fewer, spot, same, on⟩ := (leads_of_resolve_spell filled led).append
  have leads := leads_of_resolve_spell (List.forall_mem_append.mpr
    ⟨filled, fun name member => ⟨(named name member).filled, (named name member).whole⟩⟩) found
  rw [← follow_iff_leads, on] at leads
  exact ⟨fewer, spot, same, leads⟩

/-- Where the clean spelling of a path leads to a directory, the directories
below are listed under the names that lead down to them. -/
theorem list_below (proper : disk.IsProper) (reached : folder.tree.Reaches names inner.tree)
    (below : names ≠ [])
    (found : disk.list (Path.join root (Bytes.join [Path.slash] names)) = .ok listed) :
    listed = inner.sorted ∧ inner.rights.list = true ∧
      (Path.join root (Bytes.join [Path.slash] names)).length ≤ longestPath := by
  have properEntries : FileTree.AllProper folder.entries := proper.resolve led
  obtain ⟨there, resolved, opens, rfl⟩ := list_eq_ok_iff.mp found
  obtain ⟨fewer, spot, rfl, leads⟩ :=
    pass_below given led (reached.isName properEntries) below resolved
  rw [follow_eq] at leads
  obtain arrived | ⟨obstacle, blocked⟩ := pass_of_reaches reached properEntries true
  · rw [arrived] at leads
    obtain rfl : inner = there := by simpa [Folder.ext_iff] using leads
    exact ⟨rfl, opens, (resolve_eq_ok_iff.mp resolved).1.2.2⟩
  · simp [blocked] at leads

/-- Names may be looked up in every directory below if the directories in it are
found under their paths. -/
theorem search_below {around : Folder} {name : Bytes}
    (proper : disk.IsProper) (reached : folder.tree.Reaches names around.tree)
    (member : (name, inner.tree) ∈ around.entries)
    (found : disk.list (Path.join root (Bytes.join [Path.slash] (names ++ [name]))) = .ok listed) :
    around.rights.search = true := by
  have properEntries : FileTree.AllProper folder.entries := proper.resolve led
  have inside : folder.tree.Reaches (names ++ [name]) inner.tree :=
    reached.append (.inside member .here)
  obtain ⟨there, resolved, -⟩ := list_eq_ok_iff.mp found
  obtain ⟨fewer, spot, rfl, leads⟩ :=
    pass_below given led (inside.isName properEntries) (by simp) resolved
  rw [follow_eq] at leads
  obtain arrived | ⟨obstacle, blocked⟩ := pass_of_reaches inside properEntries true
  · exact search_of_pass reached properEntries member arrived
  · simp [blocked] at leads

end Below

end Disk

end JavaFront
