import JavaFront.Path

/-!
# Files, directories and links

The files a run can see form a tree. A path is followed from the working
directory, or from the top if it is absolute, one name after another. A link on
the way is replaced by its target, which starts where the link stands; a link
at the very end is followed or not as the question demands. Paths through too
many links lead nowhere.

What a program may do with files and directories depends on the rights it has.
It needs the right to read a file and to list a directory, and to look up any
name in a directory, be it that of the directory itself, it needs the right to
search it.
-/

namespace JavaFront

/-- What may be done with a directory: its names may be listed, and names may be
looked up in it. -/
structure Rights where
  list : Bool := true
  search : Bool := true
deriving DecidableEq, Repr

/-- A file with its content, a symbolic link with its target, or a directory
with its named entries. -/
inductive FileTree where
  | file (content : Bytes) (readable : Bool := true)
  | link (target : Bytes)
  | directory (entries : List (Bytes × FileTree)) (rights : Rights := {})
deriving Repr

/-- The file or directory may be opened for reading. -/
def FileTree.isOpen : FileTree → Bool
  | .file _ readable => readable
  | .link _ => true
  | .directory _ rights => rights.list

/-- The entries of a directory. -/
abbrev Directory := List (Bytes × FileTree)

namespace Directory

/-- The entry of a name. -/
def get? (directory : Directory) (name : Bytes) : Option FileTree :=
  (directory.find? (·.1 = name)).map Prod.snd

/-- Gives a name a new entry. -/
def set (directory : Directory) (name : Bytes) (tree : FileTree) : Directory :=
  directory.filter (·.1 ≠ name) ++ [(name, tree)]

/-- Puts an entry at the end of a list of names and makes the directories on
the way. A directory that is there already is kept. -/
def put (tree : FileTree) : List Bytes → Directory → Directory
  | [], directory => directory
  | [name], directory =>
    match directory.get? name, tree with
    | some (.directory _ _), .directory [] _ => directory
    | _, _ => directory.set name tree
  | name :: names, directory =>
    match directory.get? name with
    | some (.directory entries rights) =>
      directory.set name (.directory (put tree names entries) rights)
    | _ => directory.set name (.directory (put tree names []))

/-- The entries in the order of their names. -/
def sorted (directory : Directory) : Directory :=
  directory.mergeSort fun first second => decide (first.1 ≤ second.1)

end Directory

/-- Why a path cannot be used. -/
inductive Obstacle where
  | missing | notDirectory | isDirectory | tooManyLinks | nameTooLong | invalid | denied
deriving DecidableEq, Repr

/-- The wording of an obstacle. -/
def Obstacle.message : Obstacle → String
  | .missing => "no such file or directory"
  | .notDirectory => "not a directory"
  | .isDirectory => "is a directory"
  | .tooManyLinks => "too many levels of symbolic links"
  | .nameTooLong => "file name too long"
  | .invalid => "invalid argument"
  | .denied => "permission denied"

/-- What was tried with a path. -/
inductive Access where
  | examine | openFile | readFile | listDirectory
deriving DecidableEq, Repr

/-- The word for what was tried. -/
def Access.name : Access → String
  | .examine => "stat"
  | .openFile => "open"
  | .readFile => "read"
  | .listDirectory => "readdirent"

/-- A path that could not be used: what was tried with it and what stood in the
way. -/
structure AccessError where
  access : Access
  path : Bytes
  obstacle : Obstacle
deriving DecidableEq, Repr

/-- The wording of a failed access. -/
def AccessError.message (error : AccessError) : Bytes :=
  Bytes.ofString error.access.name ++ [0x20] ++ error.path ++ Bytes.ofString ": " ++
    Bytes.ofString error.obstacle.message

/-- A directory with the rights to it. -/
@[ext]
structure Folder where
  entries : Directory := []
  rights : Rights := {}
deriving Repr

/-- The directory as part of a tree. -/
abbrev Folder.tree (folder : Folder) : FileTree :=
  .directory folder.entries folder.rights

/-- The directory with its entries in the order of their names. -/
def Folder.sorted (folder : Folder) : Folder :=
  { folder with entries := Directory.sorted folder.entries }

/-- A directory to which there are all rights. -/
instance : Coe Directory Folder := ⟨fun entries => { entries }⟩

/-- A directory and the directories above it, the nearest first. The disk as a
program sees it is the spot of its working directory. -/
structure Disk extends Folder where
  above : List Folder := []
deriving Repr

namespace Disk

/-- The directory above; the top is above itself. -/
def parent (disk : Disk) : Disk :=
  match disk.above with
  | [] => disk
  | folder :: above => ⟨folder, above⟩

/-- The top of the tree. -/
def top (disk : Disk) : Disk :=
  ⟨disk.above.getLastD disk.toFolder, []⟩

/-- The disk seen from a directory in the working directory. -/
def enter (disk : Disk) (folder : Folder) : Disk :=
  ⟨folder, disk.toFolder :: disk.above⟩

/-- The disk seen from further down. Directories that are not there are empty. -/
def descend (disk : Disk) : List Bytes → Disk
  | [] => disk
  | name :: names =>
    if name.isEmpty then disk.descend names
    else
      match disk.entries.get? name with
      | some (.directory entries rights) => (disk.enter ⟨entries, rights⟩).descend names
      | _ => (disk.enter {}).descend names

/-- Where following names up to the next link leads. -/
inductive Passage where
  | arrived (tree : FileTree)
  | detour (spot : Disk) (target : Bytes) (rest : List Bytes)
  | blocked (obstacle : Obstacle)

/-- The longest name of a file. -/
def longestName : Nat := 255

/-- The longest path. -/
def longestPath : Nat := 4095

/-- The number of links that may stand on the way of one path. -/
def mostLinks : Nat := 40

/-- Follows names as far as the next link that has to be followed. An empty name
stands for the directory itself, so that only a directory can come before a
slash; any other name has to be looked up. -/
def pass (disk : Disk) (follow : Bool) : List Bytes → Passage
  | [] => .arrived disk.tree
  | name :: rest =>
    if name.isEmpty then disk.pass follow rest
    else if !disk.rights.search then .blocked .denied
    else if name = Path.here then disk.pass follow rest
    else if name = Path.above then disk.parent.pass follow rest
    else if longestName < name.length then .blocked .nameTooLong
    else
      match disk.entries.get? name with
      | none => .blocked .missing
      | some (.directory entries rights) => (disk.enter ⟨entries, rights⟩).pass follow rest
      | some (.file content readable) =>
        if rest.isEmpty then .arrived (.file content readable) else .blocked .notDirectory
      | some (.link target) =>
        if rest.isEmpty && !follow then .arrived (.link target) else .detour disk target rest

/-- Follows names through at most `links` links. -/
def follow (last : Bool) : (links : Nat) → Disk → List Bytes → Except Obstacle FileTree
  | links, disk, names =>
    match disk.pass last names with
    | .arrived tree => .ok tree
    | .blocked obstacle => .error obstacle
    | .detour spot target rest =>
      match links with
      | 0 => .error .tooManyLinks
      | links + 1 =>
        let start := if Path.isAbsolute target then spot.top else spot
        follow last links start (Path.names target ++ rest)

/-- What a path leads to. A link at its end is followed if `last` says so. -/
def resolve (disk : Disk) (last : Bool) (path : Bytes) : Except Obstacle FileTree :=
  if path.contains 0 then .error .invalid
  else if path.isEmpty then .error .missing
  else if longestPath < path.length then .error .nameTooLong
  else
    let start := if Path.isAbsolute path then disk.top else disk
    follow last mostLinks start (Path.names path)

/-- What a path leads to, links followed. -/
def examine (disk : Disk) (path : Bytes) : Except AccessError FileTree :=
  (disk.resolve true path).mapError (⟨.examine, path, ·⟩)

/-- What a path leads to, opened for reading. -/
def openAt (disk : Disk) (path : Bytes) : Except AccessError FileTree :=
  match disk.resolve true path with
  | .error obstacle => .error ⟨.openFile, path, obstacle⟩
  | .ok tree => if tree.isOpen then .ok tree else .error ⟨.openFile, path, .denied⟩

/-- The content of the file a path leads to. -/
def read (disk : Disk) (path : Bytes) : Except AccessError Bytes := do
  match ← disk.openAt path with
  | .file content _ => .ok content
  | _ => .error ⟨.readFile, path, .isDirectory⟩

/-- The directory a path leads to, its entries in order. -/
def list (disk : Disk) (path : Bytes) : Except AccessError Folder := do
  match ← disk.openAt path with
  | .directory entries rights => .ok (Folder.sorted { entries, rights })
  | _ => .error ⟨.listDirectory, path, .notDirectory⟩

/-- The directory a path leads to, as it is searched: one that may not be opened
is passed over. -/
def visit (disk : Disk) (path : Bytes) : Except AccessError Folder :=
  match disk.list path with
  | .error ⟨_, _, .denied⟩ => .ok {}
  | found => found

end Disk

end JavaFront
