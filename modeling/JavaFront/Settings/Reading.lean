import JavaFront.Files
import JavaFront.Settings
import JavaFront.Text.Base64
import JavaFront.Text.Duration
import JavaFront.Yaml.Node

/-!
# Settings from a file

A settings file is a mapping from the names of settings to their values; what it
does not name keeps its default. A name that no setting has, a name given twice
and a value of the wrong type are collected and told together. Other mappings
can be merged in: their values count for the names not given otherwise.

A small file can stand for a large one by its aliases. The nodes read are
counted, and a file almost all of whose many nodes are read through aliases is
refused.
-/

namespace JavaFront

namespace Settings

/-! ## Fields and types -/

/-- The settings by name. -/
inductive Field where
  | roots | included | excluded | jobs | maxDepth | maxSize | comments | unitTimeout
deriving DecidableEq, Repr

/-- The name of a setting in a file. -/
def Field.key : Field → String
  | .roots => "roots"
  | .included => "include"
  | .excluded => "exclude"
  | .jobs => "jobs"
  | .maxDepth => "max_depth"
  | .maxSize => "max_size"
  | .comments => "comments"
  | .unitTimeout => "unit_timeout"

/-- All settings. -/
def Field.all : List Field :=
  [.roots, .included, .excluded, .jobs, .maxDepth, .maxSize, .comments, .unitTimeout]

/-- The setting of a name. -/
def Field.ofKey? (key : Bytes) : Option Field :=
  all.find? fun field => Bytes.ofString field.key = key

/-- The types values are read into. -/
inductive Target where
  | integer | truth | texts | text | time | settings
deriving DecidableEq, Repr

/-- The name of a type in messages. -/
def Target.name : Target → String
  | .integer => "int"
  | .truth => "bool"
  | .texts => "[]string"
  | .text => "string"
  | .time => "time.Duration"
  | .settings => "driver.Config"

/-- Settings being read, what does not fit collected so far, the names that a
mapping merged in may not set, the number of nodes read, the number of those
read through an alias, and the number of aliases around the next one. -/
structure Reading where
  settings : Settings := {}
  misfits : List Bytes := []
  given : Option (List Bytes) := none
  nodes : Nat := 0
  aliased : Nat := 0
  depth : Nat := 0

/-- Reading settings, which may meet a problem that ends it. -/
abbrev Read := StateT Reading (Except Yaml.Problem)

namespace Read

open Yaml

/-- Notes that something on a line does not fit. -/
def misfit (line : Nat) (text : Bytes) : Read Unit :=
  modify fun reading =>
    { reading with misfits := reading.misfits ++
        [Bytes.ofString "line " ++ Bytes.ofNat line ++ Bytes.ofString ": " ++ text] }

/-- The text of a value in a message; of a long one only the beginning. -/
def shown (text : Bytes) : Bytes :=
  let part := if 10 < text.length then text.take 7 ++ Bytes.ofString "..." else text
  Bytes.ofString " `" ++ part ++ Bytes.ofString "`"

/-- Notes that a value has the wrong type. -/
def mismatch (line : Nat) (tag text : Bytes) (target : Target) : Read Unit :=
  let value := if tag = Node.sequenceTag || tag = Node.mappingTag then text else shown text
  misfit line (Bytes.ofString "cannot unmarshal " ++ tag ++ value ++
    Bytes.ofString (" into " ++ target.name))

/-! ## Counting nodes -/

/-- The aliased part of `nodes` nodes is too large. Of up to 400000 nodes 99 in a
hundred may be aliased, of 4000000 or more 10 in a hundred, and in between the
part falls evenly. -/
def isExcessive (aliased nodes : Nat) : Bool :=
  let span := 3600000
  let above := min (nodes - 400000) span
  100 < aliased && 1000 < nodes && nodes * (99 * span - 89 * above) < aliased * (100 * span)

/-- Counts a node. -/
def count : Read Unit := do
  modify fun reading =>
    { reading with
      nodes := reading.nodes + 1
      aliased := if reading.depth = 0 then reading.aliased else reading.aliased + 1 }
  let reading ← get
  if isExcessive reading.aliased reading.nodes then
    throw { text := "document contains excessive aliasing" }

/-- Counts a node and reads it, or the node it stands for. -/
def visit {α : Type} (node : Yaml.Node) (read : Yaml.Node → Read α) : Read α := do
  count
  match node with
  | .alias _ _ target =>
    modify fun reading => { reading with depth := reading.depth + 1 }
    count
    let result ← read target
    modify fun reading => { reading with depth := reading.depth - 1 }
    return result
  | node => read node

/-- What a scalar means. -/
def scalar (tag text : Bytes) : Read Value :=
  if tag = "!!binary" then
    match Bytes.ofBase64? text with
    | some bytes => pure (.text bytes)
    | none => throw { text := "!!binary value contains invalid base64 data" }
  else
    match valueOf tag text with
    | .ok value => pure value
    | .error problem => throw problem

/-! ## Repeated keys -/

/-- What tells keys apart: their kind and their own text. -/
def keyIdentity : Yaml.Node → Nat × Bytes
  | .scalar _ _ text => (0, text)
  | .alias _ name _ => (1, name)
  | .sequence .. => (2, [])
  | .mapping .. => (3, [])
  | .enclosing .. => (4, [])

/-- Notes the keys that repeat the given one. -/
def repeatsOf (first : Yaml.Node) : List (Yaml.Node × Yaml.Node) → Read Unit
  | [] => pure ()
  | (key, _) :: pairs => do
    if keyIdentity key = keyIdentity first then
      misfit key.line (Bytes.ofString "mapping key " ++ (keyIdentity key).2.quoted ++
        Bytes.ofString " already defined at line " ++ Bytes.ofNat first.line)
    repeatsOf first pairs

/-- Notes all keys that repeat an earlier one. -/
def repeats : List (Yaml.Node × Yaml.Node) → Read Unit
  | [] => pure ()
  | (key, _) :: pairs => do
    repeatsOf key pairs
    repeats pairs

/-- The keys of a mapping are distinct; those that are not are noted. -/
def distinctKeys (pairs : List (Yaml.Node × Yaml.Node)) : Read Bool := do
  let before := (← get).misfits.length
  repeats pairs
  return (← get).misfits.length = before

/-! ## Values -/

/-- Notes that a collection stands where a value of another type is wanted. -/
def misplaced (node : Yaml.Node) (target : Target) : Read Unit := do
  match node with
  | .mapping line tag pairs => if ← distinctKeys pairs then mismatch line tag [] target
  | .sequence line tag _ | .enclosing line tag _ => mismatch line tag [] target
  | _ => pure ()

/-- A text; nothing if none is given or the value does not fit. -/
def text (node : Yaml.Node) : Read (Option Bytes) := visit node fun node => do
  match node with
  | .scalar _ tag text =>
    match ← scalar tag text with
    | .null => return none
    | .text value => return some value
    | _ => return some text
  | other =>
    misplaced other .text
    return none

/-- The texts given by nodes; those that do not fit are left out. -/
def texts : List Yaml.Node → Read (List Bytes)
  | [] => pure []
  | node :: nodes => do
    let first ← text node
    return first.toList ++ (← texts nodes)

/-- A list of texts. Without a value it is empty. -/
def list (node : Yaml.Node) : Read (Option (List Bytes)) := visit node fun node => do
  match node with
  | .scalar line tag text =>
    match ← scalar tag text with
    | .null => return some []
    | _ =>
      mismatch line tag text .texts
      return none
  | .sequence _ _ items => return some (← texts items)
  | other =>
    misplaced other .texts
    return none

/-- A scalar read by `accept`; nothing if none is given or the value does not
fit. -/
def single {α : Type} (target : Target) (accept : Value → Option α) (node : Yaml.Node) :
    Read (Option α) := visit node fun node => do
  match node with
  | .scalar line tag text =>
    match ← scalar tag text with
    | .null => return none
    | value =>
      match accept value with
      | some result => return some result
      | none =>
        mismatch line tag text target
        return none
  | other =>
    misplaced other target
    return none

/-- One more than the largest integer. -/
def integerLimit : Int := 9223372036854775808

/-- The integer of a value. Fractions are cut off; what lies beyond the integers
on either side becomes the least of them. -/
def integer? : Value → Option Int
  | .int value => if value < integerLimit then some value else none
  | .float value =>
    if value ≤ 9223372036854775808.0 then
      if value < 9223372036854775808.0 && -9223372036854775808.0 ≤ value then
        some value.toInt64.toInt
      else some (-integerLimit)
    else none
  | _ => none

/-- The truth value of a value; some words count too. -/
def truth? : Value → Option Bool
  | .bool value => some value
  | .text value =>
    let isOneOf (words : List String) : Bool := words.any fun word => Bytes.ofString word = value
    if isOneOf ["y", "Y", "yes", "Yes", "YES", "on", "On", "ON"] then some true
    else if isOneOf ["n", "N", "no", "No", "NO", "off", "Off", "OFF"] then some false
    else none
  | _ => none

/-- The span of time of a value. -/
def time? : Value → Option Int
  | .text value => value.toDuration.toOption
  | _ => none

/-! ## Settings -/

/-- Changes the settings by a value, if there is one. -/
def assign {α : Type} (value : Option α) (change : Settings → α → Settings) : Read Unit :=
  match value with
  | none => pure ()
  | some value =>
    modify fun reading => { reading with settings := change reading.settings value }

/-- Reads the value of a setting. -/
def field (field : Field) (node : Yaml.Node) : Read Unit := do
  match field with
  | .roots => assign (← list node) fun settings value => { settings with roots := value }
  | .included => assign (← list node) fun settings value => { settings with included := value }
  | .excluded => assign (← list node) fun settings value => { settings with excluded := value }
  | .jobs =>
    assign (← single .integer integer? node) fun settings value => { settings with jobs := value }
  | .maxDepth =>
    assign (← single .integer integer? node) fun settings value =>
      { settings with maxDepth := value }
  | .maxSize =>
    assign (← single .integer integer? node) fun settings value =>
      { settings with maxSize := value }
  | .comments =>
    assign (← single .truth truth? node) fun settings value => { settings with comments := value }
  | .unitTimeout =>
    assign (← single .time time? node) fun settings value =>
      { settings with unitTimeout := value }

/-- A key that merges another mapping in. -/
def isMerge : Yaml.Node → Bool
  | .scalar _ tag text => tag = mergeTag && text = Bytes.ofString "<<"
  | _ => false

/-- A name may still be set: it has not been given before a mapping was merged
in. -/
def claim (name : Bytes) : Read Bool := do
  match (← get).given with
  | none => return true
  | some names =>
    if names.contains name then return false
    modify fun reading => { reading with given := some (name :: names) }
    return true

/-- Reads the pairs of a mapping, the merging ones apart. `done` are the settings
read before. -/
def pairs (done : List Field) : List (Yaml.Node × Yaml.Node) → Read Unit
  | [] => pure ()
  | (key, value) :: rest => do
    if isMerge key then pairs done rest
    else
      match ← text key with
      | none => pairs done rest
      | some name =>
        if !(← claim name) then pairs done rest
        else
          match Field.ofKey? name with
          | none =>
            misfit key.line (Bytes.ofString "field " ++ name ++
              Bytes.ofString (" not found in type " ++ Target.name .settings))
            pairs done rest
          | some setting =>
            if done.contains setting then
              misfit key.line (Bytes.ofString "field " ++ name ++
                Bytes.ofString (" already set in type " ++ Target.name .settings))
              pairs done rest
            else
              field setting value
              pairs (setting :: done) rest

/-- A node is to be read inside itself. -/
def containsItself (name : Bytes) : Problem :=
  { text := Bytes.ofString "anchor '" ++ name ++ Bytes.ofString "' value contains itself" }

mutual

/-- What a node means, whatever that is; nothing if it is a collection. The nodes in
it are read too, up to the first mapping that repeats a key. -/
def anything : (fuel : Nat) → Yaml.Node → Read (Option Value)
  | 0, _ => return none
  | _, .alias _ name (.enclosing ..) => throw (containsItself name)
  | fuel + 1, node => visit node fun node => do
    match node with
    | .scalar _ tag text => return some (← scalar tag text)
    | .sequence _ _ items =>
      allOf fuel items
      return none
    | .mapping _ _ pairs =>
      if ← distinctKeys pairs then
        allOf fuel ((pairs.filter fun pair => !isMerge pair.1).flatMap fun pair =>
          [pair.1, pair.2])
      return none
    | _ => return none

/-- Reads nodes, whatever they are. -/
def allOf : (fuel : Nat) → List Yaml.Node → Read Unit
  | 0, _ => pure ()
  | _, [] => pure ()
  | fuel + 1, node :: nodes => do
    let _ ← anything fuel node
    allOf fuel nodes

end

/-- The names that keys spell. -/
def names (fuel : Nat) : List (Yaml.Node × Yaml.Node) → Read (List Bytes)
  | [] => return []
  | (key, _) :: pairs => do
    match ← anything fuel key with
    | some (.text name) => return name :: (← names fuel pairs)
    | _ => names fuel pairs

/-- Something other than a mapping is to be merged in. -/
def refuseMerge {α : Type} : Read α :=
  throw { text := "map merge requires map or sequence of maps as the value" }

mutual

/-- Reads a mapping of settings. -/
def mapping (entries : List (Yaml.Node × Yaml.Node)) : (fuel : Nat) → Read Unit
  | 0 => pure ()
  | fuel + 1 => do
    if ← distinctKeys entries then
      pairs [] entries
      match (entries.reverse.find? fun entry => isMerge entry.1).map Prod.snd with
      | none => pure ()
      | some merged =>
        let before := (← get).given
        if before.isNone then
          let given ← names fuel entries
          modify fun reading => { reading with given := some given }
        match merged with
        | .sequence _ _ items => mergeAll items fuel
        | node => merge node fuel
        if before.isNone then modify fun reading => { reading with given := none }

/-- Merges a mapping in. -/
def merge (node : Yaml.Node) : (fuel : Nat) → Read Unit
  | 0 => pure ()
  | fuel + 1 =>
    match node with
    | .mapping _ _ entries | .alias _ _ (.mapping _ _ entries) =>
      visit node fun _ => mapping entries fuel
    | .alias _ name (.enclosing _ _ true) => throw (containsItself name)
    | _ => refuseMerge

/-- Merges several mappings in, the earlier ones first. -/
def mergeAll (nodes : List Yaml.Node) : (fuel : Nat) → Read Unit
  | 0 => pure ()
  | fuel + 1 =>
    match nodes with
    | [] => pure ()
    | node :: nodes => do
      merge node fuel
      mergeAll nodes fuel

end

/-- Reads a document of settings, which counts as a node itself. -/
def document (node : Yaml.Node) (fuel : Nat) : Read Unit := do
  count
  visit node fun node => do
    match node with
    | .mapping _ _ entries => mapping entries fuel
    | .scalar line tag text =>
      match ← scalar tag text with
      | .null => pure ()
      | _ => mismatch line tag text .settings
    | other => misplaced other .settings

end Read

/-! ## Files -/

/-- Why a settings file cannot be used. -/
inductive FileError where
  | unreadable (error : AccessError)
  | malformed (path : Bytes) (problem : Yaml.Problem)
  | misfits (path : Bytes) (texts : List Bytes)
  | refused (path : Bytes) (fault : Fault)
deriving DecidableEq, Repr

/-- The wording of why a settings file cannot be used. -/
def FileError.message : FileError → Bytes
  | .unreadable error => Bytes.ofString "read config: " ++ error.message
  | .malformed path problem => path ++ Bytes.ofString ": " ++ problem.message
  | .misfits path texts =>
    path ++ Bytes.ofString ": yaml: unmarshal errors:\n  " ++ Bytes.join "\n  " texts
  | .refused path fault => path ++ Bytes.ofString ": " ++ fault.message

/-- The settings that the content of a file gives. -/
def ofContent (path content : Bytes) : Except FileError Settings := do
  let node ← (Yaml.load content).mapError (FileError.malformed path)
  let ((), reading) ←
    match node with
    | none => pure ((), ({} : Reading))
    | some node =>
      ((Read.document node (content.length + 8)).run {}).mapError (FileError.malformed path)
  if !reading.misfits.isEmpty then throw (.misfits path reading.misfits)
  match reading.settings.fault? with
  | some fault => throw (.refused path fault)
  | none => return reading.settings

/-- The name of the settings file looked for in the working directory. -/
def fileName : Bytes := "docfront.yaml"

end Settings

/-- Loads the settings file at a path. -/
def Disk.loadSettings (disk : Disk) (path : Bytes) : Except Settings.FileError Settings :=
  match disk.read path with
  | .error error => .error (.unreadable error)
  | .ok content => Settings.ofContent path content

/-- Loads the settings file of the working directory; without one the settings
are the default ones. -/
def Disk.findSettings (disk : Disk) : Except Settings.FileError Settings :=
  match disk.examine Settings.fileName with
  | .error ⟨_, _, .missing⟩ => .ok {}
  | _ => disk.loadSettings Settings.fileName

end JavaFront
