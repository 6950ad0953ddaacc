import JavaFront.Command.Flag
import JavaFront.Parser
import JavaFront.Settings
import JavaFront.Text.Distance

/-!
# Commands

A command line asks for one of a few commands. The command is named by the
first word that is neither a flag nor the value of one; its own flags may stand
before and behind the name. `Command.ofWords` reads a command line into a
command or says why it asks for none.
-/

namespace JavaFront

/-- How one file is parsed and what is shown of it. -/
structure ParseOrder where
  format : Bytes := "tree"
  entry : Bytes := "unit"
  positions : Bool := false
  stats : Bool := false
  maxDepth : Int := 1000
deriving DecidableEq, Repr

/-- What a batch run is to change in its settings. Without a settings file the
one of the working directory is looked for. -/
structure CheckOrder where
  settingsFile : Bytes := []
  included : Option (List Bytes) := none
  excluded : Option (List Bytes) := none
  jobs : Option Int := none
  maxDepth : Option Int := none
  unitTimeout : Option Int := none
deriving DecidableEq, Repr

/-- Changes settings as ordered. Roots replace those of the settings if there
are any. -/
def CheckOrder.apply (order : CheckOrder) (roots : List Bytes) (settings : Settings) : Settings :=
  { settings with
    roots := if roots.isEmpty then settings.roots else roots
    included := order.included.getD settings.included
    excluded := order.excluded.getD settings.excluded
    jobs := order.jobs.getD settings.jobs
    maxDepth := order.maxDepth.getD settings.maxDepth
    unitTimeout := order.unitTimeout.getD settings.unitTimeout }

/-- What a command line asks for. -/
inductive Command where
  | help
  | version
  | parse (path : Bytes) (order : ParseOrder)
  | check (roots : List Bytes) (order : CheckOrder)
  | serve (maxDepth : Int)
deriving DecidableEq, Repr

namespace Command

/-- The name of the program. -/
def programName : Bytes := "docfront"

/-! ## Names -/

/-- The words that name commands. -/
inductive Name where
  | parse | check | lsp | completion | help
deriving DecidableEq, Repr

namespace Name

/-- The word for a command. -/
def word : Name → String
  | .parse => "parse"
  | .check => "check"
  | .lsp => "lsp"
  | .completion => "completion"
  | .help => "help"

/-- The names that are proposed for a word that names no command. -/
def proposed : List Name :=
  [.parse, .check, .lsp, .completion]

/-- The name a word is. -/
def ofWord? (word : Bytes) : Option Name :=
  (.help :: proposed).find? fun name => Bytes.ofString name.word = word

/-- The largest distance at which a name is taken for a misspelled word. -/
def tolerance : Nat := 2

/-- The word may be meant as the name: it is close to it or begins it, whatever
the case of its letters. -/
def resembles (name : Name) (word : Bytes) : Bool :=
  let typed := word.toLower
  let spelled := Bytes.ofString name.word
  decide (typed.distance spelled ≤ tolerance) || typed.isPrefixOf spelled

end Name

/-- Why a command line asks for no command. -/
inductive Misuse where
  | unknownCommand (word : Bytes)
  | flag (error : Flag.Error)
  | operands (expected received : Nat)
  | superfluous (word : Bytes) (name : Name)
deriving DecidableEq, Repr

/-- The names a word may be meant as, on lines of their own. -/
def proposal (word : Bytes) : Bytes :=
  let names := Name.proposed.filter fun name => name.resembles word
  if names.isEmpty then []
  else
    Bytes.ofString "\n\nDid you mean this?\n" ++
      names.flatMap fun name => [0x09] ++ Bytes.ofString name.word ++ [0x0a]

/-- The wording of why a command line asks for no command. -/
def Misuse.message : Misuse → Bytes
  | .unknownCommand word =>
    Bytes.ofString "unknown command " ++ word.quoted ++ Bytes.ofString " for " ++
      programName.quoted ++ proposal word
  | .flag error => error.message
  | .operands expected received =>
    Bytes.ofString "accepts " ++ Bytes.ofNat expected ++ Bytes.ofString " arg(s), received " ++
      Bytes.ofNat received
  | .superfluous word name =>
    Bytes.ofString "unknown command " ++ word.quoted ++ Bytes.ofString " for " ++
      (programName ++ [0x20] ++ Bytes.ofString name.word).quoted

/-! ## Flags -/

/-- The values of the flags that all commands share, and those of a command's
own flags. -/
structure Values (σ : Type) where
  help : Bool := false
  verbosity : Int := 0
  own : σ

/-- The flag that makes the program tell more about what it does. -/
def verbose {σ : Type} : Flag (Values σ) :=
  .count "verbose" (some 0x76) (·.verbosity) fun values verbosity => { values with verbosity }

/-- The flags that all commands share. -/
def shared {σ : Type} : List (Flag (Values σ)) :=
  [verbose, .switch "help" (some 0x68) fun values help => { values with help }]

/-- A command's own flag among the shared ones. -/
def lift {σ : Type} (flag : Flag σ) : Flag (Values σ) :=
  { name := flag.name
    letter := flag.letter
    implied := flag.implied
    enter := fun value values => (flag.enter value values.own).map fun own => { values with own } }

/-- The flag of the program itself: whether its version is asked for. -/
def programFlags : List (Flag Bool) :=
  [.switch "version" none fun _ version => version]

/-- The flags for parsing one file. -/
def parseFlags : List (Flag ParseOrder) :=
  [.text "format" (some 0x66) fun order format => { order with format },
    .text "as" none fun order entry => { order with entry },
    .switch "positions" none fun order positions => { order with positions },
    .switch "stats" none fun order stats => { order with stats },
    .integer "max-depth" none fun order maxDepth => { order with maxDepth }]

/-- The flags for a batch run. A list that is given several times is continued. -/
def checkFlags : List (Flag CheckOrder) :=
  [.text "config" (some 0x63) fun order settingsFile => { order with settingsFile },
    .list "include" none fun order patterns =>
      { order with included := some (order.included.getD [] ++ patterns) },
    .list "exclude" none fun order patterns =>
      { order with excluded := some (order.excluded.getD [] ++ patterns) },
    .integer "jobs" (some 0x6a) fun order jobs => { order with jobs := some jobs },
    .integer "max-depth" none fun order maxDepth => { order with maxDepth := some maxDepth },
    .duration "timeout" none fun order time => { order with unitTimeout := some time }]

/-- The flags for serving an editor; the value is the nesting limit. -/
def serveFlags : List (Flag Int) :=
  [.integer "max-depth" none fun _ maxDepth => maxDepth]

/-! ## Finding the name -/

/-- Before the command is known, a flag without a value of its own is taken to
be followed by one, unless it is a flag with an implied value. -/
def takesNext (word : Bytes) : Bool :=
  let flags : List (Flag (Values Unit)) := [verbose]
  let implied (flag? : Option (Flag (Values Unit))) := (flag?.bind (·.implied)).isSome
  !word.contains Flag.equals &&
    match word with
    | [first, letter] => first = Flag.dash && !implied (Flag.lettered? flags letter)
    | first :: second :: name =>
      first = Flag.dash && second = Flag.dash && !implied (Flag.named? flags name)
    | _ => false

/-- A word that is neither empty nor begins with a dash. -/
def isPlain (word : Bytes) : Bool :=
  !word.isEmpty && word.head? ≠ some Flag.dash

/-- The words that are neither flags nor taken for values of flags. Nothing is
looked for behind a flag whose value may be the last word. -/
def plainWords : List Bytes → List Bytes
  | [] => []
  | [word] => if isPlain word then [word] else []
  | word :: next :: words =>
    if word = Flag.endOfFlags then []
    else if takesNext word then if words.isEmpty then [] else plainWords words
    else if isPlain word then word :: plainWords (next :: words)
    else plainWords (next :: words)

/-- The words without the name of the command. -/
def withoutName (name : Bytes) : List Bytes → List Bytes
  | [] => []
  | [word] => if word = name then [] else [word]
  | word :: next :: words =>
    if word = Flag.endOfFlags then word :: next :: words
    else if takesNext word then word :: next :: withoutName name words
    else if word = name then next :: words
    else word :: withoutName name (next :: words)

/-! ## Reading a command line -/

/-- Reads the words behind the name of a command. Whoever asks for help gets
it. -/
def read {σ : Type} (flags : List (Flag σ)) (initial : σ) (words : List Bytes)
    (finish : σ → List Bytes → Except Misuse Command) : Except Misuse Command := do
  let (values, operands) ←
    (Flag.read (shared ++ flags.map lift) { own := initial } words).mapError .flag
  if values.help then return .help else finish values.own operands

/-- Reads the words behind a name. -/
def Name.read (name : Name) (words : List Bytes) : Except Misuse Command :=
  match name with
  | .parse =>
    Command.read parseFlags {} words fun order operands =>
      match operands with
      | [path] => .ok (.parse path order)
      | _ => .error (.operands 1 operands.length)
  | .check => Command.read checkFlags {} words fun order roots => .ok (.check roots order)
  | .lsp =>
    Command.read serveFlags 1000 words fun maxDepth operands =>
      match operands with
      | [] => .ok (.serve maxDepth)
      | word :: _ => .error (.superfluous word .lsp)
  | .completion | .help => Command.read [] () words fun _ _ => .ok .help

/-- Reads a command line that names no command. -/
def unnamed (words : List Bytes) : Except Misuse Command :=
  read programFlags false words fun version _ => .ok (if version then .version else .help)

/-- Reads a command line. -/
def ofWords (words : List Bytes) : Except Misuse Command :=
  match plainWords words with
  | [] => unnamed words
  | word :: _ =>
    match Name.ofWord? word with
    | some name => name.read (withoutName word words)
    | none => .error (.unknownCommand word)

end Command

end JavaFront
