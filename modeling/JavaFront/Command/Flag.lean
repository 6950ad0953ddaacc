import JavaFront.Text.Csv
import JavaFront.Text.Duration
import JavaFront.Text.Quoted

/-!
# Flags

A flag has a name and perhaps a letter. On a command line it is written as
`--name value`, `--name=value`, `-n value`, `-nvalue` or `-n=value`. A flag with
an implied value takes no value from the next word, so that the letters of
several such flags may stand behind one dash. Flags and operands may be mixed; a
word of two dashes ends the flags.

`Flag.read` reads all words of a command line into a record of values and the
operands that are left.
-/

namespace JavaFront

/-- Why a flag refuses a value. -/
inductive Flag.Fault where
  | truth
  | number (fault : NumberFault)
  | duration (fault : Duration.Fault)
  | list (fault : Csv.Fault)
deriving DecidableEq, Repr

/-- The wording of why a flag refuses a value. -/
def Flag.Fault.message (value : Bytes) : Flag.Fault → Bytes
  | .truth =>
    Bytes.ofString "strconv.ParseBool: parsing " ++ value.quoted ++
      Bytes.ofString ": invalid syntax"
  | .number fault =>
    Bytes.ofString "strconv.ParseInt: parsing " ++ value.quoted ++ Bytes.ofString ": " ++
      Bytes.ofString fault.message
  | .duration fault => fault.message value
  | .list fault => fault.message

/-- A flag that enters its values into a record. -/
structure Flag (σ : Type) where
  name : String
  letter : Option UInt8 := none
  implied : Option String := none
  enter : Bytes → σ → Except Flag.Fault σ

/-- Why the words of a command line cannot be read. A group is what stands
behind a single dash. -/
inductive Flag.Error where
  | malformed (word : Bytes)
  | unknown (name : Bytes)
  | unknownLetter (letter : UInt8) (group : Bytes)
  | noValue (name : Bytes)
  | noLetterValue (letter : UInt8) (group : Bytes)
  | refused (name : String) (letter : Option UInt8) (value : Bytes) (fault : Flag.Fault)
deriving DecidableEq, Repr

namespace Flag

abbrev dash : UInt8 := 0x2d
abbrev equals : UInt8 := 0x3d

/-- The word that ends the flags. -/
def endOfFlags : Bytes := "--"

/-- A letter in a message. Of a letter that is no character by itself, the first
byte of its encoding is shown. -/
def showLetter (letter : UInt8) : Bytes :=
  Bytes.quotedCharacter (((Rune.encode letter.toNat).headD letter).toNat)

/-- A flag in a message: its letter, if it has one, and its name. -/
def display (name : String) (letter : Option UInt8) : Bytes :=
  ((letter.map fun letter => [dash, letter] ++ Bytes.ofString ", ").getD []) ++
    Bytes.ofString "--" ++ Bytes.ofString name

/-- The wording of why words cannot be read. -/
def Error.message : Error → Bytes
  | .malformed word => Bytes.ofString "bad flag syntax: " ++ word
  | .unknown name => Bytes.ofString "unknown flag: --" ++ name
  | .unknownLetter letter group =>
    Bytes.ofString "unknown shorthand flag: " ++ showLetter letter ++ Bytes.ofString " in -" ++
      group
  | .noValue name => Bytes.ofString "flag needs an argument: --" ++ name
  | .noLetterValue letter group =>
    Bytes.ofString "flag needs an argument: " ++ showLetter letter ++ Bytes.ofString " in -" ++
      group
  | .refused name letter value fault =>
    Bytes.ofString "invalid argument " ++ value.quoted ++ Bytes.ofString " for " ++
      (display name letter).quoted ++ Bytes.ofString " flag: " ++ fault.message value

/-! ## Kinds of flags -/

section Kinds

variable {σ : Type}

/-- A flag whose value is any text. -/
def text (name : String) (letter : Option UInt8) (change : σ → Bytes → σ) : Flag σ :=
  { name, letter, enter := fun value record => .ok (change record value) }

/-- The truth value a text spells. -/
def truth? (text : Bytes) : Option Bool :=
  if ["1", "t", "T", "TRUE", "true", "True"].any fun word => Bytes.ofString word = text then
    some true
  else if ["0", "f", "F", "FALSE", "false", "False"].any fun word => Bytes.ofString word = text
  then some false
  else none

/-- A flag that is on or off, and on if it has no value. -/
def switch (name : String) (letter : Option UInt8) (change : σ → Bool → σ) : Flag σ :=
  { name
    letter
    implied := some "true"
    enter := fun value record =>
      match truth? value with
      | some truth => .ok (change record truth)
      | none => .error .truth }

/-- A flag whose value is an integer. -/
def integer (name : String) (letter : Option UInt8) (change : σ → Int → σ) : Flag σ :=
  { name
    letter
    enter := fun value record => (value.toInt.map (change record)).mapError .number }

/-- A flag that counts how often it is given. -/
def count (name : String) (letter : Option UInt8) (get : σ → Int) (change : σ → Int → σ) :
    Flag σ :=
  { name
    letter
    implied := some "+1"
    enter := fun value record =>
      if value = Bytes.ofString "+1" then .ok (change record (get record + 1))
      else (value.toInt.map (change record)).mapError .number }

/-- A flag whose value is a span of time. -/
def duration (name : String) (letter : Option UInt8) (change : σ → Int → σ) : Flag σ :=
  { name
    letter
    enter := fun value record => (value.toDuration.map (change record)).mapError .duration }

/-- A flag whose value is a list of texts. -/
def list (name : String) (letter : Option UInt8) (change : σ → List Bytes → σ) : Flag σ :=
  { name
    letter
    enter := fun value record => ((Csv.read value).map (change record)).mapError .list }

end Kinds

/-! ## Reading words -/

section Reading

variable {σ : Type}

/-- Enters a value of a flag. -/
def give (flag : Flag σ) (value : Bytes) (record : σ) : Except Error σ :=
  (flag.enter value record).mapError (.refused flag.name flag.letter value)

/-- The flag of a name. -/
def named? (flags : List (Flag σ)) (name : Bytes) : Option (Flag σ) :=
  flags.find? fun flag => Bytes.ofString flag.name = name

/-- The flag of a letter. -/
def lettered? (flags : List (Flag σ)) (letter : UInt8) : Option (Flag σ) :=
  flags.find? fun flag => flag.letter = some letter

/-- What a word of flags comes to: all values are entered, or the last flag waits
for the next word, which has to be there. -/
inductive Progress (σ : Type) where
  | entered (record : σ)
  | waiting (record : σ) (flag : Flag σ) (missing : Error)

/-- Reads a word `--name` or `--name=value`, given without its dashes. -/
def long (flags : List (Flag σ)) (record : σ) (word : Bytes) : Except Error (Progress σ) :=
  let (name, rest) := word.span (· ≠ equals)
  if name.isEmpty || name.head? = some dash then .error (.malformed (endOfFlags ++ word))
  else
    match named? flags name with
    | none => .error (.unknown name)
    | some flag =>
      match rest, flag.implied with
      | _ :: value, _ => (flag.give value record).map .entered
      | [], some value => (flag.give value record).map .entered
      | [], none => .ok (.waiting record flag (.noValue name))

/-- The beginning of the groups that belong to a test run and are passed over. -/
def testGroup : Bytes := "test."

/-- Reads a group of letters. -/
def group (flags : List (Flag σ)) : σ → Bytes → Except Error (Progress σ)
  | record, [] => .ok (.entered record)
  | record, letter :: rest =>
    if testGroup.isPrefixOf (letter :: rest) then .ok (.entered record)
    else
      match lettered? flags letter with
      | none => .error (.unknownLetter letter (letter :: rest))
      | some flag =>
        if rest.head? = some equals && 1 < rest.length then
          (flag.give rest.tail record).map .entered
        else
          match flag.implied with
          | some value =>
            match flag.give value record with
            | .ok record => group flags record rest
            | .error error => .error error
          | none =>
            if rest.isEmpty then .ok (.waiting record flag (.noLetterValue letter [letter]))
            else (flag.give rest record).map .entered

/-- Reads words into a record and the operands among them. A flag that waits for
its value takes the first word. -/
def readFrom (flags : List (Flag σ)) :
    σ → Option (Flag σ × Error) → List Bytes → Except Error (σ × List Bytes)
  | record, none, [] => .ok (record, [])
  | _, some (_, missing), [] => .error missing
  | record, some (flag, _), value :: words => do
    readFrom flags (← flag.give value record) none words
  | record, none, word :: words =>
    let continued : Progress σ → Except Error (σ × List Bytes)
      | .entered record => readFrom flags record none words
      | .waiting record flag missing => readFrom flags record (some (flag, missing)) words
    match word with
    | first :: second :: rest =>
      if first ≠ dash then
        (readFrom flags record none words).map fun (record, operands) => (record, word :: operands)
      else if second ≠ dash then group flags record (second :: rest) >>= continued
      else if rest.isEmpty then .ok (record, words)
      else long flags record rest >>= continued
    | _ =>
      (readFrom flags record none words).map fun (record, operands) => (record, word :: operands)

/-- Reads the words of a command line into a record and the operands among
them. -/
def read (flags : List (Flag σ)) (record : σ) (words : List Bytes) :
    Except Error (σ × List Bytes) :=
  readFrom flags record none words

end Reading

end Flag

end JavaFront
