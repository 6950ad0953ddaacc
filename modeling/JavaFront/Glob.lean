import JavaFront.Text.Utf8

/-!
# Patterns for paths

A glob describes slash-separated paths. A star stands for any stretch of one
segment, a question mark for one character of a segment, brackets for one
character of a class, and braces for one of several alternatives. Two stars
that fill a segment stand for any number of segments.

Matching reads the pattern and the path from left to right. It remembers the
last star and the last double star, and where reading fails it resumes behind
one of them with the star taking in more of the path. Braces are read by trying
the patterns in which each alternative takes the group's place.
-/

namespace JavaFront.Glob

/-! ## Bytes with a meaning -/

abbrev slash : UInt8 := 0x2f
abbrev star : UInt8 := 0x2a
abbrev question : UInt8 := 0x3f
abbrev backslash : UInt8 := 0x5c
abbrev comma : UInt8 := 0x2c
abbrev hyphen : UInt8 := 0x2d
abbrev openBracket : UInt8 := 0x5b
abbrev closeBracket : UInt8 := 0x5d
abbrev openBrace : UInt8 := 0x7b
abbrev closeBrace : UInt8 := 0x7d

/-- A byte that turns a class into its complement when it stands first. -/
def isNegation (byte : UInt8) : Bool :=
  byte = 0x21 || byte = 0x5e

/-! ## Well-formed patterns -/

/-- A class that starts behind its opening bracket with this text has a first
member. -/
def hasMember (text : Bytes) : Bool :=
  let members := if (text.head?.map isNegation).getD false then text.drop 1 else text
  !members.isEmpty && members.head? ≠ some closeBracket

/-- Every escape, class and group that is open or opens in the text is
completed in it. -/
def isComplete : (inClass : Bool) → (depth : Nat) → Bytes → Bool
  | inClass, depth, [] => !inClass && depth = 0
  | inClass, depth, [byte] =>
    if inClass then byte = closeBracket && depth = 0
    else if byte = closeBrace then depth = 1
    else depth = 0 && byte ≠ backslash && byte ≠ openBracket && byte ≠ openBrace
  | inClass, depth, byte :: next :: rest =>
    if byte = backslash then isComplete inClass depth rest
    else if inClass then isComplete (byte ≠ closeBracket) depth (next :: rest)
    else if byte = openBracket then hasMember (next :: rest) && isComplete true depth (next :: rest)
    else if byte = openBrace then isComplete false (depth + 1) (next :: rest)
    else if byte = closeBrace then depth ≠ 0 && isComplete false (depth - 1) (next :: rest)
    else isComplete false depth (next :: rest)

/-- The pattern is well formed. -/
def isValid (pattern : Bytes) : Bool :=
  isComplete false 0 pattern

/-! ## Groups and classes -/

/-- Puts bytes in front of the first of several texts. -/
def extendFirst (bytes : Bytes) : List Bytes → List Bytes
  | [] => [bytes]
  | first :: others => (bytes ++ first) :: others

/-- The alternatives of a group and the text behind it, from behind its opening
brace; `depth` groups are open inside it. -/
def alternatives? : (depth : Nat) → Bytes → Option (List Bytes × Bytes)
  | _, [] => none
  | depth, byte :: rest =>
    let keep (bytes : Bytes) : List Bytes × Bytes → List Bytes × Bytes :=
      fun (texts, behind) => (extendFirst bytes texts, behind)
    if byte = backslash then
      match rest with
      | [] => none
      | escaped :: rest => (alternatives? depth rest).map (keep [byte, escaped])
    else if byte = openBrace then (alternatives? (depth + 1) rest).map (keep [byte])
    else if byte = closeBrace then
      match depth with
      | 0 => some ([[]], rest)
      | depth + 1 => (alternatives? depth rest).map (keep [byte])
    else if byte = comma && depth = 0 then
      (alternatives? 0 rest).map fun (texts, behind) => ([] :: texts, behind)
    else (alternatives? depth rest).map (keep [byte])

/-- The text behind the first closing bracket that no backslash precedes. -/
def behindClass? : Bytes → Option Bytes
  | [] => none
  | byte :: rest =>
    if byte = backslash then
      match rest with
      | [] => none
      | _ :: rest => behindClass? rest
    else if byte = closeBracket then some rest
    else behindClass? rest

/-- The bytes that runes cover. -/
def spelling (runes : List (Rune × Bytes)) : Bytes :=
  runes.flatMap Prod.snd

/-- No character stands for itself before a range with this lower end. -/
def noLower : Nat := 0x10ffff

/-- Whether one of the members of a class is the given character, and the text
where the search for it stopped. `lower` is the member just read, from which a
hyphen makes a range. -/
def findMember (code : Nat) : (lower : Nat) → List (Rune × Bytes) → Bool × Bytes
  | _, [] => (false, [])
  | lower, (rune, bytes) :: rest =>
    if rune.code = closeBracket.toNat then (false, spelling ((rune, bytes) :: rest))
    else
      match rest with
      | [] => (rune.code = code, [])
      | (next, nextBytes) :: rest =>
        if lower < noLower && rune.code = hyphen.toNat && next.code ≠ closeBracket.toNat then
          if next.code = backslash.toNat then
            match rest with
            | [] => (false, [])
            | (upper, _) :: rest =>
              if lower ≤ code && code ≤ upper.code then (true, spelling rest)
              else findMember code noLower rest
          else if lower ≤ code && code ≤ next.code then (true, spelling rest)
          else findMember code noLower rest
        else if rune.code = backslash.toNat then
          if next.code = code then (true, spelling rest) else findMember code next.code rest
        else if rune.code = code then (true, spelling ((next, nextBytes) :: rest))
        else findMember code rune.code ((next, nextBytes) :: rest)

/-- What became of reading a class: the pattern behind it, the pattern where
the class was left without a match, or nothing because it is malformed. -/
inductive ClassReading where
  | hit (behind : Bytes)
  | miss (left : Bytes)
  | malformed
deriving DecidableEq, Repr

/-- Reads a class, from behind its opening bracket, against one character. -/
def readClass (text : Bytes) (code : Nat) : ClassReading :=
  if !hasMember text then .malformed
  else
    let negated := (text.head?.map isNegation).getD false
    let members : Bytes := if negated then text.drop 1 else text
    let (found, left) := findMember code noLower members.spelledRunes
    if found = negated then if left.isEmpty then .malformed else .miss left
    else
      match behindClass? left with
      | none => .malformed
      | some behind => .hit behind

/-! ## Matching -/

/-- The outcome of a match. A malformed pattern is often noticed only where
the path no longer agrees with it. -/
inductive Verdict where
  | agrees | differs | malformed
deriving DecidableEq, Repr

/-- What is left to read of a pattern and of a path. -/
structure Reading where
  pattern : Bytes
  path : Bytes
deriving DecidableEq, Repr

/-- A match under way: what is left to read, where to resume behind the last
star and the last double star, whether the pattern is at the start of a
segment, and whether a backslash was the last byte read from it. -/
structure Attempt extends Reading where
  behindStar : Option Reading := none
  behindDouble : Option Reading := none
  segmentStart : Bool := true
  afterBackslash : Bool := false
deriving DecidableEq, Repr

/-- One step of a match. -/
inductive Step where
  | next (attempt : Attempt)
  | fork (attempts : List Attempt)
  | done (verdict : Verdict)

/-- The rune at the front of a text, if there is one. -/
def front? : Bytes → Option Rune
  | [] => none
  | byte :: rest => some (Rune.decode byte rest)

/-- The path behind its next slash. -/
def nextSegment? : Bytes → Option Bytes
  | [] => none
  | byte :: rest => if byte = slash then some rest else nextSegment? rest

/-- A pattern that agrees with the empty path, groups apart. -/
def agreesWithEmpty (pattern : Bytes) : Bool :=
  ["", "*", "**", "/**", "**/", "/**/"].any fun text => Bytes.ofString text = pattern

/-- The verdict on the first thing that is not a difference; without one there
is a difference. -/
def firstDecided {α : Type} (verdict : α → Verdict) : List α → Verdict
  | [] => .differs
  | thing :: things =>
    match verdict thing with
    | .differs => firstDecided verdict things
    | decided => decided

/-- The verdict on a pattern that is left when the path has been read. A group
in front is left if one of its alternatives with what follows is left. -/
def atEnd : (fuel : Nat) → (pattern : Bytes) → Verdict
  | 0, _ => .malformed
  | fuel + 1, pattern =>
    if agreesWithEmpty pattern then .agrees
    else
      match pattern with
      | [] => .agrees
      | byte :: rest =>
        if byte = openBrace then
          match alternatives? 0 rest with
          | none => .malformed
          | some (texts, behind) => firstDecided (atEnd fuel) (texts.map (· ++ behind))
        else if isValid pattern then .differs
        else .malformed

/-- Resumes where reading failed: behind the last star if it can take in one
more character, else behind the last double star with one more segment taken
in. If neither can, the rest of the pattern decides between a difference and a
malformed pattern. -/
def Attempt.retreat (attempt : Attempt) (left : Bytes) : Step :=
  let behindDouble : Step :=
    match attempt.behindDouble.bind fun saved =>
        (nextSegment? saved.path).map fun path => ({ saved with path } : Reading) with
    | some saved =>
      .next { attempt with
        toReading := saved
        behindDouble := some saved
        segmentStart := true
        afterBackslash := false }
    | none => .done (if isValid left then .differs else .malformed)
  match attempt.behindStar with
  | none => behindDouble
  | some saved =>
    match front? saved.path with
    | none => behindDouble
    | some rune =>
      if rune.code = slash.toNat then behindDouble
      else
        let resumed : Reading := { saved with path := saved.path.drop rune.size }
        .next { attempt with
          toReading := resumed
          behindStar := some resumed
          segmentStart := false
          afterBackslash := false }

/-- The attempt after `pattern` has been taken for a rune of the path. -/
def Attempt.pass (attempt : Attempt) (pattern : Bytes) (rune : Rune)
    (segmentStart afterBackslash : Bool := false) : Attempt :=
  { attempt with
    pattern
    path := attempt.path.drop rune.size
    segmentStart
    afterBackslash }

/-- Reads a star; `rest` stands behind it. -/
def Attempt.atStar (attempt : Attempt) (rest : Bytes) : Step :=
  let single (pattern : Bytes) : Step :=
    let saved : Reading := ⟨pattern, attempt.path⟩
    .next { attempt with
      pattern
      behindStar := some saved
      segmentStart := false
      afterBackslash := false }
  match rest with
  | [] => single []
  | byte :: behind =>
    if byte ≠ star then single rest
    else if !attempt.segmentStart then single behind
    else
      match behind with
      | [] => .done .agrees
      | byte :: segment =>
        if byte ≠ slash then single behind
        else
          .next { attempt with
            pattern := segment
            behindStar := none
            behindDouble := some ⟨segment, attempt.path⟩
            afterBackslash := false }

/-- A saved reading of the pattern in which the text from the group on has been
replaced. -/
def Reading.splice (saved : Reading) (group replaced : Bytes) : Reading :=
  { saved with pattern := saved.pattern.take (saved.pattern.length - group.length) ++ replaced }

/-- Reads a group; `rest` stands behind its opening brace. Each alternative is
tried in the group's place. -/
def Attempt.atGroup (attempt : Attempt) (rest : Bytes) : Step :=
  match alternatives? 0 rest with
  | none => .done .malformed
  | some (texts, behind) =>
    .fork (texts.map fun text =>
      let replaced := text ++ behind
      { attempt with
        pattern := replaced
        behindStar := attempt.behindStar.map (·.splice attempt.pattern replaced)
        behindDouble := attempt.behindDouble.map (·.splice attempt.pattern replaced)
        segmentStart := true })

/-- Reads a character that stands for itself at the front of `text`, the part of
the pattern from that character on. -/
def Attempt.atLiteral (attempt : Attempt) (text : Bytes) (escaped : Bool) (rune : Rune) : Step :=
  match front? text with
  | none => .done .malformed
  | some own =>
    if own.code = rune.code then
      .next (attempt.pass (text.drop own.size) rune (own.code = slash.toNat)
        (own.code = backslash.toNat))
    else attempt.retreat (if escaped || attempt.afterBackslash then backslash :: text else text)

/-- One step of a match. -/
def Attempt.step (attempt : Attempt) : Step :=
  match front? attempt.path with
  | none => .done (atEnd (attempt.pattern.length + 1) attempt.pattern)
  | some rune =>
    match attempt.pattern with
    | [] => attempt.retreat []
    | byte :: rest =>
      if byte = star then attempt.atStar rest
      else if byte = question then
        if rune.code = slash.toNat then attempt.retreat attempt.pattern
        else .next (attempt.pass rest rune)
      else if byte = openBracket then
        match readClass rest rune.code with
        | .hit behind => .next (attempt.pass behind rune)
        | .miss left => attempt.retreat left
        | .malformed => .done .malformed
      else if byte = openBrace then attempt.atGroup rest
      else if byte = backslash then attempt.atLiteral rest true rune
      else attempt.atLiteral attempt.pattern false rune

/-- Carries a match to its end in at most `fuel` steps on any branch. -/
def run : (fuel : Nat) → Attempt → Verdict
  | 0, _ => .malformed
  | fuel + 1, attempt =>
    match attempt.step with
    | .done verdict => verdict
    | .next attempt => run fuel attempt
    | .fork attempts => firstDecided (run fuel) attempts

/-- More steps than any match takes. Between two groups each step shortens the
pattern or, at a fixed place behind a star and behind a double star, the path. -/
def enoughSteps (pattern path : Bytes) : Nat :=
  Nat.pow (pattern.length + 2) 4 * Nat.pow (path.length + 2) 2

/-- The verdict on a pattern and a path. -/
def verdict (pattern path : Bytes) : Verdict :=
  run (enoughSteps pattern path) { pattern, path }

/-- The pattern describes the path. A malformed pattern describes none. -/
def describes (pattern path : Bytes) : Bool :=
  verdict pattern path = .agrees

/-- A language of patterns: which texts are well-formed patterns, and which paths a
pattern describes. -/
structure Language where
  isValid : (pattern : Bytes) → Bool
  describes : (pattern path : Bytes) → Bool

/-- One of the patterns describes the path. -/
def Language.anyDescribes (globs : Language) (patterns : List Bytes) (path : Bytes) : Bool :=
  patterns.any fun pattern => globs.describes pattern path

/-- The language of the patterns in this file. -/
def language : Language :=
  { isValid, describes }

end JavaFront.Glob
