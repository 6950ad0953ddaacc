import JavaFront.Yaml.Cursor

/-!
# Spellings of scalars

A scalar is written plain, between single or double quotes, or as a block of
indented lines. Lines are folded: a single line end inside a plain or quoted
scalar counts as a blank, and of several in a row the first is dropped. In a
literal block every line end is kept; in a folded one those between lines that
do not start with a blank are folded too.

While a scalar is read, its text is kept with the last character first.
-/

namespace JavaFront.Yaml

open CursorM

/-! ## Gaps between words -/

/-- The blanks and line ends between two words of a scalar: the blanks before
the first line end, that line end, those after it, and whether there is any. All
are kept with the last character first. -/
structure Gap where
  blanks : List Char := []
  first : List Char := []
  others : List Char := []
  broken : Bool := false
deriving DecidableEq, Repr

/-- What a gap counts as in the text, the last character first. -/
def Gap.folded (gap : Gap) : List Char :=
  if !gap.broken then gap.blanks
  else if gap.first.getLast? = some '\n' then
    if gap.others.isEmpty then [' '] else gap.others
  else gap.others ++ gap.first

/-- Reads the gap before the next word. A tab left of column `indent` of a
further line is refused in a scalar that starts at a place. -/
def readGap (start : Mark) (indent : Int) : (fuel : Nat) → Gap → CursorM Gap
  | 0, gap => return gap
  | fuel + 1, gap => do
    let cursor ← get
    match cursor.peek with
    | none => return gap
    | some c =>
      if isBlank c then
        if gap.broken && c = '\t' && cursor.mark.column < indent then
          fail start "found a tab character that violates indentation"
        pass
        need 1
        readGap start indent fuel
          (if gap.broken then gap else { gap with blanks := c :: gap.blanks })
      else if isBreak c then
        let line ← takeBreak
        need 1
        readGap start indent fuel
          (if gap.broken then { gap with others := line ++ gap.others }
          else { gap with blanks := [], first := line ++ gap.first, broken := true })
      else return gap

/-! ## Plain scalars -/

/-- Characters that end a plain scalar between brackets or braces. -/
def isFlowEnd (c : Char) : Bool :=
  c = ',' || c = '?' || c = '[' || c = ']' || c = '\x7b' || c = '\x7d'

/-- Reads a word of a plain scalar behind a gap: up to a blank, a colon before a
blank and, between brackets, an indicator. -/
def plainWord (flow : Bool) :
    (fuel : Nat) → Gap → (text : List Char) → CursorM (Gap × List Char)
  | 0, gap, text => return (gap, text)
  | fuel + 1, gap, text => do
    let cursor ← get
    match cursor.peek with
    | none => return (gap, text)
    | some c =>
      if isBlank c || isBreak c || (c = ':' && cursor.atGap 1) || (flow && isFlowEnd c) then
        return (gap, text)
      else
        pass
        need 2
        plainWord flow fuel {} (c :: (gap.folded ++ text))

/-- Reads the words of a plain scalar, from behind `text` and a gap, and tells
whether a line ended behind the last one. -/
def plainFrom (indent : Int) (flow : Bool) (start : Mark) :
    (fuel : Nat) → Gap → (text : List Char) → CursorM (List Char × Bool)
  | 0, gap, text => return (text, gap.broken)
  | steps + 1, gap, text => do
    need 4
    if (← get).atAnyDocumentMark || (← get).sees '#' then return (text, gap.broken)
    else
      let (gap, text) ← plainWord flow (← fuel) gap text
      if !((← get).atBlank || (← get).atBreak) then return (text, gap.broken)
      else
        need 1
        let gap ← readGap start indent (← fuel) gap
        if !flow && ((← place).column : Int) < indent then return (text, gap.broken)
        else plainFrom indent flow start steps gap text

/-- Reads a plain scalar, and tells whether a line ended behind its last word.
Outside brackets its further lines are indented by at least `indent` columns. -/
def readPlain (indent : Int) (flow : Bool) : CursorM (List Char × Bool) := do
  let (text, broken) ← plainFrom indent flow (← place) (← fuel) {} []
  return (text.reverse, broken)

/-! ## Quoted scalars -/

/-- The character that an escape letter stands for. -/
def escaped? : Char → Option Char
  | '0' => some '\x00'
  | 'a' => some '\x07'
  | 'b' => some '\x08'
  | 't' => some '\t'
  | '\t' => some '\t'
  | 'n' => some '\n'
  | 'v' => some '\x0b'
  | 'f' => some '\x0c'
  | 'r' => some '\r'
  | 'e' => some '\x1b'
  | ' ' => some ' '
  | '"' => some '"'
  | '\'' => some '\''
  | '\\' => some '\\'
  | 'N' => some '\u0085'
  | '_' => some '\u00a0'
  | 'L' => some '\u2028'
  | 'P' => some '\u2029'
  | _ => none

/-- The number of hexadecimal digits behind an escape letter. -/
def codeLength : Char → Nat
  | 'x' => 2
  | 'u' => 4
  | 'U' => 8
  | _ => 0

/-- The number that hexadecimal digits spell, if all of them are digits and
there are as many as asked for. -/
def hexNumber? : (count : Nat) → (value : Nat) → List Char → Option Nat
  | 0, value, _ => some value
  | _ + 1, _, [] => none
  | count + 1, value, c :: rest =>
    match hexValue? c with
    | none => none
    | some digit => hexNumber? count (value * 16 + digit) rest

/-- Reads an escape. -/
def readEscape (start : Mark) : CursorM Char := do
  match (← get).peek 1 with
  | none => fail start "found unknown escape character"
  | some letter =>
    match escaped? letter with
    | some c =>
      passMany 2
      return c
    | none =>
      let count := codeLength letter
      if count = 0 then fail start "found unknown escape character"
      else
        passMany 2
        need count
        match hexNumber? count 0 (← get).ahead with
        | none => fail start "did not find expected hexdecimal number"
        | some code =>
          if (0xd800 ≤ code && code ≤ 0xdfff) || 0x10ffff < code then
            fail start "found invalid Unicode character escape code"
          else
            passMany count
            return Char.ofNat code

/-- Reads a word of a quoted scalar behind `text`, and tells whether an escaped
line end stopped it. -/
def quotedWord (single : Bool) (start : Mark) :
    (fuel : Nat) → (text : List Char) → CursorM (List Char × Bool)
  | 0, text => return (text, false)
  | fuel + 1, text => do
    let cursor ← get
    match cursor.peek with
    | none => return (text, false)
    | some c =>
      if isBlank c || isBreak c then return (text, false)
      else if single && c = '\'' && cursor.sees '\'' 1 then
        passMany 2
        need 2
        quotedWord single start fuel ('\'' :: text)
      else if c = (if single then '\'' else '"') then return (text, false)
      else if !single && c = '\\' && cursor.atBreak 1 then
        need 3
        pass
        passBreak
        return (text, true)
      else if !single && c = '\\' then
        let value ← readEscape start
        need 2
        quotedWord single start fuel (value :: text)
      else
        pass
        need 2
        quotedWord single start fuel (c :: text)

/-- Reads a quoted scalar from behind `text`. -/
def quotedFrom (single : Bool) (start : Mark) :
    (fuel : Nat) → (text : List Char) → CursorM (List Char)
  | 0, text => return text
  | steps + 1, text => do
    need 4
    if (← get).atAnyDocumentMark then fail start "found unexpected document indicator"
    else if (← get).atEnd then fail start "found unexpected end of stream"
    else
      let (text, broken) ← quotedWord single start (← fuel) text
      need 1
      if (← get).sees (if single then '\'' else '"') then
        pass
        return text
      else
        let gap ← readGap start 0 (← fuel) { broken }
        quotedFrom single start steps (gap.folded ++ text)

/-- Reads a scalar between single or double quotes. -/
def readQuoted (single : Bool) : CursorM (List Char) := do
  let start ← place
  pass
  return (← quotedFrom single start (← fuel) []).reverse

/-! ## Blocks -/

/-- What becomes of the line ends at the end of a block. -/
inductive Chomping where
  | strip | clip | keep
deriving DecidableEq, Repr

/-- Reads the mark of what becomes of the last line ends, if there is one. -/
def readChomping : CursorM (Option Chomping) := do
  need 1
  if (← get).sees '+' then
    pass
    return some .keep
  else if (← get).sees '-' then
    pass
    return some .strip
  else return none

/-- Reads the digit of an indentation; zero if there is none. -/
def readIncrement (start : Mark) : CursorM Nat := do
  need 1
  match (← get).peek with
  | none => return 0
  | some c =>
    if !c.isDigit then return 0
    else if c = '0' then fail start "found an indentation indicator equal to 0"
    else
      pass
      return c.toNat - 48

/-- Reads the marks behind the bar or angle of a block, in either order: what
becomes of its last line ends, and its indentation. -/
def readBlockMarks (start : Mark) : CursorM (Chomping × Nat) := do
  match ← readChomping with
  | some chomping => return (chomping, ← readIncrement start)
  | none =>
    let increment ← readIncrement start
    if increment = 0 then return (.clip, 0)
    else return ((← readChomping).getD .clip, increment)

/-- Passes the blanks at the start of a line up to column `indent`, or all if that
is zero. -/
def passIndentation (indent : Nat) : (fuel : Nat) → CursorM Unit
  | 0 => pure ()
  | fuel + 1 => do
    let cursor ← get
    if (indent = 0 || cursor.mark.column < indent) && cursor.sees ' ' then
      pass
      need 1
      passIndentation indent fuel

/-- Reads the indentation of the next line with a text, and the empty lines
before it. Without an indentation known before, `widest` is the widest met. -/
def blockGap (start : Mark) (indent : Nat) :
    (fuel : Nat) → (lines : List Char) → (widest : Nat) → CursorM (List Char × Nat)
  | 0, lines, widest => return (lines, widest)
  | steps + 1, lines, widest => do
    need 1
    passIndentation indent (← fuel)
    let cursor ← get
    let widest := max widest cursor.mark.column
    if (indent = 0 || cursor.mark.column < indent) && cursor.sees '\t' then
      fail start "found a tab character where an indentation space is expected"
    else if cursor.atBreak then
      let line ← takeBreak
      blockGap start indent steps (line ++ lines) widest
    else return (lines, widest)

/-- Reads the lines of a block that are indented by `indent`. `last` is the line
end of the line before, `lines` are those of empty lines after it, and `led`
says whether that line started with a blank. -/
def blockFrom (literal : Bool) (chomping : Chomping) (start : Mark) (indent : Nat) :
    (fuel : Nat) → (text last lines : List Char) → (led : Bool) → CursorM (List Char)
  | 0, text, _, _, _ => return text
  | steps + 1, text, last, lines, led => do
    let cursor ← get
    if cursor.mark.column = indent && !cursor.atEnd then
      let blank := cursor.atBlank
      let joint :=
        if !literal && !led && !blank && last.getLast? = some '\n' then
          if lines.isEmpty then [' '] else []
        else last
      let text ← takeWhileFrom (fun c => !isBreak c) (← fuel) (lines ++ joint ++ text)
      let last ← takeBreak
      let (lines, _) ← blockGap start indent (← fuel) [] 0
      blockFrom literal chomping start indent steps text last lines blank
    else
      let text := if chomping = .strip then text else last ++ text
      return if chomping = .keep then lines ++ text else text

/-- Reads a block scalar in a construct indented by `outer`. -/
def readBlock (literal : Bool) (outer : Int) : CursorM (List Char) := do
  let start ← place
  pass
  let (chomping, increment) ← readBlockMarks start
  passBlanks
  if (← get).sees '#' then passLine
  if !(← get).atLineEnd then fail start "did not find expected comment or line break"
  if (← get).atBreak then passBreak
  let given := if increment = 0 then 0 else (max outer 0).toNat + increment
  let (lines, widest) ← blockGap start given (← fuel) [] 0
  let indent := if given = 0 then max (max widest (outer + 1).toNat) 1 else given
  need 1
  return (← blockFrom literal chomping start indent (← fuel) [] [] lines false).reverse

end JavaFront.Yaml
