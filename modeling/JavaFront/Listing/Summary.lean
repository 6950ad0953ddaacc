import JavaFront.Text.Blank

/-!
# Summaries of documentation comments

The summary of a documentation comment is its first sentence: the comment
markers and the asterisks at the start of each line are dropped, a block tag
ends the text, and the sentence ends at the first period that a blank follows.
-/

namespace JavaFront

/-- A line of a comment without the blanks around it and the asterisks it
starts with. -/
def commentLine (line : Bytes) : Bytes :=
  line.trimBlanks.dropWhile (· = 0x2a)

/-- The line starts a block tag. -/
def isBlockTag (line : Bytes) : Bool :=
  line.trimBlanks.head? = some 0x40

/-- The comment without its opening and closing markers. -/
def commentInside (comment : Bytes) : Bytes :=
  let opened := (Bytes.after? "/**" comment).getD comment
  (Bytes.before? "*/" opened).getD opened

/-- The words of a comment up to the first block tag. -/
def commentWords (comment : Bytes) : List Bytes :=
  let lines := ((commentInside comment).splitOn 0x0a).map commentLine
  (lines.takeWhile fun line => !isBlockTag line).flatMap Bytes.words

/-- The first sentence of a documentation comment. -/
def docSummary (comment : Bytes) : Bytes :=
  let text := Bytes.join [0x20] (commentWords comment)
  match Bytes.find? ". " text with
  | some index => text.take (index + 1)
  | none => text

end JavaFront
