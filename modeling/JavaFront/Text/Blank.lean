import JavaFront.Text.Ranges
import JavaFront.Text.Utf8

/-!
# Blanks and words

The characters that count as white space in running text, and the words a text
falls into between them.
-/

namespace JavaFront

/-- White space of every script. -/
def blankRanges : Ranges :=
  [(0x0009, 0x000d), (0x0020, 0x0020), (0x0085, 0x0085), (0x00a0, 0x00a0), (0x1680, 0x1680),
   (0x2000, 0x200a), (0x2028, 0x2029), (0x202f, 0x202f), (0x205f, 0x205f), (0x3000, 0x3000)]

/-- The rune is white space. A byte that starts no character never is. -/
def Rune.isBlank (rune : Rune) : Bool :=
  rune.wellFormed && blankRanges.has rune.code

namespace Bytes

/-- The text without the white space at its start. -/
def trimBlankStart (text : Bytes) : Bytes :=
  (text.spelledRunes.dropWhile (·.1.isBlank)).flatMap Prod.snd

/-- The text without the white space at both ends. -/
def trimBlanks (text : Bytes) : Bytes :=
  let runes := (text.spelledRunes.dropWhile (·.1.isBlank)).reverse
  (runes.dropWhile (·.1.isBlank)).reverse.flatMap Prod.snd

/-- Groups spelled runes into words. The word in progress comes first and is
empty between words. -/
def gatherWords : List (Rune × Bytes) → Bytes × List Bytes
  | [] => ([], [])
  | (rune, spelling) :: runes =>
    let (word, words) := gatherWords runes
    if rune.isBlank then ([], if word.isEmpty then words else word :: words)
    else (spelling ++ word, words)

/-- The words of a text: the stretches between white space. -/
def words (text : Bytes) : List Bytes :=
  let (word, words) := gatherWords text.spelledRunes
  if word.isEmpty then words else word :: words

end Bytes

end JavaFront
