/-!
# Blank characters

A character is *blank* when it has the Unicode property `White_Space`.  That is
more than the six ASCII blanks: the next-line character, the no-break space,
the typographic spaces and the ideographic space are blank too, and the
zero-width space is not.

Trimming and word splitting are stated with this class.  Texts are lists of
characters throughout the readers of this library, so that every reader is a
recursion on its input.
-/

namespace MediaTransport.Text

/-- Whether a character has the Unicode property `White_Space`. -/
def isBlank (c : Char) : Bool :=
  let n := c.toNat
  (0x09 ≤ n && n ≤ 0x0D) || n == 0x20 || n == 0x85 || n == 0xA0 || n == 0x1680
    || (0x2000 ≤ n && n ≤ 0x200A) || n == 0x2028 || n == 0x2029 || n == 0x202F
    || n == 0x205F || n == 0x3000

/-- A text without the blanks it starts with. -/
def trimStart (text : List Char) : List Char :=
  text.dropWhile isBlank

/-- A text without the characters of a class that it ends with. -/
def dropEndWhile (p : Char → Bool) (text : List Char) : List Char :=
  (text.reverse.dropWhile p).reverse

/-- A text without the blanks it ends with. -/
def trimEnd (text : List Char) : List Char :=
  dropEndWhile isBlank text

/-- A text without the blanks at its two ends. -/
def trim (text : List Char) : List Char :=
  trimEnd (trimStart text)

/-- The maximal runs of characters that are not blank, in order. -/
def words (text : List Char) : List (List Char) :=
  (text.splitOnP isBlank).filter fun word => !word.isEmpty

/-- Whether a text has no character that is not blank. -/
def isAllBlank (text : List Char) : Bool :=
  text.all isBlank

end MediaTransport.Text
