/-!
# Cutting texts

The formats of this library separate their parts by single characters.  A
reader cuts a text at the first or at the last separator, takes a fixed opening
off, or splits the text into lines.  A cut drops the separator and is refused
when there is none.
-/

namespace MediaTransport.Text

/-- The parts before and after the first character of a class. -/
def cutWhere? (p : Char → Bool) (text : List Char) : Option (List Char × List Char) :=
  match text.dropWhile fun c => !p c with
  | [] => none
  | _ :: after => some (text.takeWhile fun c => !p c, after)

/-- The parts before and after the first occurrence of a separator. -/
def cut? (separator : Char) (text : List Char) : Option (List Char × List Char) :=
  cutWhere? (· == separator) text

/-- The parts before and after the last occurrence of a separator. -/
def cutLast? (separator : Char) (text : List Char) : Option (List Char × List Char) :=
  (cut? separator text.reverse).map fun (after, before) => (before.reverse, after.reverse)

/-- The part before the first occurrence of a separator, or all of the text. -/
def before (separator : Char) (text : List Char) : List Char :=
  text.takeWhile (· != separator)

/-- What follows a fixed opening. -/
def afterOpening? : (opening text : List Char) → Option (List Char)
  | [], text => some text
  | _ :: _, [] => none
  | o :: opening, c :: text => if o = c then afterOpening? opening text else none

/-- What precedes a fixed last character. -/
def beforeLast? (last : Char) (text : List Char) : Option (List Char) :=
  if text.getLast? = some last then some text.dropLast else none

/-- Equality up to the case of ASCII letters; other letters keep their case. -/
def equalsIgnoringCase (a b : List Char) : Bool :=
  a.map Char.toLower == b.map Char.toLower

/-- A line that ended in a newline, without the carriage return before it. -/
def withoutReturn (line : List Char) : List Char :=
  (beforeLast? '\r' line).getD line

/-- The lines of a text.  Each ends in a newline, with at most one carriage
return before it; a last line without a newline counts when it is not empty,
and keeps its carriage return. -/
def lines (text : List Char) : List (List Char) :=
  let pieces := text.splitOn '\n'
  pieces.dropLast.map withoutReturn ++ (pieces.getLast?.filter fun line => !line.isEmpty).toList

/-- Pieces joined by a separator. -/
def joinWith (separator : Char) (pieces : List String) : String :=
  String.intercalate (String.singleton separator) pieces

end MediaTransport.Text
