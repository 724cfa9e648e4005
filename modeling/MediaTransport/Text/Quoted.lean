import MediaTransport.Text.Unprintable

/-!
# Quoted texts

Error messages quote the text they are about.  A quoted text stands in double
quotes on one line: the tab, the line ends, the null character, the double quote
and the backslash have short escapes, and every other unprintable character is
written as its number in braces.  An apostrophe needs no escape.
-/

namespace MediaTransport.Text

/-- A character inside quotes. -/
def quotedChar (c : Char) : List Char :=
  if c = '\t' then ['\\', 't']
  else if c = '\n' then ['\\', 'n']
  else if c = '\r' then ['\\', 'r']
  else if c = '\x00' then ['\\', '0']
  else if c = '"' then ['\\', '"']
  else if c = '\\' then ['\\', '\\']
  else if isUnprintable c then
    ['\\', 'u', '\x7b'] ++ Nat.toDigits 16 c.toNat ++ ['\x7d']
  else [c]

/-- A text in quotes. -/
def quoted (text : String) : String :=
  String.ofList ('"' :: text.toList.flatMap quotedChar ++ ['"'])

end MediaTransport.Text
