/-!
# UTF-8

Writing and reading of UTF-8.  The reader takes one byte at a time.  Between
two bytes it either stands between characters or awaits a continuation byte of
a known range, so an overlong form, a surrogate or a value past the last code
point is refused at the first byte that rules it out.  The bytes read up to
there form one *ill-formed run*, and the refused byte is read again as the start
of a character.

`decode?` accepts only well-formed input.  `decodeLossy` puts the replacement
character in the place of each ill-formed run.
-/

namespace MediaTransport.Text.Utf8

/-- The bytes of a text. -/
def encode (text : String) : List UInt8 :=
  text.toUTF8.data.toList

/-- A character of which some bytes are still missing. -/
structure Awaiting where
  /-- How many bytes follow the next one. -/
  more : Nat
  /-- The least next byte. -/
  low : UInt8
  /-- The greatest next byte. -/
  high : UInt8
  /-- The bits read so far. -/
  bits : Nat

/-- What the first byte of a character announces. -/
inductive Lead where
  /-- The byte is a character of its own. -/
  | single (c : Char)
  /-- More bytes have to follow. -/
  | opening (awaiting : Awaiting)
  /-- No character starts with the byte. -/
  | stray

/-- The announcement of a first byte. -/
def Lead.ofByte (b : UInt8) : Lead :=
  if b < 0x80 then .single (Char.ofNat b.toNat)
  else if b < 0xC2 then .stray
  else if b < 0xE0 then .opening ⟨0, 0x80, 0xBF, b.toNat - 0xC0⟩
  else if b = 0xE0 then .opening ⟨1, 0xA0, 0xBF, 0⟩
  else if b = 0xED then .opening ⟨1, 0x80, 0x9F, 13⟩
  else if b < 0xF0 then .opening ⟨1, 0x80, 0xBF, b.toNat - 0xE0⟩
  else if b = 0xF0 then .opening ⟨2, 0x90, 0xBF, 0⟩
  else if b < 0xF4 then .opening ⟨2, 0x80, 0xBF, b.toNat - 0xF0⟩
  else if b = 0xF4 then .opening ⟨2, 0x80, 0x8F, 4⟩
  else .stray

/-- A reader between two bytes. -/
structure Reader where
  /-- The unfinished character, if there is one. -/
  awaiting : Option Awaiting
  /-- The characters read, newest first, with `none` for an ill-formed run. -/
  done : List (Option Char)

/-- A reader that has read nothing. -/
def Reader.start : Reader := ⟨none, []⟩

/-- The reader after the first byte of a character. -/
def Reader.lead (done : List (Option Char)) (b : UInt8) : Reader :=
  match Lead.ofByte b with
  | .single c => ⟨none, some c :: done⟩
  | .opening awaiting => ⟨some awaiting, done⟩
  | .stray => ⟨none, none :: done⟩

/-- The reader after one more byte. -/
def Reader.push (r : Reader) (b : UInt8) : Reader :=
  match r.awaiting with
  | none => .lead r.done b
  | some a =>
    if a.low ≤ b ∧ b ≤ a.high then
      let bits := a.bits * 64 + (b.toNat - 0x80)
      match a.more with
      | 0 => ⟨none, some (Char.ofNat bits) :: r.done⟩
      | more + 1 => ⟨some ⟨more, 0x80, 0xBF, bits⟩, r.done⟩
    else .lead (none :: r.done) b

/-- What has been read when the input ends.  An unfinished character is an
ill-formed run. -/
def Reader.finish (r : Reader) : List (Option Char) :=
  match r.awaiting with
  | none => r.done.reverse
  | some _ => (none :: r.done).reverse

/-- The characters and ill-formed runs of a byte list, in order. -/
def scan (bytes : List UInt8) : List (Option Char) :=
  (bytes.foldl Reader.push .start).finish

/-- The text of a well-formed byte list. -/
def decode? (bytes : List UInt8) : Option String :=
  ((scan bytes).mapM id).map String.ofList

/-- The text of a byte list, with the replacement character for each
ill-formed run. -/
def decodeLossy (bytes : List UInt8) : String :=
  String.ofList ((scan bytes).map (·.getD '\uFFFD'))

end MediaTransport.Text.Utf8
