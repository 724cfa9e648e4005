/-!
# Network order

Words of sixteen and thirty-two bits as bytes, the most significant byte first,
and back.  The two directions are inverse to each other.
-/

namespace MediaTransport.Bytes

/-- The two bytes of a word of sixteen bits. -/
def ofUInt16 (n : UInt16) : List UInt8 :=
  [(n >>> 8).toUInt8, n.toUInt8]

/-- The four bytes of a word of thirty-two bits. -/
def ofUInt32 (n : UInt32) : List UInt8 :=
  [(n >>> 24).toUInt8, (n >>> 16).toUInt8, (n >>> 8).toUInt8, n.toUInt8]

/-- The word of two bytes. -/
def toUInt16 (a b : UInt8) : UInt16 :=
  (a.toUInt16 <<< 8) ||| b.toUInt16

/-- The word of four bytes. -/
def toUInt32 (a b c d : UInt8) : UInt32 :=
  (a.toUInt32 <<< 24) ||| (b.toUInt32 <<< 16) ||| (c.toUInt32 <<< 8) ||| d.toUInt32

end MediaTransport.Bytes
