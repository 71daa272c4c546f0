/-!
# Texts as bytes

The contents of a file are bytes; a text is stored in UTF-8.
-/

namespace DataClassGen

/-- The contents of a file. -/
abbrev Bytes := List UInt8

namespace Text

/-- The bytes of a text in UTF-8. -/
def bytesOf (s : String) : Bytes := s.toUTF8.data.toList

/-- The text of some bytes, if they are well-formed UTF-8. -/
def ofBytes? (bytes : Bytes) : Option String := String.fromUTF8? bytes.toByteArray

end Text

end DataClassGen
