/-!
# Reading UTF-8

Bytes are read as text strictly: the first byte at which no well-formed character begins is a
fault.
-/

namespace TargetScope.Text

/-- A byte at which no well-formed character begins. -/
structure Utf8Fault where
  /-- The byte. -/
  byte : UInt8
  /-- The number of bytes before it. -/
  offset : Nat
deriving DecidableEq, Repr

/-- The first place, from the byte at `offset` on and after at most `fuel` characters, at which no
well-formed character begins. -/
def illFormedFrom (bytes : ByteArray) : (fuel offset : Nat) → Nat
  | 0, offset => offset
  | fuel + 1, offset =>
    match bytes.utf8DecodeChar? offset with
    | some c => illFormedFrom bytes fuel (offset + c.utf8Size)
    | none => offset

/-- Reads bytes as text. -/
def decodeUtf8 (bytes : ByteArray) : Except Utf8Fault String :=
  match String.fromUTF8? bytes with
  | some text => .ok text
  | none =>
    let offset := illFormedFrom bytes bytes.size 0
    .error ⟨(bytes.data[offset]?).getD 0, offset⟩

/-- The two hexadecimal digits of a byte. -/
def hexByte (b : UInt8) : String :=
  String.ofList [Nat.digitChar (b.toNat / 16), Nat.digitChar (b.toNat % 16)]

end TargetScope.Text
