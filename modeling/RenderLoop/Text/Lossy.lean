/-!
# Characters in damaged text

The characters of a sequence of bytes that need not be a text: bytes that do
not belong to a character are left out.
-/

namespace RenderLoop

/-- The characters from a position on. -/
def charsFrom (bytes : ByteArray) (position : Nat) : List Char :=
  if position < bytes.size then
    match bytes.utf8DecodeChar? position with
    | some c => c :: charsFrom bytes (position + c.utf8Size)
    | none => charsFrom bytes (position + 1)
  else []
termination_by bytes.size - position
decreasing_by
  · have := c.utf8Size_pos; omega
  · omega

/-- The characters of the bytes that belong to one. -/
def knownChars (bytes : ByteArray) : List Char := charsFrom bytes 0

end RenderLoop
