import VmNode.Json.Decode
import VmNode.Json.Reader

/-!
# Decoding JSON texts

A text is decoded as a whole, or by the value at its start whatever follows.
-/

namespace VmNode.Doc

/-- Decodes the value at the start of the bytes. -/
def decodeFirst {α : Type} (f : Decoder α) (bytes : List UInt8) : Except Fault α :=
  f (ofBytes bytes).1

/-- Decodes the bytes as one value with nothing after it. -/
def decodeBytes {α : Type} (f : Decoder α) (bytes : List UInt8) : Except Fault α := do
  let (d, rest) := ofBytes bytes
  let a ← f d
  match rest with
  | some rest => if (skipGap rest).isEmpty then .ok a else .error .malformed
  | none => .error .malformed

/-- Decodes a text as one value with nothing after it. -/
def decodeText {α : Type} (f : Decoder α) (text : String) : Except Fault α :=
  decodeBytes f (Text.Utf8.encode text)

end VmNode.Doc
