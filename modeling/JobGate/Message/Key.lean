/-
Keys by which a receiver recognises a message it already has.

A key is a list of texts.  What is sent is the digest of their bytes, with a
zero byte between one part and the next, so two keys are told apart exactly when
these bytes differ and the digest does not collide.
-/
import JobGate.Text.Sha256

namespace JobGate

/-- The parts that make a message the one it is. -/
structure Key where
  parts : List String
deriving DecidableEq, Repr

namespace Key

/-- The parts with a NUL between them. -/
def joined (k : Key) : String := "\x00".intercalate k.parts

def bytes (k : Key) : List UInt8 := k.joined.toUTF8.toList

/-- The key as it is sent: a digest in hexadecimal. -/
def digest (k : Key) : String := Sha256.toHex (Sha256.digest k.bytes)

end Key
end JobGate
