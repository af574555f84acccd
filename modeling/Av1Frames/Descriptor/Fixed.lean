import Av1Frames.Bits.Writer

namespace Av1Frames.Descriptor

/-- The code word of `f(n)` for the low `n` bits of `value`. -/
def fixed (n value : Nat) : Outcome WriteError Bits :=
  if 32 < n then .fail .bitCount else .ok (Bits.ofNat n value)

/-- The bytes of `le(n)` for the low `n` bytes of `value`. -/
def littleEndianBytes : (n value : Nat) → Bytes
  | 0, _ => []
  | n + 1, value => UInt8.ofNat value :: littleEndianBytes n (value / 256)

/-- The number that bytes stand for, least significant first. -/
def ofLittleEndianBytes : Bytes → Nat
  | [] => 0
  | byte :: rest => byte.toNat + 256 * ofLittleEndianBytes rest

end Av1Frames.Descriptor

namespace Av1Frames.Write

/-- Writes a code word, unless there is none. -/
def codeWord (word : Outcome WriteError Bits) : Write Nat := do
  let word ← word
  bits word
  return word.length

/-- Writes `f(n)`; the result counts the bits. -/
def fixed (n value : Nat) : Write Nat := codeWord (Descriptor.fixed n value)

/-- Writes `le(n)`, at any position; the result counts the bits. -/
def littleEndian (n value : Nat) : Write Nat :=
  codeWord (.ok (Bits.ofBytes (Descriptor.littleEndianBytes n value)))

end Av1Frames.Write
