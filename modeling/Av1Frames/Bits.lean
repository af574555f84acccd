namespace Av1Frames

/-- A string of bits, in the order in which they are transmitted. -/
abbrev Bits := List Bool

/-- A string of bytes. -/
abbrev Bytes := List UInt8

namespace Bits

/-- The low `n` bits of `v`, most significant first. -/
def ofNat : (n v : Nat) → Bits
  | 0, _ => []
  | n + 1, v => v.testBit n :: ofNat n v

/-- The number whose binary digits are `bits`, most significant first. -/
def toNat (bits : Bits) : Nat := bits.foldl (fun v b => 2 * v + b.toNat) 0

/-- The bits of a string of bytes. -/
def ofBytes (bytes : Bytes) : Bits := bytes.flatMap fun byte => ofNat 8 byte.toNat

/-- The first eight bits as a byte; a shorter string is continued with zeros. -/
def leadingByte (bits : Bits) : UInt8 :=
  UInt8.ofNat (toNat ((bits ++ List.replicate 8 false).take 8))

/-- The bytes that hold `bits`, the last one continued with zeros. -/
def toBytes : Bits → Bytes
  | [] => []
  | b :: bits => leadingByte (b :: bits) :: toBytes (bits.drop 7)
termination_by bits => bits.length

end Bits

end Av1Frames
