import Av1Frames.Descriptor.NonSymmetric
import Av1Frames.Recentering

namespace Av1Frames

open Checked

namespace Descriptor.Subexp

/-- How many bits a number has within level `i`. -/
def width : (i : Nat) → Nat
  | 0 => 3
  | i + 1 => i + 3

/-- The least number of level `i`. -/
def offset : (i : Nat) → Nat
  | 0 => 0
  | i + 1 => 1 <<< (i + 3)

/-- How many numbers level `i` has. -/
def extent (i : Nat) : Nat := 1 <<< width i

/-- Level `i` is the last one for symbol counts up to this bound: what is left then would fill at
    most three levels of the width of this one. -/
def reach (i : Nat) : Nat := offset i + 3 * extent i

/-- Each level reaches further than the one before, so the width that bounds are kept in ends the
    search for the last level. -/
theorem reach_lt_succ (i : Nat) : reach i < reach (i + 1) := by
  cases i with
  | zero => decide
  | succ i =>
    have hdouble : 1 <<< (i + 1 + 3) = 2 * 1 <<< (i + 3) := Nat.shiftLeft_succ 1 (i + 3)
    have hpos : 0 < 1 <<< (i + 3) := Nat.one_shiftLeft (i + 3) ▸ Nat.two_pow_pos (i + 3)
    simp only [reach, extent, offset, width]
    omega

/-- A code word on its way out: the bits that are settled, and how it ends. -/
structure CodeWord where
  /-- The set bits that lead to the level. -/
  escapes : Nat
  /-- What is written within the level. -/
  tail : Outcome WriteError Bits

/-- The code word of `value` among `count` symbols, from level `i` on. Bounds are kept in 32
    unsigned bits. -/
def codeWordFrom (count value i : Nat) : CodeWord :=
  if _h : reach i < 0x100000000 then
    if count ≤ reach i then
      { escapes := i
        tail := do
          Descriptor.nonSymmetric (count - offset i) (← unsigned ((value : Int) - offset i)) }
    else if offset i + extent i ≤ value then
      codeWordFrom count value (i + 1)
    else
      { escapes := i
        tail := do
          return false :: (← Descriptor.fixed (width i) (← unsigned ((value : Int) - offset i))) }
  else
    { escapes := i, tail := .error (.fault .overflow) }
termination_by 0x100000000 - reach i
decreasing_by
  have := reach_lt_succ i
  omega

end Descriptor.Subexp

/-- The code word of `value` among `count` symbols. It grows by levels, each of which is reached by
    one more set bit; on the last possible level the rest is coded as `ns(n)`. -/
def Descriptor.subexp (count value : Nat) : Descriptor.Subexp.CodeWord :=
  Descriptor.Subexp.codeWordFrom count value 0

/-- The bits of a code word that can be written whole. -/
def Descriptor.Subexp.CodeWord.bits (word : Descriptor.Subexp.CodeWord) :
    Outcome WriteError Bits := do
  return List.replicate word.escapes true ++ (← word.tail)

namespace Read

open Descriptor.Subexp

/-- Reads a number among `count` symbols from level `i` on. Bounds are kept in 32 signed bits. -/
def subexpFrom (count : Int) (i : Nat) : Read Int :=
  if _h : reach i < 0x80000000 then
    if count ≤ reach i then do
      return (← nonSymmetric (wrapUnsigned (count - offset i))) + offset i
    else do
      if ← bit then
        subexpFrom count (i + 1)
      else
        return (← fixed (width i)) + offset i
  else
    throw (.fault .overflow)
termination_by 0x80000000 - reach i
decreasing_by
  have := reach_lt_succ i
  omega

/-- Reads a number among `count` symbols. -/
def subexp (count : Int) : Read Int := subexpFrom count 0

/-- Reads one of the numbers `low .. high - 1`, coded relative to the reference `r`. -/
def signedSubexpWithRef (low high r : Int) : Read Int := do
  let code ← subexp (← Checked.signed (high - low))
  Recentering.decodeSigned code low high r

end Read

/-- Writes a number among `count` symbols; the result counts the bits. The bits that lead to the
    level are out when what follows them fails. -/
def Write.subexp (count value : Nat) : Write Nat := do
  let word := Descriptor.subexp count value
  bits (List.replicate word.escapes true)
  let tail ← word.tail
  bits tail
  return word.escapes + tail.length

end Av1Frames
