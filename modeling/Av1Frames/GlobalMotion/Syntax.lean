import Av1Frames.Descriptor.Subexp
import Av1Frames.GlobalMotion.Precision
import Av1Frames.SyntaxError

namespace Av1Frames

namespace CodedWarp

/-- The flags of a warp: one for each question that the earlier ones leave open. -/
def flagBits (w : CodedWarp) : Bits :=
  if !w.isGlobal then [false]
  else if w.isRotZoom then [true, true]
  else [true, false, w.isTranslation]

/-- The bits of the code of parameter `i`. -/
def codeBits (w : CodedWarp) (highPrecision : Bool) (i : Fin 6) : Encoding Bits := do
  let p := WarpPrecision.of w.model i highPrecision
  let code := w.codes[i]
  if 0 ≤ code ∧ code < p.symbols then
    (Descriptor.subexp p.symbols.toNat code.toNat).bits
  else
    .invalid .gmParams

/-- The bits of the codes of some parameters, in order. -/
def codesBits (w : CodedWarp) (highPrecision : Bool) : List (Fin 6) → Encoding Bits
  | [] => return []
  | i :: rest => return (← w.codeBits highPrecision i) ++ (← w.codesBits highPrecision rest)

/-- The bits of a warp: its flags and the codes of its transmitted parameters. -/
def bits (w : CodedWarp) (highPrecision : Bool) : Encoding Bits := do
  return w.flagBits ++ (← w.codesBits highPrecision w.model.transmitted)

/-- Reads the flags of a warp. -/
def readFlags : Read CodedWarp := do
  if !(← Read.bit) then
    return {}
  else if ← Read.bit then
    return { isGlobal := true, isRotZoom := true }
  else
    return { isGlobal := true, isTranslation := ← Read.bit }

/-- Reads the codes of some parameters, in order. -/
def readCodes (highPrecision : Bool) (w : CodedWarp) : List (Fin 6) → Read CodedWarp
  | [] => return w
  | i :: rest => do
    let code ← Read.subexp (WarpPrecision.of w.model i highPrecision).symbols
    readCodes highPrecision { w with codes := w.codes.set i code } rest

/-- Reads a warp. Parameters that are not transmitted have code zero. -/
def read (highPrecision : Bool) : Read CodedWarp := do
  let w ← readFlags
  readCodes highPrecision w w.model.transmitted

end CodedWarp

namespace CodedWarps

/-- The bits of warps one after the other. -/
def listBits (highPrecision : Bool) : List CodedWarp → Encoding Bits
  | [] => return []
  | w :: ws => return (← w.bits highPrecision) ++ (← listBits highPrecision ws)

/-- The bits of the warps of the seven references of a frame: `global_motion_params()`. -/
def bits (warps : CodedWarps) (highPrecision : Bool) : Encoding Bits :=
  listBits highPrecision warps.toList.tail

/-- Reads the warps of the seven references of a frame. -/
def read (highPrecision : Bool) : Read CodedWarps := do
  let seven ← (Vector.ofFnM fun _ => CodedWarp.read highPrecision : Read (Vector CodedWarp 7))
  return Vector.ofFn fun i : Fin 8 => if h : i.val = 0 then {} else seven[i.val - 1]

end CodedWarps

end Av1Frames
