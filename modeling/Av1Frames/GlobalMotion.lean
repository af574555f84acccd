import Av1Frames.Checked

namespace Av1Frames

/-- The kinds of warp models, each with more freedom than the one before. -/
inductive WarpModel where
  | identity
  | translation
  | rotZoom
  | affine
deriving DecidableEq, Repr, Inhabited

namespace WarpModel

/-- The kind with a given number. -/
def ofNumber? : Int → Option WarpModel
  | 0 => some .identity
  | 1 => some .translation
  | 2 => some .rotZoom
  | 3 => some .affine
  | _ => none

/-- The name that messages show. -/
def name : WarpModel → String
  | identity => "Identity"
  | translation => "Translation"
  | rotZoom => "RotZoom"
  | affine => "Affine"

/-- The parameters that are transmitted, in the order of transmission. A rotation with zoom implies
    the last two. -/
def transmitted : WarpModel → List (Fin 6)
  | identity => []
  | translation => [0, 1]
  | rotZoom => [2, 3, 0, 1]
  | affine => [2, 3, 4, 5, 0, 1]

/-- Whether parameter `i` is transmitted. -/
def transmits (m : WarpModel) (i : Fin 6) : Bool := m.transmitted.contains i

end WarpModel

/-- The six parameters of a warp: an offset and a 2 by 2 matrix, in units of `2 ^ -16`. -/
abbrev WarpMatrix := Vector Int 6

namespace WarpMatrix

/-- The parameters that move nothing. -/
def identity : WarpMatrix := #v[0, 0, 0x10000, 0, 0, 0x10000]

/-- The rotation with zoom that the first four parameters describe. -/
def toRotZoom (m : WarpMatrix) : Except Fault WarpMatrix := do
  let minusB ← Checked.signed (-m[3])
  return #v[m[0], m[1], m[2], m[3], minusB, m[2]]

/-- The matrix with the given parameters, of which a rotation with zoom implies the last two. -/
def complete (model : WarpModel) (m : Fin 6 → Int) : WarpMatrix :=
  if model = .rotZoom then #v[m 0, m 1, m 2, m 3, -m 3, m 2] else .ofFn m

/-- Whether the last two parameters are those of a rotation with zoom. -/
def isRotZoom (m : WarpMatrix) : Except Fault Bool := do
  let minusB ← Checked.signed (-m[3])
  return m[4] = minusB && m[5] = m[2]

end WarpMatrix

/-- A warp as it applies to a reference. -/
structure Warp where
  model : WarpModel := .identity
  matrix : WarpMatrix := .identity
deriving DecidableEq, Repr, Inhabited

/-- A warp as a frame header gives it: three flags, of which the later ones only count if the
    earlier ones say so, and the codes of the parameters. -/
structure CodedWarp where
  isGlobal : Bool := false
  isRotZoom : Bool := false
  isTranslation : Bool := false
  /-- Subexponential codes, still relative to the warp of the primary reference. -/
  codes : Vector Int 6 := Vector.replicate 6 0
deriving DecidableEq, Repr, Inhabited

/-- The kind of warp that the flags select. -/
def CodedWarp.model (w : CodedWarp) : WarpModel :=
  match w.isGlobal, w.isRotZoom, w.isTranslation with
  | false, _, _ => .identity
  | true, true, _ => .rotZoom
  | true, false, true => .translation
  | true, false, false => .affine

/-- The warps of a frame header, by reference. -/
abbrev CodedWarps := Vector CodedWarp 8

/-- The resolved warps of a frame, by reference. -/
abbrev Warps := Vector Warp 8

end Av1Frames
