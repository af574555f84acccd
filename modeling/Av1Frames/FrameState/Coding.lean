import Av1Frames.FrameState.Derivation

namespace Av1Frames

open Checked

/-- Why a wanted state cannot be coded. -/
inductive CodingError where
  | primary (e : PrimaryError)
  /-- Without a primary reference the deltas are the initial ones. -/
  | deltasReset
  /-- Deltas are only given while they are enabled. -/
  | deltasDisabled
  /-- Frames that are predicted from themselves have no warps. -/
  | intraWarp
  /-- The last two parameters do not follow from those before them. -/
  | notRotZoom (matrix : WarpMatrix) (reference : Nat)
  /-- A parameter that is not transmitted has another value than the one it is given. -/
  | fixedParameter (index reference : Nat) (model : WarpModel)
  /-- A parameter is too great or too fine to be transmitted. -/
  | parameterRange (index reference : Nat) (value : Int)
deriving DecidableEq, Repr

/-- The text of a warp's parameters in messages. -/
def WarpMatrix.text (m : WarpMatrix) : String :=
  "[" ++ ", ".intercalate (m.toList.map toString) ++ "]"

/-- The text shown for a request that cannot be met. -/
def invalidRequest (reason : String) : String := s!"invalid encoder configuration: {reason}"

/-- The text shown for a wanted state that cannot be coded. -/
def CodingError.message : CodingError → String
  | primary (.range n) => invalidRequest s!"invalid primary_ref_frame {n}"
  | primary (.empty _ _) => "invalid internal state. This is likely a bug."
  | deltasReset =>
    invalidRequest "loop filter deltas are reset without a primary reference frame"
  | deltasDisabled => invalidRequest "loop filter deltas cannot change while disabled"
  | intraWarp => invalidRequest "intra frames cannot use global motion"
  | notRotZoom matrix r =>
    invalidRequest s!"parameters {matrix.text} of reference {r} are not a rotation and zoom"
  | fixedParameter i r model =>
    invalidRequest s!"parameter {i} of reference {r} cannot be coded with {model.name}"
  | parameterRange i r value =>
    invalidRequest s!"parameter {i} of reference {r} cannot be coded: {value}"

namespace CodedDelta

/-- A header's delta for a wanted value: given only where it differs from the previous one. What a
    header holds where nothing is given does not count and is kept. -/
def forTarget (kept : CodedDelta) (target previous : Int) : CodedDelta :=
  if target ≠ previous then { update := true, value := target } else { kept with update := false }

/-- The deltas for wanted values. -/
def forTargets {n : Nat} (kept : Vector CodedDelta n) (target previous : Vector Int n) :
    Vector CodedDelta n :=
  Vector.ofFn fun i => forTarget (kept.get i) (target.get i) (previous.get i)

end CodedDelta

namespace FrameState

/-- The loop filter part of a header from which the wanted deltas are resolved. -/
def codeDeltas (kept : LoopFilter) (primary : Option FrameState) (target : FrameState) :
    Outcome CodingError LoopFilter :=
  match primary with
  | none =>
    if target.deltaEnabled ≠ true ∨ target.deltas ≠ {} then
      .fail .deltasReset
    else
      return {
        kept with
        deltaEnabled := true
        deltaUpdate := false
        refDeltas := kept.refDeltas.map ({ · with update := false })
        modeDeltas := kept.modeDeltas.map ({ · with update := false }) }
  | some primary =>
    let refDeltas := CodedDelta.forTargets kept.refDeltas target.deltas.ref primary.deltas.ref
    let modeDeltas := CodedDelta.forTargets kept.modeDeltas target.deltas.mode primary.deltas.mode
    let deltaUpdate := refDeltas.any (·.update) || modeDeltas.any (·.update)
    if deltaUpdate && !target.deltaEnabled then
      .fail .deltasDisabled
    else
      return { kept with deltaEnabled := target.deltaEnabled, deltaUpdate, refDeltas, modeDeltas }

/-- The code of parameter `i` of a wanted warp of reference `r`, relative to the matrix of a
    previous one. Parameters that are not transmitted have code zero, and the values that follow
    from the others. -/
def codeParameter (target : Warp) (highPrecision : Bool) (previous : WarpMatrix) (r : Nat)
    (i : Fin 6) : Outcome CodingError Int := do
  let value := target.matrix.get i
  if !target.model.transmits i then
    let implied := target.model = .rotZoom && 4 ≤ i.val
    if !implied && value ≠ WarpMatrix.identity.get i then
      .fail (.fixedParameter i r target.model)
    return 0
  let p := WarpPrecision.of target.model i highPrecision
  let number := (← signed (value - p.round)) >>> p.droppedBits
  if (← p.scale number) ≠ value ∨ number < -p.mx ∨ p.mx < number then
    .fail (.parameterRange i r value)
  Recentering.encodeSigned number (-p.mx) (p.mx + 1) (← p.reference (previous.get i))

/-- The coded warp from which a wanted warp of reference `r` is resolved, relative to the matrix of
    a previous one. -/
def codeWarp (target : Warp) (highPrecision : Bool) (previous : WarpMatrix) (r : Nat) :
    Outcome CodingError CodedWarp := do
  let isRotZoom ← target.matrix.isRotZoom
  if target.model = .rotZoom && !isRotZoom then
    .fail (.notRotZoom target.matrix r)
  return {
    isGlobal := target.model ≠ .identity
    isRotZoom := target.model = .rotZoom
    isTranslation := target.model = .translation
    codes := ← Vector.ofFnM (codeParameter target highPrecision previous r) }

/-- The coded warps of a header from which the wanted warps are resolved. The one of the frame
    itself does not count: it is kept where there are others, and cleared where there are none. -/
def codeWarps (header : Header) (primary : Option FrameState) (target : FrameState) :
    Outcome CodingError CodedWarps :=
  if header.isIntra then
    if target.warps.toList.tail.any (· ≠ {}) then
      .fail .intraWarp
    else
      return Vector.replicate 8 {}
  else
    Vector.ofFnM fun r : Fin 8 =>
      if r.val = 0 then return header.warps.get r
      else
        codeWarp (target.warps.get r) header.allowHighPrecisionMv
          ((previousWarps primary).get r).matrix r

/-- The header with its deltas and warps filled in so that those of the wanted state are resolved
    from it. Its type and its primary reference have to be set already. -/
def code (slots : StateSlots) (header : Header) (target : FrameState) :
    Outcome CodingError Header := do
  let primary ← (primary? header slots).mapError .primary
  let loopFilter ← codeDeltas header.loopFilter primary target
  let warps ← codeWarps header primary target
  return { header with loopFilter, warps }

end FrameState

end Av1Frames
