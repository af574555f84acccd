import Av1Frames.FrameState
import Av1Frames.FrameState.SkipMode
import Av1Frames.GlobalMotion.Precision
import Av1Frames.Header
import Av1Frames.OrderHint
import Av1Frames.Sequence

namespace Av1Frames

open Checked

/-- The slots with the states of the frames in them. -/
abbrev StateSlots := Slots FrameState

namespace FrameState

/-- The state that the frame inherits from, if it has a primary reference. -/
def primary? (header : Header) (slots : StateSlots) : Outcome PrimaryError (Option FrameState) :=
  if header.primaryRefFrame = primaryRefNone then
    return none
  else
    match header.refFrameIdx[header.primaryRefFrame]? with
    | none => .fail (.range header.primaryRefFrame)
    | some slot =>
      match slots.content? slot with
      | none => .fail (.empty header.primaryRefFrame slot)
      | some state => return some state

/-- Whether deltas are enabled, and the deltas. Without a primary reference the header does not
    count. -/
def resolveDeltas (lf : LoopFilter) : (primary : Option FrameState) → Bool × FilterDeltas
  | none => (true, {})
  | some primary => (lf.deltaEnabled, lf.apply primary.deltas)

/-- The warps that those of a frame are relative to. -/
def previousWarps : (primary : Option FrameState) → Warps
  | none => Vector.replicate 8 {}
  | some primary => primary.warps

/-- Parameter `i` of the warp that a coded warp stands for, relative to the matrix of a previous
    one. Parameters that are not transmitted move nothing. -/
def resolveParameter (coded : CodedWarp) (highPrecision : Bool) (previous : WarpMatrix)
    (i : Fin 6) : Except Fault Int :=
  if coded.model.transmits i then
    (WarpPrecision.of coded.model i highPrecision).decode (coded.codes.get i) (previous.get i)
  else
    return WarpMatrix.identity.get i

/-- The warp that a coded warp stands for, relative to the matrix of a previous one. -/
def resolveWarp (coded : CodedWarp) (highPrecision : Bool) (previous : WarpMatrix) :
    Except Fault Warp := do
  let model := coded.model
  let matrix : WarpMatrix ← Vector.ofFnM (resolveParameter coded highPrecision previous)
  if model = .rotZoom then
    return { model, matrix := ← matrix.toRotZoom }
  else
    return { model, matrix }

/-- The warps of the references of a frame. Frames that are predicted from themselves have none. -/
def resolveWarps (header : Header) (primary : Option FrameState) : Except Fault Warps :=
  if header.isIntra then
    return Vector.replicate 8 {}
  else
    Vector.ofFnM fun r : Fin 8 =>
      if r.val = 0 then return {}
      else
        resolveWarp (header.warps.get r) header.allowHighPrecisionMv
          ((previousWarps primary).get r).matrix

/-- The order hint of the frame in the slot of reference `r`, if there is one. -/
def referenceHint? (header : Header) (slots : StateSlots) : (r : Nat) → Option Nat
  | 0 => none
  | i + 1 => do
    let slot ← header.refFrameIdx[i]?
    return (← slots.content? slot).orderHint

/-- How far the frame with order hint `a` is displayed after the one with order hint `b`. Order
    hints are compared as signed numbers. -/
def hintDistance (s : Sequence) (a b : Nat) : Except Fault Int :=
  relativeDistance s.enableOrderHint s.orderHintBits (wrapSigned a) (wrapSigned b)

/-- Whether reference `r` is displayed after the frame. -/
def isAfter (s : Sequence) (header : Header) (slots : StateSlots) (r : Nat) : Except Fault Bool :=
  match referenceHint? header slots r with
  | none => return false
  | some hint => do return 0 < (← hintDistance s hint header.orderHint)

/-- The order hints of the references, zero for those in empty slots. -/
def resolveHints (header : Header) (slots : StateSlots) : Vector Nat 8 :=
  Vector.ofFn fun r => (referenceHint? header slots r).getD 0

/-- Which references are displayed after the frame. -/
def resolveSignBias (s : Sequence) (header : Header) (slots : StateSlots) :
    Except Fault (Vector Bool 8) :=
  Vector.ofFnM fun r => isAfter s header slots r

/-- The references with their order hints, unless one of the slots is empty. -/
def candidates? (header : Header) (slots : StateSlots) : Option (List SkipMode.Candidate) :=
  (List.range 7).mapM fun i =>
    (referenceHint? header slots (i + 1)).map fun hint => (i, hint)

/-- The two references of skip mode, if the frame can use it. -/
def resolveSkipMode (s : Sequence) (header : Header) (slots : StateSlots) :
    Except Fault (Option (RefName × RefName)) :=
  if !header.referenceSelect || !s.enableOrderHint then
    return none
  else
    match candidates? header slots with
    | none => return none
    | some candidates => SkipMode.references (hintDistance s) header.orderHint candidates

/-- The film grain of the frame: none, its own, or that of another frame with its own seed. -/
def resolveGrain (s : Sequence) (header : Header) (slots : StateSlots) :
    Outcome StateError FilmGrain :=
  let grain := header.filmGrain
  if !s.filmGrainParamsPresent || !grain.applyGrain then
    return {}
  else if grain.updateGrain then
    return grain
  else
    match slots.content? grain.filmGrainParamsRefIdx with
    | none => .fail (.grainEmpty grain.filmGrainParamsRefIdx)
    | some reference => return { reference.filmGrain with grainSeed := grain.grainSeed }

/-- The state of the frame with the given header, when the slots hold the given states. -/
def derive (s : Sequence) (header : Header) (slots : StateSlots) :
    Outcome StateError FrameState := do
  let primary ← (primary? header slots).mapError .primary
  let (deltaEnabled, deltas) := resolveDeltas header.loopFilter primary
  let state : FrameState := {
    deltaEnabled, deltas
    warps := ← resolveWarps header primary
    orderHint := header.orderHint }
  let state ←
    if header.isIntra then
      pure state
    else
      pure {
        state with
        orderHints := resolveHints header slots
        signBias := ← resolveSignBias s header slots
        skipModeFrames := ← resolveSkipMode s header slots }
  return { state with filmGrain := ← resolveGrain s header slots }

end FrameState

end Av1Frames
