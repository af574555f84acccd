namespace Av1Frames

/-- A change of the filter level: whether the header gives it, and its value if so. -/
structure CodedDelta where
  update : Bool := false
  value : Int := 0
deriving DecidableEq, Repr, Inhabited

/-- The loop filter part of a frame header. -/
structure LoopFilter where
  levels : Vector Nat 4 := Vector.replicate 4 0
  sharpness : Nat := 0
  deltaEnabled : Bool := false
  /-- Whether the header gives deltas at all. -/
  deltaUpdate : Bool := false
  refDeltas : Vector CodedDelta 8 := Vector.replicate 8 {}
  modeDeltas : Vector CodedDelta 2 := Vector.replicate 2 {}
deriving DecidableEq, Repr, Inhabited

/-- The changes by reference that frames without a primary reference start from. -/
def initialRefDeltas : Vector Int 8 := #v[1, 0, 0, 0, -1, 0, -1, -1]

/-- The changes of the filter level in force for a frame, by reference and by mode. -/
structure FilterDeltas where
  ref : Vector Int 8 := initialRefDeltas
  mode : Vector Int 2 := Vector.replicate 2 0
deriving DecidableEq, Repr, Inhabited

/-- Replaces the values that the header gives. -/
def CodedDelta.apply {n : Nat} (coded : Vector CodedDelta n) (previous : Vector Int n) :
    Vector Int n :=
  Vector.zipWith (fun d v => if d.update then d.value else v) coded previous

/-- The deltas in force after a header, given those in force before it. -/
def LoopFilter.apply (lf : LoopFilter) (previous : FilterDeltas) : FilterDeltas :=
  if lf.deltaUpdate then
    { ref := CodedDelta.apply lf.refDeltas previous.ref
      mode := CodedDelta.apply lf.modeDeltas previous.mode }
  else previous

end Av1Frames
