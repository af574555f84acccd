namespace Av1Frames

/-- The film grain that a frame is shown with. -/
structure FilmGrain where
  applyGrain : Bool := false
  grainSeed : Nat := 0
  /-- Whether the parameters are given here; otherwise they are taken from the slot
      `filmGrainParamsRefIdx`. -/
  updateGrain : Bool := false
  filmGrainParamsRefIdx : Nat := 0
  numYPoints : Nat := 0
  pointYValue : Vector Nat 16 := Vector.replicate 16 0
  pointYScaling : Vector Nat 16 := Vector.replicate 16 0
  chromaScalingFromLuma : Bool := false
  numCbPoints : Nat := 0
  pointCbValue : Vector Nat 16 := Vector.replicate 16 0
  pointCbScaling : Vector Nat 16 := Vector.replicate 16 0
  numCrPoints : Nat := 0
  pointCrValue : Vector Nat 16 := Vector.replicate 16 0
  pointCrScaling : Vector Nat 16 := Vector.replicate 16 0
  grainScalingMinus8 : Nat := 0
  arCoeffLag : Nat := 0
  arCoeffsYPlus128 : Vector Nat 25 := Vector.replicate 25 0
  arCoeffsCbPlus128 : Vector Nat 25 := Vector.replicate 25 0
  arCoeffsCrPlus128 : Vector Nat 25 := Vector.replicate 25 0
  arCoeffShiftMinus6 : Nat := 0
  grainScaleShift : Nat := 0
  cbMult : Nat := 0
  cbLumaMult : Nat := 0
  cbOffset : Nat := 0
  crMult : Nat := 0
  crLumaMult : Nat := 0
  crOffset : Nat := 0
  overlapFlag : Bool := false
  clipToRestrictedRange : Bool := false
deriving DecidableEq, Repr, Inhabited

end Av1Frames
