namespace Av1Frames

/-- A width and a height in luma samples. -/
structure Resolution where
  width : Nat := 0
  height : Nat := 0
deriving DecidableEq, Repr, Inhabited

/-- Layouts of decoded frames: the chroma sampling, or luma alone, and the bits of a sample. -/
inductive PixelFormat where
  | i420
  | i422
  | i444
  | i010
  | i012
  | i210
  | i212
  | i410
  | i412
  | gray8
  | gray10
  | gray12
deriving DecidableEq, Repr, Inhabited

namespace PixelFormat

/-- Every layout. -/
def all : List PixelFormat :=
  [i420, i422, i444, i010, i012, i210, i212, i410, i412, gray8, gray10, gray12]

/-- The name that messages show. -/
def name : PixelFormat → String
  | i420 => "I420"
  | i422 => "I422"
  | i444 => "I444"
  | i010 => "I010"
  | i012 => "I012"
  | i210 => "I210"
  | i212 => "I212"
  | i410 => "I410"
  | i412 => "I412"
  | gray8 => "Gray8"
  | gray10 => "Gray10"
  | gray12 => "Gray12"

/-- How many bits a sample has. -/
def bitDepth : PixelFormat → Nat
  | i420 | i422 | i444 | gray8 => 8
  | i010 | i210 | i410 | gray10 => 10
  | i012 | i212 | i412 | gray12 => 12

end PixelFormat

end Av1Frames
