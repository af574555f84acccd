import Av1Frames.Bits.Writer

namespace Av1Frames

/-- The syntax elements whose values are checked before they are written. -/
inductive SyntaxElement where
  | tileColsLog2
  | tileCols
  | tileRowsLog2
  | tileRows
  | widthInSbsMinus1
  | heightInSbsMinus1
  | gmParams
  | obuType
  | tileStartAndEndPresentFlag
  | tgEnd
  | tileSizeMinus1
deriving DecidableEq, Repr

/-- The name of a syntax element in the bitstream specification. -/
def SyntaxElement.name : SyntaxElement → String
  | tileColsLog2 => "tile_cols_log2"
  | tileCols => "tile_cols"
  | tileRowsLog2 => "tile_rows_log2"
  | tileRows => "tile_rows"
  | widthInSbsMinus1 => "width_in_sbs_minus_1"
  | heightInSbsMinus1 => "height_in_sbs_minus_1"
  | gmParams => "gm_params"
  | obuType => "obu_type"
  | tileStartAndEndPresentFlag => "tile_start_and_end_present_flag"
  | tgEnd => "tg_end"
  | tileSizeMinus1 => "tile_size_minus_1"

/-- Why a syntax structure cannot be written. -/
inductive SyntaxError where
  /-- The value of a syntax element is not one that can occur. -/
  | element (e : SyntaxElement)
  /-- A length does not fit 32 bits. -/
  | length
  /-- A descriptor has no code word for its value. -/
  | write (e : WriteError)
deriving DecidableEq, Repr

/-- The text shown for a syntax structure that cannot be written. -/
def SyntaxError.message : SyntaxError → String
  | element e => s!"invalid syntax element value {e.name}"
  | length => "out of range integral type conversion attempted"
  | write e => e.message

/-- The outcome of writing a syntax structure. -/
abbrev Encoding := Outcome SyntaxError

namespace Encoding

/-- Stops at a syntax element with a value that cannot occur. So it is in the build with debug
    assertions; without them such a value is only logged, and the writer goes on with it. -/
def invalid {α : Type} (e : SyntaxElement) : Encoding α := .error (.error (.element e))

/-- A length as it is written. -/
def length32 (n : Nat) : Encoding Nat := if n < 0x100000000 then .ok n else .error (.error .length)

end Encoding

/-- Descriptors may be used wherever syntax structures are written. -/
instance : MonadLift (Outcome WriteError) Encoding where
  monadLift := Outcome.mapError SyntaxError.write

end Av1Frames
