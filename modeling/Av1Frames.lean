import Av1Frames.Descriptor.Subexp
import Av1Frames.Descriptor.Leb128
import Av1Frames.Descriptor.Signed
import Av1Frames.OrderHint
import Av1Frames.Tile.Window
import Av1Frames.Tile.Info.Syntax
import Av1Frames.Tile.Group.Syntax
import Av1Frames.LoopFilter.Syntax
import Av1Frames.GlobalMotion.Syntax
import Av1Frames.FrameState.Derivation
import Av1Frames.Encoder.Layout
import Av1Frames.Encoder.Tracker
import Av1Frames.Decoder.Process
import Av1Frames.Decoder.Scripted
import Av1Frames.Proofs.FrameState.WarpRange
import Av1Frames.Proofs.Tile.Group.Syntax
import Av1Frames.Proofs.Decoder.Process
import Av1Frames.Proofs.Decoder.Atomicity
import Av1Frames.Proofs.Decoder.Lifecycle
import Av1Frames.Proofs.Decoder.References
import Av1Frames.Proofs.Decoder.Reset
import Av1Frames.Proofs.Bits.Decoding
import Av1Frames.Proofs.Bits.Writer
import Av1Frames.Proofs.Descriptor.Signed
import Av1Frames.Proofs.Descriptor.NonSymmetric
import Av1Frames.Proofs.Descriptor.Subexp
import Av1Frames.Proofs.Descriptor.Stream
import Av1Frames.Proofs.SyntaxError
import Av1Frames.Proofs.LoopFilter.Syntax
import Av1Frames.Proofs.GlobalMotion.Syntax
import Av1Frames.Proofs.FrameState.Derivation
import Av1Frames.Proofs.FrameState.Written
import Av1Frames.Proofs.GlobalMotion.Recoding
import Av1Frames.Proofs.FrameState.Expressible
import Av1Frames.Proofs.Encoder.Layout
import Av1Frames.Proofs.Decoder.Chronicle
import Av1Frames.Proofs.Decoder.Formats
import Av1Frames.Proofs.Decoder.Faultless
import Av1Frames.Proofs.Decoder.KeyFrame
import Av1Frames.Proofs.Decoder.Layers
import Av1Frames.Proofs.Recentering.Codes
import Av1Frames.Proofs.Descriptor.Canonical
import Av1Frames.Proofs.Decoder.Delivery
import Av1Frames.Proofs.Encoder.OpenCounts
import Av1Frames.Proofs.Tile.Info.Unambiguous
import Av1Frames.Proofs.FrameState.SkipMode
import Av1Frames.Proofs.Encoder.TileCounts
import Av1Frames.Proofs.Tile.Group.Acceptance
import Av1Frames.Proofs.FrameState.Leftovers
import Av1Frames.Proofs.FrameState.Referenced
import Av1Frames.Proofs.FrameState.Provenance
import Av1Frames.Proofs.Bits.Refusal
import Av1Frames.Proofs.Encoder.Faults
import Av1Frames.Proofs.Bits.Failure
import Av1Frames.Proofs.Decoder.GroupSizes
import Av1Frames.Proofs.FrameState.CodingFaults
import Av1Frames.Proofs.FrameState.SignBias
import Av1Frames.Proofs.Tile.Limits
