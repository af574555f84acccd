import Av1Frames.Checked
import Av1Frames.Bits.Sink

namespace Av1Frames

/-- Why a write fails. -/
inductive WriteError where
  /-- More than 32 bits at once, or whole bytes while bits are pending. -/
  | bitCount
  /-- The sink refused the bytes. -/
  | sinkFull
  /-- A length written as `leb128()` has to start at a byte. -/
  | unalignedLeb128
  /-- A value written as `ns(n)` has to be below `n`. -/
  | nonSymmetricRange (n value : Nat)
deriving DecidableEq, Repr

/-- The text shown for a failed write. -/
def WriteError.message : WriteError → String
  | bitCount => "invalid bit count"
  | sinkFull => "sink full"
  | unalignedLeb128 => "attemped to write leb128 on unaligned position"
  | nonSymmetricRange n value => s!"value {value} does not fit in a ns({n}) descriptor"

/-- A sink with the bits that do not fill a byte yet. A byte goes to the sink as soon as its last
    bit is there. -/
structure Writer where
  sink : Sink
  /-- At most eight bits: all eight after the sink refused the byte that they make. -/
  pending : Bits := []

namespace Writer

/-- Whether the next bit is the first of a byte. -/
def aligned (w : Writer) : Bool := w.pending.isEmpty

/-- Everything written so far, bit by bit. -/
def bits (w : Writer) : Bits := Bits.ofBytes w.sink.written ++ w.pending

end Writer

/-- A computation that writes bits. The writer outlives its failures. -/
abbrev Write := ExceptT (Failure WriteError) (StateM Writer)

namespace Write

/-- Stops with an error of writing. -/
def fail {α : Type} (e : WriteError) : Write α := throw (.error e)

/-- Offers bytes to the sink, past the pending bits. -/
def offer (bytes : Bytes) : Write Unit := do
  let w ← get
  let (taken, sink) := w.sink.offer bytes
  set { w with sink }
  if taken then return else fail .sinkFull

/-- Sends the pending bits as one byte, its missing bits zero. They stay pending if the sink refuses
    it. -/
def sendPending : Write Unit := do
  let w ← get
  offer [Bits.leadingByte w.pending]
  modify fun w => { w with pending := [] }

/-- Writes one bit. There is no room for it next to a whole byte that the sink refused. -/
def bit (b : Bool) : Write Unit := do
  let w ← get
  if 8 ≤ w.pending.length then
    throw (.fault .overflow)
  let pending := w.pending ++ [b]
  set { w with pending }
  if pending.length = 8 then sendPending

/-- Writes bits one after the other. -/
def bits : Bits → Write Unit
  | [] => return
  | b :: rest => do
    bit b
    bits rest

/-- Writes whole bytes at the start of a byte. -/
def bytes (data : Bytes) : Write Unit := do
  if (← get).aligned then offer data else fail .bitCount

/-- Sends the pending bits, if there are any. A sink has what it took and holds nothing back, so its
    own flush, and the ways in which that could fail, are left out here. -/
def flush : Write Unit := do
  if !(← get).aligned then sendPending

end Write

/-- The bytes of the sink once the writer is given up: pending bits are sent, and lost if the sink
    refuses them. -/
def Writer.close (w : Writer) : Bytes := (Write.flush.run w).2.sink.written

end Av1Frames
