import Av1Frames.Bits

namespace Av1Frames

/-- A receiver of bytes, together with what it has received. It takes a string of bytes whole or
    refuses it whole. -/
structure Sink where
  /-- The bytes taken so far. -/
  written : Bytes := []
  /-- How often bytes were offered. -/
  offers : Nat := 0
  /-- Whether the sink takes the last argument, by the number of earlier offers and the bytes it
      already holds. -/
  accepts : Nat → Bytes → Bytes → Bool

namespace Sink

/-- A sink that takes everything. -/
def unbounded : Sink := { accepts := fun _ _ _ => true }

/-- A sink that holds at most `limit` bytes. -/
def bounded (limit : Nat) : Sink :=
  { accepts := fun _ held new => held.length + new.length ≤ limit }

/-- Offers `bytes` to the sink; the flag says whether it took them. -/
def offer (s : Sink) (bytes : Bytes) : Bool × Sink :=
  if s.accepts s.offers s.written bytes then
    (true, { s with written := s.written ++ bytes, offers := s.offers + 1 })
  else
    (false, { s with offers := s.offers + 1 })

end Sink

end Av1Frames
