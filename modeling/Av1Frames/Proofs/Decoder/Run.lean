import Mathlib.Tactic
import Av1Frames.Decoder.Process

namespace Av1Frames

variable {β S : Type}

/-- The frame that the backend was asked to start, whatever it answered. -/
def Entry.started? : Entry S → Option (Picture S)
  | .called (.startFrame started) _ => some started
  | _ => none

/-- What a client asks of a session. Each packet comes with the backend as it answers then. -/
inductive Request (β S : Type) where
  | decode (backend : Backend β S) (packet : Packet)
  | flush
  | nextEvent

namespace Session

/-- The session after a request. -/
def handle (s : Session β S) : Request β S → Session β S
  | .decode backend packet => (s.decode backend packet).2
  | .flush => s.flush
  | .nextEvent => s.nextEvent.2

/-- The session after some requests. -/
def run (s : Session β S) (requests : List (Request β S)) : Session β S := requests.foldl handle s

theorem run_snoc (s : Session β S) (requests : List (Request β S)) (request : Request β S) :
    s.run (requests ++ [request]) = (s.run requests).handle request := by
  rw [run, List.foldl_append]
  rfl

/-- What every request preserves holds after any number of them. -/
theorem run_induction (P : Session β S → Prop) {s : Session β S} (hs : P s)
    (hstep : ∀ s request, P s → P (s.handle request)) (requests : List (Request β S)) :
    P (s.run requests) := by
  induction requests generalizing s with
  | nil => exact hs
  | cons request requests ih => exact ih (hstep s request hs)

end Session

end Av1Frames
