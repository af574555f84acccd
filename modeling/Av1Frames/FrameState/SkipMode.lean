import Av1Frames.OrderHint
import Av1Frames.Reference

namespace Av1Frames.SkipMode

/-- One of the seven references of a frame, by its index and its order hint. -/
abbrev Candidate := Nat × Nat

/-- The first of `candidates` that `isBetter` prefers over all those before it, among those with a
    distance that `allows`. -/
def best (allows : Nat → Except Fault Bool) (isBetter : Nat → Nat → Except Fault Bool) :
    List Candidate → Option Candidate → Except Fault (Option Candidate)
  | [], found => return found
  | c :: rest, found => do
    if ← allows c.2 then
      match found with
      | none => best allows isBetter rest (some c)
      | some f =>
        if ← isBetter c.2 f.2 then best allows isBetter rest (some c)
        else best allows isBetter rest found
    else
      best allows isBetter rest found

variable (distance : Nat → Nat → Except Fault Int)

/-- Whether the first order hint is displayed before the second. -/
def before (a b : Nat) : Except Fault Bool := do return (← distance a b) < 0

/-- Whether the first order hint is displayed after the second. -/
def after (a b : Nat) : Except Fault Bool := do return 0 < (← distance a b)

/-- The last reference that is displayed before `hint`. -/
def forward (hint : Nat) (candidates : List Candidate) : Except Fault (Option Candidate) :=
  best (before distance · hint) (after distance) candidates none

/-- The first reference that is displayed after `hint`. -/
def backward (hint : Nat) (candidates : List Candidate) : Except Fault (Option Candidate) :=
  best (after distance · hint) (before distance) candidates none

/-- The two references of skip mode for a frame with order hint `hint`: the nearest one before it,
    and the nearest one after it or, without one, the nearest one before the other reference. -/
def references (hint : Nat) (candidates : List Candidate) :
    Except Fault (Option (RefName × RefName)) := do
  let first ← forward distance hint candidates
  let later ← backward distance hint candidates
  let some (i, firstHint) := first | return none
  let second ← match later with
    | some c => pure (some c)
    | none => forward distance firstHint candidates
  let some (j, _) := second | return none
  return match RefName.ofNumber? (1 + min i j : Nat), RefName.ofNumber? (1 + max i j : Nat) with
    | some a, some b => some (a, b)
    | _, _ => none

end Av1Frames.SkipMode
