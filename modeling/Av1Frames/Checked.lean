namespace Av1Frames

/-- What a computation on machine integers can run into. Values are mathematical integers; each
    operation says whether its result fits the width that holds it, and faults otherwise. -/
inductive Fault where
  /-- A result does not fit its width. -/
  | overflow
  /-- A shift by at least the width of the shifted value. -/
  | shift
  /-- A division by zero. -/
  | division
  /-- An argument outside the domain of the operation. -/
  | domain
deriving DecidableEq, Repr

/-- How a computation fails: by a fault of its arithmetic, or with an error of its own kind. -/
inductive Failure (ε : Type) where
  | fault (f : Fault)
  | error (e : ε)
deriving DecidableEq, Repr

/-- The same failure, with the error seen by a caller whose errors include it. -/
def Failure.map {ε δ : Type} (f : ε → δ) : Failure ε → Failure δ
  | .fault x => .fault x
  | .error e => .error (f e)

/-- A result of a computation that faults or fails with an `ε`. -/
abbrev Outcome (ε α : Type) := Except (Failure ε) α

/-- Checked arithmetic may be used wherever failures are possible. -/
instance {ε : Type} : MonadLift (Except Fault) (Except (Failure ε)) where
  monadLift x := x.mapError Failure.fault

/-- An error of the computation's own kind. -/
def Outcome.fail {ε α : Type} (e : ε) : Outcome ε α := .error (.error e)

/-- The same outcome, with its errors seen by a caller whose errors include them. -/
def Outcome.mapError {ε δ α : Type} (f : ε → δ) (x : Outcome ε α) : Outcome δ α :=
  Except.mapError (Failure.map f) x

namespace Checked

/-- A result held in 32 unsigned bits. -/
def unsigned (x : Int) : Except Fault Nat :=
  if 0 ≤ x ∧ x < 0x100000000 then .ok x.toNat else .error .overflow

/-- A result held in 64 unsigned bits, as sizes and offsets are. -/
def size (x : Int) : Except Fault Nat :=
  if 0 ≤ x ∧ x < 0x10000000000000000 then .ok x.toNat else .error .overflow

/-- How far the size `x` is above `y`, which must not be the greater one. -/
def difference (x y : Nat) : Except Fault Nat :=
  if y ≤ x then .ok (x - y) else .error .overflow

/-- A result held in 32 bits of two's complement. -/
def signed (x : Int) : Except Fault Int :=
  if -0x80000000 ≤ x ∧ x < 0x80000000 then .ok x else .error .overflow

/-- The value that the low 32 bits of `x` stand for in two's complement. -/
def wrapSigned (x : Int) : Int := x.bmod 0x100000000

/-- The value that the low 32 bits of `x` stand for without a sign. -/
def wrapUnsigned (x : Int) : Nat := (x % 0x100000000).toNat

/-- Shifts 32 unsigned bits up. Bits shifted out are lost, only the amount is checked. -/
def shiftLeft (x amount : Nat) : Except Fault Nat :=
  if amount < 32 then .ok ((x <<< amount) % 0x100000000) else .error .shift

/-- Shifts 32 signed bits up. Bits shifted out are lost, only the amount is checked. -/
def shiftLeftSigned (x : Int) (amount : Nat) : Except Fault Int :=
  if amount < 32 then .ok (wrapSigned (x <<< amount)) else .error .shift

/-- Shifts 32 unsigned bits down. -/
def shiftRight (x amount : Nat) : Except Fault Nat :=
  if amount < 32 then .ok (x >>> amount) else .error .shift

/-- The quotient rounded down. -/
def divide (x y : Nat) : Except Fault Nat :=
  if y = 0 then .error .division else .ok (x / y)

/-- The quotient rounded up, which is never above `x`. -/
def divideUp (x y : Nat) : Except Fault Nat :=
  if y = 0 then .error .division else .ok ((x + y - 1) / y)

end Checked

end Av1Frames
