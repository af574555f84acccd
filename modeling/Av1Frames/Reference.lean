namespace Av1Frames

/-- The names of the references of a frame, the frame itself first. -/
inductive RefName where
  | intra
  | last
  | last2
  | last3
  | golden
  | bwdRef
  | altRef2
  | altRef
deriving DecidableEq, Repr, Inhabited

/-- The reference with a given number. -/
def RefName.ofNumber? : Int → Option RefName
  | 0 => some .intra
  | 1 => some .last
  | 2 => some .last2
  | 3 => some .last3
  | 4 => some .golden
  | 5 => some .bwdRef
  | 6 => some .altRef2
  | 7 => some .altRef
  | _ => none

/-- Eight places that decoded frames are kept in, each of them empty or taken. -/
abbrev Slots (α : Type) := Vector (Option α) 8

namespace Slots

variable {α β : Type}

/-- No slot is taken. -/
def empty : Slots α := Vector.replicate 8 none

/-- What slot `i` holds. Slots beyond the eighth are empty. -/
def content? (s : Slots α) (i : Nat) : Option α := s[i]?.join

/-- Puts `x` into every slot whose bit is set in `mask`. -/
def refresh (s : Slots α) (mask : Nat) (x : α) : Slots α :=
  Vector.ofFn fun i => if mask.testBit i then some x else s[i]

/-- What `f` says of the content of each slot. -/
def view (f : α → β) (s : Slots α) : Slots β := Vector.map (Option.map f) s

end Slots

/-- The mask that selects all eight slots. -/
def allSlots : Nat := 255

end Av1Frames
