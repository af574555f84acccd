import Mathlib.Tactic
import Av1Frames.Reference

namespace Av1Frames

theorem testBit_allSlots {i : Nat} (hi : i < 8) : allSlots.testBit i = true := by
  revert i
  decide

namespace Slots

variable {α β : Type} {slots : Slots α} {i : Nat} {x : α}

theorem content?_of_lt (hi : i < 8) : slots.content? i = slots[i] := by
  rw [content?, Vector.getElem?_eq_getElem hi, Option.join_some]

theorem lt_of_content? (h : slots.content? i = some x) : i < 8 := by
  by_contra hi
  rw [content?, Vector.getElem?_eq_none (Nat.not_lt.mp hi)] at h
  exact nomatch h

theorem content?_empty (i : Nat) : (empty : Slots α).content? i = none := by
  by_cases hi : i < 8
  · rw [content?_of_lt hi, empty, Vector.getElem_replicate]
  · rw [content?, Vector.getElem?_eq_none (Nat.not_lt.mp hi)]
    rfl

/-- A slot whose bit is set holds what was put into it, and any other one what it held. -/
theorem content?_refresh (slots : Slots α) (mask : Nat) (x : α) (hi : i < 8) :
    (slots.refresh mask x).content? i =
      if mask.testBit i then some x else slots.content? i := by
  rw [content?_of_lt hi, content?_of_lt hi, refresh, Vector.getElem_ofFn]
  rfl

theorem content?_refresh_allSlots (slots : Slots α) (x : α) (hi : i < 8) :
    (slots.refresh allSlots x).content? i = some x := by
  rw [content?_refresh slots allSlots x hi, if_pos (testBit_allSlots hi)]

theorem content?_view (f : α → β) (slots : Slots α) (i : Nat) :
    (slots.view f).content? i = (slots.content? i).map f := by
  by_cases hi : i < 8
  · rw [content?_of_lt hi, content?_of_lt hi, view, Vector.getElem_map]
  · rw [content?, content?, Vector.getElem?_eq_none (Nat.not_lt.mp hi),
      Vector.getElem?_eq_none (Nat.not_lt.mp hi)]
    rfl

/-- What holds of everything in the slots still does when something else is put into them of which
    it holds. -/
theorem forall_content?_refresh {P : α → Prop} (hslots : ∀ i y, slots.content? i = some y → P y)
    (hx : P x) (mask i : Nat) (y : α) (hy : (slots.refresh mask x).content? i = some y) : P y := by
  rw [content?_refresh slots mask x (lt_of_content? hy)] at hy
  split at hy
  · exact Option.some.inj hy ▸ hx
  · exact hslots i y hy

end Slots

end Av1Frames
