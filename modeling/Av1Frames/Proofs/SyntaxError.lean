import Av1Frames.Proofs.Checked
import Av1Frames.SyntaxError

namespace Av1Frames.Encoding

theorem invalid_eq_fail {α : Type} {e : SyntaxElement} :
    (invalid e : Encoding α) = Outcome.fail (.element e) := rfl

theorem length32_eq_ok_iff {n m : Nat} :
    length32 n = .ok m ↔ n < 0x100000000 ∧ n = m := by
  unfold length32
  split <;> simp_all

theorem descriptor_eq_ok_iff {α : Type} {x : Outcome WriteError α} {a : α} :
    (liftM x : Encoding α) = .ok a ↔ x = .ok a := mapError_eq_ok_iff

/-- Structures that are written one after the other have the bits of all of them. -/
theorem list_eq_ok {α : Type} {f : α → Encoding Bits} {g : List α → Encoding Bits}
    (hnil : g [] = .ok []) (hcons : ∀ a l, g (a :: l) = do return (← f a) ++ (← g l)) {n : Nat}
    {a : Fin n → α} {words : Fin n → Bits} (h : ∀ i, f (a i) = .ok (words i)) :
    g (List.ofFn a) = .ok (List.ofFn words).flatten := by
  induction n with
  | zero => rw [List.ofFn_zero, List.ofFn_zero, hnil, List.flatten_nil]
  | succ n ih =>
    rw [List.ofFn_succ, List.ofFn_succ, hcons, h 0, ok_bind, ih fun i => h i.succ]
    rfl

end Av1Frames.Encoding
