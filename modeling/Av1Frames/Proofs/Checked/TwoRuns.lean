import Av1Frames.Proofs.Checked

namespace Av1Frames

variable {ε α β γ δ : Type}

/-- Two computations end alike: with the same failure, or with results that `R` relates. -/
inductive Outcome.Rel (R : α → β → Prop) : Outcome ε α → Outcome ε β → Prop
  | ok {a : α} {b : β} (h : R a b) : Rel R (.ok a) (.ok b)
  | error (e : Failure ε) : Rel R (.error e) (.error e)

namespace Outcome.Rel

variable {R : α → β → Prop} {S : γ → δ → Prop}

theorem fail {e : ε} : Rel R (Outcome.fail e) (Outcome.fail e) := .error _

theorem of_ok {x : Outcome ε α} {y : Outcome ε β} {a : α} {b : β} (h : Rel R x y) (hx : x = .ok a)
    (hy : y = .ok b) : R a b := by
  cases h with
  | ok h =>
    obtain rfl := Except.ok.inj hx
    obtain rfl := Except.ok.inj hy
    exact h
  | error e => exact nomatch hx

/-- What comes next may rely on what the runs have in common so far. -/
theorem bind {x : Outcome ε α} {y : Outcome ε β} {f : α → Outcome ε γ} {g : β → Outcome ε δ}
    (hxy : Rel R x y) (hfg : ∀ a b, R a b → Rel S (f a) (g b)) : Rel S (x >>= f) (y >>= g) := by
  cases hxy with
  | ok h => exact hfg _ _ h
  | error e => exact .error e

theorem mapError {ε' : Type} {f : ε → ε'} {x : Outcome ε α} {y : Outcome ε β} (h : Rel R x y) :
    Rel R (x.mapError f) (y.mapError f) := by
  cases h with
  | ok h => exact .ok h
  | error e => exact .error _

/-- Runs that end alike with equal results are equal. -/
theorem eq {x y : Outcome ε α} (h : Rel Eq x y) : x = y := by
  cases h with
  | ok h => rw [h]
  | error e => rfl

theorem of_eq {R : α → α → Prop} {x y : Outcome ε α} (hxy : x = y) (hR : ∀ a, R a a) :
    Rel R x y := by
  subst hxy
  cases x with
  | ok a => exact .ok (hR a)
  | error e => exact .error e

/-- Vectors are computed entry by entry, up to the same failure. -/
theorem ofFnM {n : Nat} {R : Fin n → α → β → Prop} {f : Fin n → Outcome ε α}
    {g : Fin n → Outcome ε β} (h : ∀ i, Rel (R i) (f i) (g i)) :
    Rel (fun v w => ∀ i, R i (v.get i) (w.get i)) (Vector.ofFnM f) (Vector.ofFnM g) := by
  induction n with
  | zero =>
    rw [Vector.ofFnM_zero, Vector.ofFnM_zero]
    exact .ok fun i => i.elim0
  | succ n ih =>
    rw [Vector.ofFnM_succ, Vector.ofFnM_succ]
    apply (ih fun i => h i.castSucc).bind
    intro v w hvw
    apply (h (Fin.last n)).bind
    intro a b hab
    apply Rel.ok
    intro i
    induction i using Fin.lastCases with
    | last => simpa [get_eq_getElem] using hab
    | cast i => simpa [get_eq_getElem, Vector.getElem_push_lt] using hvw i

end Outcome.Rel

end Av1Frames
