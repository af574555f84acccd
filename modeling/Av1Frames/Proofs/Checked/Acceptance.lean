import Av1Frames.Proofs.Checked

namespace Av1Frames

variable {ε α β : Type}

/-- A computation succeeds if `P` holds, with a result of which `Q` holds, and otherwise fails with
    an error of its own kind. -/
inductive Outcome.Accepts (P : Prop) (Q : α → Prop) : Outcome ε α → Prop
  | ok {a : α} (hP : P) (hQ : Q a) : Accepts P Q (.ok a)
  | error (hP : ¬ P) (e : ε) : Accepts P Q (.error (.error e))

namespace Outcome.Accepts

variable {P P' : Prop} {Q : α → Prop} {Q' : β → Prop} {x : Outcome ε α}

theorem faultless (h : Accepts P Q x) : x.Faultless := by
  cases h with
  | ok hP hQ => exact .ok
  | error hP e => exact .fail

theorem exists_ok_iff (h : Accepts P Q x) : (∃ a, x = .ok a) ↔ P := by
  cases h with
  | ok hP hQ => exact iff_of_true ⟨_, rfl⟩ hP
  | error hP e => exact iff_of_false (fun ⟨_, h⟩ => nomatch h) hP

theorem of_iff (h : Accepts P Q x) (hiff : P ↔ P') : Accepts P' Q x := by
  cases h with
  | ok hP hQ => exact .ok (hiff.mp hP) hQ
  | error hP e => exact .error (fun hP' => hP (hiff.mpr hP')) e

theorem fail {e : ε} (hP : ¬ P) : Accepts P Q (Outcome.fail e) := .error hP e

/-- Both parts have to be accepted. The second one may rely on what the first one gave. -/
theorem bind {f : α → Outcome ε β} (hx : Accepts P Q x) (hf : ∀ a, Q a → Accepts P' Q' (f a)) :
    Accepts (P ∧ P') Q' (x >>= f) := by
  cases hx with
  | error hP e => exact .error (fun h => hP h.1) e
  | ok hP hQ => exact (hf _ hQ).of_iff (iff_and_self.mpr fun _ => hP)

/-- Nothing is refused once all that can fail is done. -/
theorem map {f : α → β} (hx : Accepts P Q x) (hf : ∀ a, Q a → Q' (f a)) :
    Accepts P Q' (x >>= fun a => pure (f a)) := by
  cases hx with
  | error hP e => exact .error hP e
  | ok hP hQ => exact .ok hP (hf _ hQ)

/-- What a guard stops is not accepted. -/
theorem guard {c : Prop} [Decidable c] {e : ε} {f : β → Outcome ε α}
    (hx : ¬ c → Accepts P Q x) :
    Accepts (¬ c ∧ P) Q (if c then Outcome.fail e >>= f else x) := by
  by_cases hc : c
  · rw [if_pos hc]
    exact .error (fun h => h.1 hc) e
  · rw [if_neg hc]
    exact (hx hc).of_iff (iff_and_self.mpr fun _ => hc)

/-- Checked arithmetic that stays in range has no part in what is accepted. -/
theorem lift_bind {y : Except Fault β} {b : β} {f : β → Outcome ε α} (hy : y = .ok b)
    (hf : Accepts P Q (f b)) : Accepts P Q (liftM y >>= f) := by
  rw [hy]
  exact hf

end Outcome.Accepts

end Av1Frames
