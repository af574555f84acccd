import Av1Frames.Proofs.Checked

namespace Av1Frames

variable {ε δ α β : Type}

/-- A computation faults if `F` holds. Otherwise it succeeds if `P` holds, and fails with an error
    of the kind `E` if not. -/
inductive Outcome.DecidedBy (F P : Prop) (E : ε → Prop) : Outcome ε α → Prop
  | ok (hF : ¬ F) (hP : P) (a : α) : DecidedBy F P E (.ok a)
  | error (hF : ¬ F) (hP : ¬ P) {e : ε} (he : E e) : DecidedBy F P E (.error (.error e))
  | fault (hF : F) (f : Fault) : DecidedBy F P E (.error (.fault f))

namespace Outcome.DecidedBy

variable {F F' P P' : Prop} {E E' : ε → Prop} {x : Outcome ε α}

theorem faultless_iff (h : DecidedBy F P E x) : x.Faultless ↔ ¬ F := by
  cases h with
  | ok hF hP a => exact iff_of_true .ok hF
  | error hF hP he => exact iff_of_true .fail hF
  | fault hF f => exact iff_of_false (fun h => h f rfl) (not_not.mpr hF)

theorem exists_ok_iff (h : DecidedBy F P E x) : (∃ a, x = .ok a) ↔ ¬ F ∧ P := by
  cases h with
  | ok hF hP a => exact iff_of_true ⟨a, rfl⟩ ⟨hF, hP⟩
  | error hF hP he => exact iff_of_false (fun ⟨_, h⟩ => nomatch h) fun h => hP h.2
  | fault hF f => exact iff_of_false (fun ⟨_, h⟩ => nomatch h) fun h => h.1 hF

theorem of_fail {e : ε} (h : DecidedBy F P E (.fail e : Outcome ε α)) : E e := by
  cases h with
  | error hF hP he => exact he

theorem exists_fail (h : DecidedBy F P E x) (hF : ¬ F) (hP : ¬ P) : ∃ e, x = .fail e ∧ E e := by
  cases h with
  | ok _ hP' a => exact absurd hP' hP
  | error _ _ he => exact ⟨_, rfl, he⟩
  | fault hF' f => exact absurd hF' hF

theorem mono (h : DecidedBy F P E x) (hF : F ↔ F') (hP : ¬ F → (P ↔ P'))
    (hE : ∀ e, E e → E' e) : DecidedBy F' P' E' x := by
  cases h with
  | ok hF' hP' a => exact .ok (hF.not.mp hF') ((hP hF').mp hP') a
  | error hF' hP' he => exact .error (hF.not.mp hF') ((hP hF').not.mp hP') (hE _ he)
  | fault hF' f => exact .fault (hF.mp hF') f

/-- Where there are no faults, the result decides. -/
theorem of_faultless (hx : x.Faultless) :
    DecidedBy False (∃ a, x = .ok a) (fun e => x = .fail e) x := by
  cases x with
  | ok a => exact .ok not_false ⟨a, rfl⟩ a
  | error failure =>
    cases failure with
    | fault f => exact absurd rfl (hx f)
    | error e => exact .error not_false (fun ⟨_, h⟩ => nomatch h) rfl

theorem pure {a : α} : DecidedBy False True E (Pure.pure a : Outcome ε α) :=
  .ok not_false trivial a

/-- What comes second only matters if the first part succeeds, and may rely on its result. -/
theorem bind {f : α → Outcome ε β} {F' P' : α → Prop} (hx : DecidedBy F P E x)
    (hf : ∀ a, x = .ok a → DecidedBy (F' a) (P' a) E (f a)) :
    DecidedBy (F ∨ ∃ a, x = .ok a ∧ F' a) (∃ a, x = .ok a ∧ P' a) E (x >>= f) := by
  cases hx with
  | ok hF hP a =>
    refine (hf a rfl).mono ⟨fun h => .inr ⟨a, rfl, h⟩, ?_⟩ (fun _ => ⟨fun h => ⟨a, rfl, h⟩, ?_⟩)
      fun _ h => h
    · rintro (h | ⟨a', ha', h⟩)
      · exact absurd h hF
      · exact Except.ok.inj ha' ▸ h
    · rintro ⟨a', ha', h⟩
      exact Except.ok.inj ha' ▸ h
  | error hF hP he =>
    refine .error ?_ (fun ⟨_, h, _⟩ => nomatch h) he
    rintro (h | ⟨_, h, _⟩)
    · exact hF h
    · exact nomatch h
  | fault hF f => exact .fault (.inl hF) f

/-- As `bind`, where what comes second does not depend on the result of the first part. -/
theorem seq {f : α → Outcome ε β} (hx : DecidedBy F P E x)
    (hf : ∀ a, x = .ok a → DecidedBy F' P' E (f a)) :
    DecidedBy (F ∨ P ∧ F') (P ∧ P') E (x >>= f) := by
  cases hx with
  | ok hF hP a =>
    exact (hf a rfl).mono ⟨fun h => .inr ⟨hP, h⟩, fun h => (h.resolve_left hF).2⟩
      (fun _ => (and_iff_right hP).symm) fun _ h => h
  | error hF hP he => exact .error (fun h => h.elim hF fun h => hP h.1) (fun h => hP h.1) he
  | fault hF f => exact .fault (.inl hF) f

theorem map {f : α → β} (hx : DecidedBy F P E x) :
    DecidedBy F P E (x >>= fun a => Pure.pure (f a)) :=
  (hx.seq fun _ _ => pure).mono (by simp) (fun _ => by simp) fun _ h => h

/-- A guard stops what does not pass it. -/
theorem guard {c : Prop} [Decidable c] {e : ε} {f : β → Outcome ε α} (he : E e)
    (hx : ¬ c → DecidedBy F P E x) :
    DecidedBy (¬ c ∧ F) (¬ c ∧ P) E (if c then Outcome.fail e >>= f else x) := by
  by_cases hc : c
  · rw [if_pos hc]
    exact .error (fun h => h.1 hc) (fun h => h.1 hc) he
  · rw [if_neg hc]
    exact (hx hc).mono (and_iff_right hc).symm (fun _ => (and_iff_right hc).symm) fun _ h => h

/-- Checked arithmetic that stays in range decides nothing. -/
theorem lift_bind {y : Except Fault β} {b : β} {f : β → Outcome ε α} (hy : y = .ok b)
    (hf : DecidedBy F P E (f b)) : DecidedBy F P E (liftM y >>= f) := by
  rw [hy]
  exact hf

/-- Checked arithmetic has no errors besides faults. -/
theorem lift_bind_of_iff {y : Except Fault β} {f : β → Outcome ε α}
    (hy : (∃ b, y = .ok b) ↔ ¬ F) (hf : ∀ b, y = .ok b → DecidedBy F' P E (f b)) :
    DecidedBy (F ∨ F') P E (liftM y >>= f) := by
  cases y with
  | ok b =>
    have hF : ¬ F := hy.mp ⟨b, rfl⟩
    exact (hf b rfl).mono (or_iff_right hF).symm (fun _ => Iff.rfl) fun _ h => h
  | error f =>
    have hF : F := not_not.mp fun hF => nomatch (hy.mpr hF).choose_spec
    exact .fault (.inl hF) f

theorem mapError {f : ε → δ} {E' : δ → Prop} (hx : DecidedBy F P E x)
    (hE : ∀ e, E e → E' (f e)) : DecidedBy F P E' (x.mapError f) := by
  cases hx with
  | ok hF hP a => exact .ok hF hP a
  | error hF hP he => exact .error hF hP (hE _ he)
  | fault hF g => exact .fault hF g

/-- A vector faults with the first entry that does, unless an entry before it fails. -/
theorem ofFnM {n : Nat} {f : Fin n → Outcome ε α} {F P : Fin n → Prop}
    (h : ∀ i, DecidedBy (F i) (P i) E (f i)) :
    DecidedBy (∃ i, F i ∧ ∀ j < i, P j) (∀ i, P i) E (Vector.ofFnM f) := by
  induction n with
  | zero =>
    rw [Vector.ofFnM_zero]
    exact .ok (fun ⟨i, _⟩ => i.elim0) (fun i => i.elim0) _
  | succ n ih =>
    rw [Vector.ofFnM_succ]
    refine ((ih fun i => h i.castSucc).seq fun _ _ => (h (Fin.last n)).map).mono ?_ ?_ fun _ h => h
    · have hcast (i : Fin n) : (∀ j < i.castSucc, P j) ↔ ∀ j < i, P j.castSucc := by
        simp [Fin.forall_fin_succ', Fin.castSucc_lt_castSucc_iff, (Fin.castSucc_lt_last i).not_gt]
      have hlast : (∀ j < Fin.last n, P j) ↔ ∀ j : Fin n, P j.castSucc := by
        simp [Fin.forall_fin_succ', Fin.castSucc_lt_last]
      simp only [Fin.exists_fin_succ', hcast, hlast, and_comm]
    · exact fun _ => Fin.forall_fin_succ'.symm

end Outcome.DecidedBy

end Av1Frames
