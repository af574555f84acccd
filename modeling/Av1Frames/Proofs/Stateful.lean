import Av1Frames.Proofs.Checked

namespace Av1Frames

variable {ε σ α β : Type}

theorem run_bind_of_ok {x : ExceptT ε (StateM σ) α} {f : α → ExceptT ε (StateM σ) β} {s s' : σ}
    {a : α} (hx : x.run s = (.ok a, s')) : (x >>= f).run s = (f a).run s' := by
  change (ExceptT.bindCont f (x.run s).1) (x.run s).2 = _
  rw [hx]
  rfl

theorem run_bind_of_error {x : ExceptT ε (StateM σ) α} {f : α → ExceptT ε (StateM σ) β} {s s' : σ}
    {e : ε} (hx : x.run s = (.error e, s')) : (x >>= f).run s = (.error e, s') := by
  change (ExceptT.bindCont f (x.run s).1) (x.run s).2 = _
  rw [hx]
  rfl

theorem run_checked {δ : Type} {x : Except Fault α} {a : α} {s : σ} (hx : x = .ok a) :
    (liftM x : ExceptT (Failure δ) (StateM σ) α).run s = (.ok a, s) := by
  rw [hx]
  rfl

/-- From `s` the computation ends with a result and a state for which `Q` holds, or with an error
    and a state for which `E` holds. -/
def Leads (m : ExceptT ε (StateM σ) α) (s : σ) (Q : α → σ → Prop) (E : ε → σ → Prop) : Prop :=
  match m.run s with
  | (.ok a, s') => Q a s'
  | (.error e, s') => E e s'

variable {m : ExceptT ε (StateM σ) α} {s s' : σ} {Q Q' : α → σ → Prop} {E E' : ε → σ → Prop}

theorem Leads.ok (h : Leads m s Q E) {a : α} (hrun : m.run s = (.ok a, s')) : Q a s' := by
  simpa [Leads, hrun] using h

theorem Leads.error (h : Leads m s Q E) {e : ε} (hrun : m.run s = (.error e, s')) : E e s' := by
  simpa [Leads, hrun] using h

/-- A computation that leads to no error has a result. -/
theorem Leads.exists_ok (h : Leads m s Q fun _ _ => False) :
    ∃ a s', m.run s = (.ok a, s') ∧ Q a s' := by
  rcases hrun : m.run s with ⟨e | a, s'⟩
  · exact (h.error hrun).elim
  · exact ⟨a, s', rfl, h.ok hrun⟩

theorem leads_of_run {a : α} (hrun : m.run s = (.ok a, s')) (h : Q a s') : Leads m s Q E := by
  simpa [Leads, hrun] using h

theorem Leads.mono (h : Leads m s Q E) (hQ : ∀ a s', Q a s' → Q' a s')
    (hE : ∀ e s', E e s' → E' e s') : Leads m s Q' E' := by
  unfold Leads at h ⊢
  split at h
  · exact hQ _ _ h
  · exact hE _ _ h

/-- What is known of the end of a computation from two sides. -/
theorem Leads.and (h : Leads m s Q E) (h' : Leads m s Q' E') :
    Leads m s (fun a s' => Q a s' ∧ Q' a s') fun e s' => E e s' ∧ E' e s' := by
  unfold Leads at *
  revert h h'
  rcases m.run s with ⟨_ | _, _⟩ <;> exact And.intro

/-- A sequence ends as its second part does after its first, unless the first part fails. -/
theorem leads_bind {f : α → ExceptT ε (StateM σ) β} {Q : β → σ → Prop} :
    Leads (m >>= f) s Q E ↔ Leads m s (fun a s' => Leads (f a) s' Q E) E := by
  have hrun : (m >>= f).run s = (ExceptT.bindCont f (m.run s).1) (m.run s).2 := rfl
  unfold Leads
  rw [hrun]
  rcases m.run s with ⟨_ | _, _⟩ <;> rfl

theorem leads_pure {a : α} : Leads (pure a : ExceptT ε (StateM σ) α) s Q E ↔ Q a s := Iff.rfl

theorem leads_throw {e : ε} : Leads (throw e : ExceptT ε (StateM σ) α) s Q E ↔ E e s := Iff.rfl

theorem leads_get {Q : σ → σ → Prop} : Leads (get : ExceptT ε (StateM σ) σ) s Q E ↔ Q s s :=
  Iff.rfl

theorem leads_set {Q : PUnit → σ → Prop} :
    Leads (set s' : ExceptT ε (StateM σ) PUnit) s Q E ↔ Q ⟨⟩ s' := Iff.rfl

theorem leads_modify {f : σ → σ} {Q : PUnit → σ → Prop} :
    Leads (modify f : ExceptT ε (StateM σ) PUnit) s Q E ↔ Q ⟨⟩ (f s) := Iff.rfl

theorem leads_ite {c : Prop} [Decidable c] {m n : ExceptT ε (StateM σ) α}
    (hm : c → Leads m s Q E) (hn : ¬ c → Leads n s Q E) : Leads (if c then m else n) s Q E := by
  split
  · exact hm ‹_›
  · exact hn ‹_›

/-- Checked arithmetic leaves the state as it is. -/
theorem leads_checked {δ : Type} {x : Except Fault α} {E : Failure δ → σ → Prop} :
    Leads (liftM x : ExceptT (Failure δ) (StateM σ) α) s Q E ↔
      (∀ a, x = .ok a → Q a s) ∧ ∀ f, x = .error f → E (.fault f) s := by
  cases x with
  | ok a => exact ⟨fun h => ⟨fun _ h' => Except.ok.inj h' ▸ h, nofun⟩, fun h => h.1 a rfl⟩
  | error f => exact ⟨fun h => ⟨nofun, fun _ h' => Except.error.inj h' ▸ h⟩, fun h => h.2 f rfl⟩

theorem leads_checked_of_ok {δ : Type} {x : Except Fault α} {a : α} {E : Failure δ → σ → Prop}
    (hx : x = .ok a) (h : Q a s) : Leads (liftM x : ExceptT (Failure δ) (StateM σ) α) s Q E := by
  subst hx
  exact leads_checked.mpr ⟨fun _ h' => Except.ok.inj h' ▸ h, nofun⟩

theorem leads_checked_bind {δ : Type} {x : Except Fault α} {a : α}
    {f : α → ExceptT (Failure δ) (StateM σ) β} {Q : β → σ → Prop} {E : Failure δ → σ → Prop}
    (hx : x = .ok a) (h : Leads (f a) s Q E) : Leads (liftM x >>= f) s Q E :=
  leads_bind.mpr (leads_checked_of_ok hx h)

-- From here on computations are followed by the rules above, and never by evaluating them.
attribute [irreducible] Leads

end Av1Frames
