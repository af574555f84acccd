import Av1Frames.Proofs.Bits.Reader

namespace Av1Frames.Read

variable {α β : Type} {Q Q' : Bits → α → Prop}

/-- Wherever it starts, the read either runs out of bits, or takes some bits from the front and
    delivers a result that is related to them by `Q`. -/
def Consumes (m : Read α) (Q : Bits → α → Prop) : Prop :=
  ∀ r, Leads m r
    (fun a r' => ∃ word, r.rest = word ++ r'.rest ∧ r'.position = r.position + word.length ∧
      Q word a)
    fun e _ => e = .error .outOfBits

namespace Consumes

theorem mono {m : Read α} (hm : Consumes m Q) (hQ : ∀ word a, Q word a → Q' word a) :
    Consumes m Q' := by
  intro r
  refine (hm r).mono (fun a r' h => ?_) fun _ _ h => h
  obtain ⟨word, hrest, hposition, ha⟩ := h
  exact ⟨word, hrest, hposition, hQ word a ha⟩

theorem pure {a : α} (h : Q [] a) : Consumes (Pure.pure a) Q :=
  fun _ => leads_pure.mpr ⟨[], rfl, rfl, h⟩

theorem bind {m : Read α} {f : α → Read β} {R : Bits → β → Prop} (hm : Consumes m Q)
    (hf : ∀ word a, Q word a → Consumes (f a) fun word' b => R (word ++ word') b) :
    Consumes (m >>= f) R := by
  intro r
  rw [leads_bind]
  refine (hm r).mono (fun a r₁ h => ?_) fun _ _ h => h
  obtain ⟨word, hrest, hposition, ha⟩ := h
  refine (hf word a ha r₁).mono (fun b r₂ h => ?_) fun _ _ h => h
  obtain ⟨word', hrest', hposition', hb⟩ := h
  refine ⟨word ++ word', ?_, ?_, hb⟩
  · rw [hrest, hrest', List.append_assoc]
  · rw [hposition', hposition, List.length_append, Nat.add_assoc]

/-- What is done with a result needs no more bits. -/
theorem bind_pure {m : Read α} {f : α → β} {R : Bits → β → Prop} (hm : Consumes m Q)
    (hf : ∀ word a, Q word a → R word (f a)) :
    Consumes (do return f (← m)) R :=
  hm.bind fun word a ha => pure ((List.append_nil word).symm ▸ hf word a ha)

theorem checked_bind {x : Except Fault α} {a : α} {f : α → Read β} {R : Bits → β → Prop}
    (hx : x = .ok a) (hf : Consumes (f a) R) : Consumes (liftM x >>= f) R :=
  fun r => leads_checked_bind hx (hf r)

theorem bit : Consumes Read.bit fun word b => word = [b] := by
  rintro ⟨rest, position⟩
  cases rest with
  | nil =>
    rw [Read.bit, leads_bind, leads_get]
    exact leads_throw.mpr rfl
  | cons b rest => exact leads_of_run (run_bit rfl) ⟨[b], rfl, rfl, rfl⟩

theorem fixed {n : Nat} (hn : n ≤ 31) :
    Consumes (Read.fixed n) fun word v => word.length = n ∧ v = Bits.toNat word := by
  intro r
  refine leads_fixed (fun hmany => absurd hn (Nat.not_le_of_lt hmany)) (fun _ _ => rfl)
    fun _ hleft => ?_
  have hlength : (r.rest.take n).length = n := List.length_take_of_le hleft
  refine ⟨r.rest.take n, (List.take_append_drop n r.rest).symm, ?_, hlength, rfl⟩
  rw [hlength]
  rfl

end Consumes

end Av1Frames.Read
