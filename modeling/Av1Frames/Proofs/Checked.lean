import Mathlib.Algebra.Order.Floor.Div
import Mathlib.Tactic
import Av1Frames.Checked

namespace Av1Frames

variable {ε δ α β : Type}

theorem bind_eq_ok_iff {x : Except ε α} {f : α → Except ε β} {b : β} :
    (x >>= f) = .ok b ↔ ∃ a, x = .ok a ∧ f a = .ok b := by
  cases x <;> simp [Bind.bind, Except.bind]

theorem bind_eq_error_iff {x : Except ε α} {f : α → Except ε β} {e : ε} :
    (x >>= f) = .error e ↔ x = .error e ∨ ∃ a, x = .ok a ∧ f a = .error e := by
  cases x <;> simp [Bind.bind, Except.bind]

theorem ok_bind {a : α} {f : α → Except ε β} : (Except.ok a >>= f) = f a := rfl

/-- A guard in front of a computation: it succeeds only where the guard does not apply. -/
theorem guard_eq_ok_iff {c : Prop} [Decidable c] {e : ε} {f : α → Outcome ε β} {x : Outcome ε β}
    {b : β} : (if c then Outcome.fail e >>= f else x) = .ok b ↔ ¬ c ∧ x = .ok b := by
  by_cases hc : c <;> simp [hc, Outcome.fail, Bind.bind, Except.bind]

@[simp]
theorem liftM_eq_ok_iff {x : Except Fault α} {a : α} :
    (liftM x : Outcome ε α) = .ok a ↔ x = .ok a := by
  cases x with
  | error f => exact iff_of_false (fun h => nomatch h) (fun h => nomatch h)
  | ok b =>
    exact ⟨fun h => congrArg Except.ok (Except.ok.inj h),
      fun h => congrArg Except.ok (Except.ok.inj h)⟩

theorem liftM_eq_fault_iff {x : Except Fault α} {f : Fault} :
    (liftM x : Outcome ε α) = .error (.fault f) ↔ x = .error f := by
  cases x with
  | error g =>
    exact ⟨fun h => congrArg Except.error (Failure.fault.inj (Except.error.inj h)),
      fun h => congrArg (fun g => Except.error (Failure.fault g)) (Except.error.inj h)⟩
  | ok a => exact iff_of_false (fun h => nomatch h) (fun h => nomatch h)

@[simp]
theorem mapError_eq_ok_iff {f : ε → δ} {x : Outcome ε α} {a : α} :
    x.mapError f = .ok a ↔ x = .ok a := by
  cases x <;> simp [Outcome.mapError, Except.mapError]

@[simp]
theorem fail_ne_ok {e : ε} {a : α} : (Outcome.fail e : Outcome ε α) ≠ .ok a := by
  simp [Outcome.fail]

theorem get_eq_getElem {n : Nat} (v : Vector α n) (i : Fin n) : v.get i = v[i.val] := rfl

theorem mem_toList_tail_iff {n : Nat} {v : Vector α n} {x : α} :
    x ∈ v.toList.tail ↔ ∃ r : Fin n, r.val ≠ 0 ∧ v.get r = x := by
  rw [List.mem_iff_getElem]
  simp only [List.length_tail, Vector.length_toList, List.getElem_tail, Vector.getElem_toList]
  constructor
  · rintro ⟨i, hi, rfl⟩
    exact ⟨⟨i + 1, by omega⟩, Nat.succ_ne_zero i, rfl⟩
  · rintro ⟨⟨r, hr⟩, hpos, rfl⟩
    cases r with
    | zero => exact absurd rfl hpos
    | succ i => exact ⟨i, Nat.lt_sub_of_add_lt hr, rfl⟩

/-- A vector is computed entry by entry, and only if every entry can be computed. -/
theorem ofFnM_eq_ok_iff {n : Nat} {f : Fin n → Except ε α} {v : Vector α n} :
    Vector.ofFnM f = .ok v ↔ ∀ i, f i = .ok (v.get i) := by
  induction n with
  | zero =>
    simp only [Vector.ofFnM_zero, IsEmpty.forall_iff, iff_true]
    exact congrArg Except.ok (Vector.ext fun i hi => absurd hi (Nat.not_lt_zero i))
  | succ n ih =>
    rw [Vector.ofFnM_succ, bind_eq_ok_iff]
    constructor
    · rintro ⟨init, hinit, hlast⟩ i
      rw [bind_eq_ok_iff] at hlast
      obtain ⟨last, hlast, hpush⟩ := hlast
      obtain rfl : init.push last = v := Except.ok.inj hpush
      induction i using Fin.lastCases with
      | last => simpa [get_eq_getElem] using hlast
      | cast i => simpa [get_eq_getElem, Vector.getElem_push_lt] using ih.mp hinit i
    · intro h
      refine ⟨v.pop, ih.mpr fun i => ?_, ?_⟩
      · simpa [get_eq_getElem] using h i.castSucc
      · rw [h (Fin.last n)]
        refine congrArg Except.ok (Vector.ext fun i hi => ?_)
        by_cases hlt : i < n
        · simp [Vector.getElem_push_lt, hlt]
        · obtain rfl : i = n := by omega
          simp [get_eq_getElem]

theorem ofFnM_of_eq_ok {n : Nat} {f : Fin n → Except ε α} {g : Fin n → α}
    (h : ∀ i, f i = .ok (g i)) : Vector.ofFnM f = .ok (Vector.ofFn g) :=
  ofFnM_eq_ok_iff.mpr fun i => by rw [h i, get_eq_getElem, Vector.getElem_ofFn]

/-- A list is computed entry by entry, and only if every entry can be computed. -/
theorem mapM_eq_ok_iff {f : α → Except ε β} {l : List α} {out : List β} :
    l.mapM f = .ok out ↔ List.Forall₂ (fun a b => f a = .ok b) l out := by
  induction l generalizing out with
  | nil => cases out <;> simp [pure, Except.pure]
  | cons a l ih =>
    rw [List.mapM_cons, List.forall₂_cons_left_iff]
    simp only [bind_eq_ok_iff, ih]
    constructor
    · rintro ⟨b, hb, rest, hrest, h⟩
      exact ⟨b, rest, hb, hrest, (Except.ok.inj h).symm⟩
    · rintro ⟨b, rest, hb, hrest, rfl⟩
      exact ⟨b, hb, rest, hrest, rfl⟩

theorem exists_mapM_iff {f : α → Except ε β} {l : List α} :
    (∃ out, l.mapM f = .ok out) ↔ ∀ a ∈ l, ∃ b, f a = .ok b := by
  induction l with
  | nil => exact iff_of_true ⟨[], rfl⟩ nofun
  | cons a l ih =>
    rw [List.forall_mem_cons, ← ih, List.mapM_cons]
    simp only [bind_eq_ok_iff]
    constructor
    · rintro ⟨_, b, hb, out, hout, -⟩
      exact ⟨⟨b, hb⟩, out, hout⟩
    · rintro ⟨⟨b, hb⟩, out, hout⟩
      exact ⟨b :: out, b, hb, out, hout, rfl⟩

theorem mapM_range_eq_ok {f : Nat → Except ε β} {n : Nat} {out : List β}
    (h : (List.range n).mapM f = .ok out) :
    out.length = n ∧ ∀ (i : Nat) (hi : i < out.length), f i = .ok out[i] := by
  have hentries := mapM_eq_ok_iff.mp h
  have hlength := hentries.length_eq
  rw [List.length_range] at hlength
  refine ⟨hlength.symm, fun i hi => ?_⟩
  have hentry := hentries.get (i := i) (by simpa [hlength] using hi) hi
  simpa using hentry

/-- A computation that may fail with an error of its own kind, but not by a fault. -/
def Outcome.Faultless (x : Outcome ε α) : Prop := ∀ f, x ≠ .error (.fault f)

namespace Outcome.Faultless

theorem ok {a : α} : Outcome.Faultless (.ok a : Outcome ε α) := nofun

theorem fail {e : ε} : Outcome.Faultless (.fail e : Outcome ε α) := nofun

instance (x : Outcome ε α) : Decidable x.Faultless :=
  match x with
  | .ok _ => isTrue ok
  | .error (.error _) => isTrue fail
  | .error (.fault f) => isFalse fun h => h f rfl

theorem bind {x : Outcome ε α} {f : α → Outcome ε β} (hx : x.Faultless)
    (hf : ∀ a, x = .ok a → (f a).Faultless) : Outcome.Faultless (x >>= f) := by
  cases x with
  | error e => exact fun g h => hx g (congrArg Except.error (Except.error.inj h))
  | ok a => exact hf a rfl

/-- A guard only adds an error of the computation's own kind. -/
theorem guard {c : Prop} [Decidable c] {e : ε} {f : α → Outcome ε β} {x : Outcome ε β}
    (hx : ¬ c → x.Faultless) : Outcome.Faultless (if c then Outcome.fail e >>= f else x) := by
  by_cases hc : c
  · rw [if_pos hc]
    exact fun g h => nomatch h
  · rw [if_neg hc]
    exact hx hc

/-- Checked arithmetic that stays in range is no source of faults. -/
theorem lift_bind {x : Except Fault α} {a : α} {f : α → Outcome ε β} (hx : x = .ok a)
    (hf : (f a).Faultless) : Outcome.Faultless (liftM x >>= f) := by
  rw [hx]
  exact hf

theorem bind_iff {f : α → Outcome ε β} {x : Outcome ε α} :
    Outcome.Faultless (x >>= f) ↔ x.Faultless ∧ ∀ a, x = .ok a → (f a).Faultless := by
  refine ⟨fun h => ⟨fun g hg => h g (by rw [hg]; rfl), fun a ha => ?_⟩, fun h => bind h.1 h.2⟩
  rwa [ha] at h

/-- Checked arithmetic has no errors besides faults. -/
theorem lift_bind_iff {f : α → Outcome ε β} {x : Except Fault α} :
    Outcome.Faultless (liftM x >>= f) ↔ ∃ a, x = .ok a ∧ (f a).Faultless := by
  refine ⟨fun h => ?_, fun ⟨a, hx, hf⟩ => lift_bind hx hf⟩
  cases x with
  | error g => exact absurd rfl (h g)
  | ok a => exact ⟨a, rfl, h⟩

theorem mapError {f : ε → δ} {x : Outcome ε α} (hx : x.Faultless) :
    (x.mapError f).Faultless := by
  intro g h
  cases x with
  | ok a => exact nomatch h
  | error e =>
    cases e with
    | fault g' => exact hx g' rfl
    | error e => exact nomatch h

end Outcome.Faultless

namespace Checked

theorem signed_eq_ok_iff {x y : Int} :
    signed x = .ok y ↔ (-0x80000000 ≤ x ∧ x < 0x80000000) ∧ x = y := by
  unfold signed
  split <;> simp_all

theorem signed_of_range {x : Int} (hlow : -0x80000000 ≤ x) (hhigh : x < 0x80000000) :
    signed x = .ok x :=
  signed_eq_ok_iff.mpr ⟨⟨hlow, hhigh⟩, rfl⟩

theorem unsigned_eq_ok_iff {x : Int} {n : Nat} :
    unsigned x = .ok n ↔ x < 0x100000000 ∧ x = n := by
  unfold unsigned
  split
  · simp only [Except.ok.injEq]
    omega
  · simp only [reduceCtorEq, false_iff]
    omega

/-- A sum fits if something that is not less does. -/
theorem unsigned_add_of_le {x : Int} {a b n : Nat} (hx : unsigned x = .ok n) (hle : a + b ≤ n) :
    unsigned (a + b) = .ok (a + b) := by
  rw [unsigned_eq_ok_iff] at hx ⊢
  omega

theorem size_eq_ok_iff {x : Int} {n : Nat} :
    size x = .ok n ↔ x < 0x10000000000000000 ∧ x = n := by
  unfold size
  split
  · simp only [Except.ok.injEq]
    omega
  · simp only [reduceCtorEq, false_iff]
    omega

theorem difference_eq_ok_iff {x y d : Nat} : difference x y = .ok d ↔ y ≤ x ∧ x - y = d := by
  unfold difference
  split <;> simp_all

theorem difference_of_le {x y : Nat} (h : y ≤ x) : difference x y = .ok (x - y) :=
  difference_eq_ok_iff.mpr ⟨h, rfl⟩

theorem divide_eq_ok_iff {x y q : Nat} : divide x y = .ok q ↔ 0 < y ∧ x / y = q := by
  unfold divide
  split <;> simp_all [Nat.pos_iff_ne_zero]

theorem shiftLeft_eq_ok_iff {x amount y : Nat} :
    shiftLeft x amount = .ok y ↔ amount < 32 ∧ x * 2 ^ amount % 2 ^ 32 = y := by
  unfold shiftLeft
  split <;> simp_all [Nat.shiftLeft_eq]

theorem shiftRight_eq_ok_iff {x amount y : Nat} :
    shiftRight x amount = .ok y ↔ amount < 32 ∧ x / 2 ^ amount = y := by
  unfold shiftRight
  split <;> simp_all [Nat.shiftRight_eq_div_pow]

theorem divideUp_eq_ok_iff {x y q : Nat} :
    divideUp x y = .ok q ↔ 0 < y ∧ (x + y - 1) / y = q := by
  unfold divideUp
  split <;> simp_all [Nat.pos_iff_ne_zero]

theorem ceilDiv_le_self (x : Nat) {y : Nat} (hy : 0 < y) : x ⌈/⌉ y ≤ x :=
  (ceilDiv_le_iff_le_mul hy).mpr (Nat.le_mul_of_pos_left x hy)

theorem divideUp_of_pos {x y : Nat} (hy : 0 < y) : divideUp x y = .ok (x ⌈/⌉ y) :=
  divideUp_eq_ok_iff.mpr ⟨hy, (Nat.ceilDiv_eq_add_pred_div x y).symm⟩

/-- A quotient that is rounded up is the least number of parts that is enough. -/
theorem divideUp_le_iff {x y q : Nat} (h : divideUp x y = .ok q) {n : Nat} :
    q ≤ n ↔ x ≤ n * y := by
  obtain ⟨hy, rfl⟩ := divideUp_eq_ok_iff.mp h
  rw [← Nat.lt_succ_iff, Nat.div_lt_iff_lt_mul hy, Nat.succ_mul]
  omega

theorem divideUp_le_self {x y q : Nat} (h : divideUp x y = .ok q) : q ≤ x := by
  obtain ⟨hy, -⟩ := divideUp_eq_ok_iff.mp h
  rw [divideUp_le_iff h]
  exact Nat.le_mul_of_pos_right x hy

theorem wrapSigned_of_range {x : Int} (hlow : -0x80000000 ≤ x) (hhigh : x < 0x80000000) :
    wrapSigned x = x := by
  apply Int.bmod_eq_of_le <;> omega

end Checked

end Av1Frames
