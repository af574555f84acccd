import Av1Frames.Proofs.Bits.Reader

namespace Av1Frames.Read

variable {α β : Type} {position : Nat} {word word' : Bits} {a : α} {b : β}

/-- At `position` the bits of `word` are read as `a`, and nothing behind them is touched. -/
def Decodes (m : Read α) (position : Nat) (word : Bits) (a : α) : Prop :=
  ∀ rest, m.run ⟨word ++ rest, position⟩ = (.ok a, ⟨rest, position + word.length⟩)

namespace Decodes

theorem pure : Decodes (Pure.pure a) position [] a := fun _ => rfl

theorem bind {m : Read α} {f : α → Read β} (hm : Decodes m position word a)
    (hf : Decodes (f a) (position + word.length) word' b) :
    Decodes (m >>= f) position (word ++ word') b := by
  intro rest
  rw [List.append_assoc, run_bind_of_ok (hm (word' ++ rest)), hf rest, List.length_append,
    Nat.add_assoc]

/-- What is done with a value once it is read may need no more bits. -/
theorem bind_nil {m : Read α} {f : α → Read β} (hm : Decodes m position word a)
    (hf : Decodes (f a) (position + word.length) [] b) : Decodes (m >>= f) position word b := by
  have hbind := hm.bind hf
  rwa [List.append_nil] at hbind

theorem bind_pure {m : Read α} {f : α → Read β} (hm : Decodes m position word a)
    (hf : f a = Pure.pure b) : Decodes (m >>= f) position word b := hm.bind_nil (hf ▸ pure)

theorem checked {x : Except Fault α} (hx : x = .ok a) :
    Decodes (liftM x) position [] a := fun _ => run_checked hx

theorem checked_bind {x : Except Fault α} {f : α → Read β} (hx : x = .ok a)
    (hf : Decodes (f a) position word b) : Decodes (liftM x >>= f) position word b := by
  intro rest
  rw [run_bind_of_ok (run_checked hx), hf rest]

theorem bit {b : Bool} : Decodes Read.bit position [b] b := fun _ => run_bit rfl

theorem fixed {n v : Nat} (hn : n ≤ 31) (hv : v < 2 ^ n) :
    Decodes (Read.fixed n) position (Bits.ofNat n v) v := by
  intro rest
  rw [run_fixed_append hn hv, Bits.length_ofNat]

theorem ofFnM {n : Nat} {f : Fin n → Read α} {words : Fin n → Bits} {v : Vector α n}
    (h : ∀ i position, Decodes (f i) position (words i) (v.get i)) :
    Decodes (Vector.ofFnM f) position (List.ofFn words).flatten v := by
  induction n with
  | zero =>
    have hv : v = #v[] := Vector.ext fun i hi => absurd hi (Nat.not_lt_zero i)
    rw [Vector.ofFnM_zero, hv, List.ofFn_zero]
    exact pure
  | succ n ih =>
    have hinit : Decodes (Vector.ofFnM fun i => f i.castSucc) position
        (List.ofFn fun i => words i.castSucc).flatten v.pop := by
      refine ih fun i position => ?_
      have hget : v.pop.get i = v.get i.castSucc := by simp [get_eq_getElem]
      rw [hget]
      exact h i.castSucc position
    have hpush : v.pop.push (v.get (Fin.last n)) = v := by
      refine Vector.ext fun i hi => ?_
      by_cases hlt : i < n
      · simp [Vector.getElem_push_lt, hlt]
      · obtain rfl : i = n := by omega
        simp [get_eq_getElem]
    rw [Vector.ofFnM_succ, List.ofFn_succ', List.concat_eq_append, List.flatten_append,
      List.flatten_singleton]
    exact hinit.bind ((h (Fin.last n) _).bind_pure (congrArg Pure.pure hpush))

/-- What is written into whole bytes is read back, and nothing but padding is left. -/
theorem run_toBytes {m : Read α} (hm : Decodes m 0 word a) :
    m.run (Reader.ofBytes (Bits.toBytes word)) =
      (.ok a, ⟨List.replicate ((8 - word.length % 8) % 8) false, word.length⟩) := by
  have hnone : Bits.ofBytes [] = [] := rfl
  have hbytes := Reader.ofBytes_toBytes_append word []
  rw [List.append_nil, hnone, List.append_nil] at hbytes
  rw [hbytes, hm, Nat.zero_add]

theorem ofBytes {m : Read α} (hm : Decodes m 0 word a) :
    Read.ofBytes m (Bits.toBytes word) = .ok a := by
  rw [Read.ofBytes, hm.run_toBytes]

end Decodes

end Av1Frames.Read
