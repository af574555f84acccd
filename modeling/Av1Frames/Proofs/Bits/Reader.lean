import Av1Frames.Proofs.Bits
import Av1Frames.Proofs.Stateful
import Av1Frames.Bits.Reader

namespace Av1Frames

namespace Reader

theorem skip_skip (r : Reader) (m n : Nat) : (r.skip m).skip n = r.skip (m + n) := by
  simp [skip, Nat.add_assoc]

/-- How many bits there are in all, read or not. -/
def total (r : Reader) : Nat := r.position + r.left

theorem total_skip {r : Reader} {n : Nat} (hn : n ≤ r.left) : (r.skip n).total = r.total := by
  have hlength : (r.skip n).left = r.left - n := List.length_drop
  have hposition : (r.skip n).position = r.position + n := rfl
  rw [total, total, hlength, hposition]
  omega

theorem total_ofBytes (bytes : Bytes) : (ofBytes bytes).total = 8 * bytes.length := by
  simp [total, left, ofBytes]

/-- Behind some bytes, what follows them is read. -/
theorem skip_ofBytes_append (a b : Bytes) :
    (ofBytes (a ++ b)).skip (8 * a.length) = ⟨Bits.ofBytes b, 8 * a.length⟩ := by
  rw [ofBytes, Bits.ofBytes_append, skip, ← Bits.length_ofBytes, List.drop_left, Nat.zero_add]

/-- Bits that were put into bytes are followed by zeros up to the next byte. -/
theorem ofBytes_toBytes_append (bits : Bits) (rest : Bytes) :
    ofBytes (Bits.toBytes bits ++ rest) =
      ⟨bits ++ (List.replicate ((8 - bits.length % 8) % 8) false ++ Bits.ofBytes rest), 0⟩ := by
  rw [ofBytes, Bits.ofBytes_append, Bits.ofBytes_toBytes, List.append_assoc]

end Reader

namespace Read

theorem run_bit {r : Reader} {b : Bool} {rest : Bits} (hrest : r.rest = b :: rest) :
    bit.run r = (.ok b, r.skip 1) := by
  obtain ⟨_, _⟩ := r
  obtain rfl := hrest
  rfl

theorem run_fixed {r : Reader} {n : Nat} (hn : n ≤ 31) (hleft : n ≤ r.left) :
    (fixed n).run r = (.ok (Bits.toNat (r.rest.take n)), r.skip n) := by
  have hrun : (fixed n).run r = ExceptT.run (if 31 < n then fail (.tooManyBits n)
    else if r.left < n then fail .outOfBits
    else do
      set (r.skip n)
      return Bits.toNat (r.rest.take n)) r := rfl
  rw [hrun, if_neg (by omega), if_neg (by omega)]
  rfl

/-- The ways in which a read of `n` bits ends: too many bits are asked for, or too few are left, and
    in both cases the reader stays where it is; or the bits are consumed. -/
theorem leads_fixed {n : Nat} {r : Reader} {Q : Nat → Reader → Prop}
    {E : Failure ReadError → Reader → Prop} (hmany : 31 < n → E (.error (.tooManyBits n)) r)
    (hfew : n ≤ 31 → r.left < n → E (.error .outOfBits) r)
    (hread : n ≤ 31 → n ≤ r.left → Q (Bits.toNat (r.rest.take n)) (r.skip n)) :
    Leads (fixed n) r Q E := by
  by_cases hn : n ≤ 31
  · by_cases hleft : n ≤ r.left
    · exact leads_of_run (run_fixed hn hleft) (hread hn hleft)
    · rw [fixed, leads_bind, leads_get, if_neg (by omega), if_pos (by omega)]
      exact leads_throw.mpr (hfew hn (by omega))
  · rw [fixed, leads_bind, leads_get, if_pos (by omega)]
    exact leads_throw.mpr (hmany (by omega))

theorem run_skip {r : Reader} {n : Nat} (hleft : n ≤ r.left) :
    (skip n).run r = (.ok (), r.skip n) := by
  induction n generalizing r with
  | zero => rfl
  | succ n ih =>
    obtain ⟨rest, position⟩ := r
    cases rest with
    | nil => exact absurd hleft (Nat.not_succ_le_zero n)
    | cons b rest =>
      have hbit := run_bit (r := ⟨b :: rest, position⟩) rfl
      have htail : n ≤ (Reader.skip ⟨b :: rest, position⟩ 1).left :=
        Nat.le_of_succ_le_succ hleft
      rw [skip, run_bind_of_ok hbit, ih htail, Reader.skip_skip, Nat.add_comm 1]

/-- Bits in front of a reader are skipped. -/
theorem run_skip_append (bits rest : Bits) (position : Nat) :
    (skip bits.length).run ⟨bits ++ rest, position⟩ = (.ok (), ⟨rest, position + bits.length⟩) := by
  rw [run_skip (by simp [Reader.left])]
  simp [Reader.skip]

theorem run_align_append {rest : Bits} {position : Nat} :
    align.run ⟨List.replicate ((8 - position % 8) % 8) false ++ rest, position⟩ =
      (.ok (), ⟨rest, position + (8 - position % 8) % 8⟩) := by
  have hskip := run_skip_append (List.replicate ((8 - position % 8) % 8) false) rest position
  rw [List.length_replicate] at hskip
  exact hskip

/-- Behind bits that were put into bytes, the next byte is the first one that follows them. -/
theorem run_align_toBytes (bits : Bits) (rest : Bytes) :
    align.run ⟨List.replicate ((8 - bits.length % 8) % 8) false ++ Bits.ofBytes rest,
      bits.length⟩ = (.ok (), ⟨Bits.ofBytes rest, 8 * (Bits.toBytes bits).length⟩) := by
  have hend : bits.length + (8 - bits.length % 8) % 8 = 8 * (Bits.toBytes bits).length := by
    rw [Bits.length_toBytes]
    omega
  rw [run_align_append, hend]

/-- A number in front of a reader is read back. -/
theorem run_fixed_append {n v : Nat} (hn : n ≤ 31) (hv : v < 2 ^ n) {rest : Bits}
    {position : Nat} :
    (fixed n).run ⟨Bits.ofNat n v ++ rest, position⟩ = (.ok v, ⟨rest, position + n⟩) := by
  have hlength : (Bits.ofNat n v).length = n := Bits.length_ofNat n v
  rw [run_fixed hn (by simp [Reader.left])]
  simp [Reader.skip, List.take_append_of_le_length hlength.ge,
    List.take_of_length_le hlength.le, List.drop_append_of_le_length hlength.ge,
    List.drop_of_length_le hlength.le, Bits.toNat_ofNat_of_lt hv]

theorem run_requireAligned {r : Reader} {n : Nat} (hposition : r.position % 8 = 0) :
    (requireAligned n).run r = (.ok (), r) := by
  have hrun : (requireAligned n).run r =
      ExceptT.run (if r.position % 8 ≠ 0 then fail (.unaligned n) else pure ()) r := rfl
  rw [hrun, if_neg (not_not_intro hposition)]
  rfl

theorem run_aligned_append {n v : Nat} (hn : n ≤ 31) (hv : v < 2 ^ n) {rest : Bits}
    {position : Nat} (hposition : position % 8 = 0) :
    (aligned n).run ⟨Bits.ofNat n v ++ rest, position⟩ = (.ok v, ⟨rest, position + n⟩) := by
  rw [aligned, run_bind_of_ok (run_requireAligned hposition), run_fixed_append hn hv]

/-- Wherever it starts, the computation ends without a fault, and each bit is read or left. -/
def Accounts {α : Type} (m : Read α) : Prop :=
  ∀ r, Leads m r (fun _ r' => r'.total = r.total) fun e r' => (∀ f, e ≠ .fault f) ∧
    r'.total = r.total

namespace Accounts

variable {α β : Type}

theorem pure {a : α} : Accounts (Pure.pure a) := fun _ => leads_pure.mpr rfl

theorem fail {e : ReadError} : Accounts (Read.fail e : Read α) :=
  fun _ => leads_throw.mpr ⟨nofun, rfl⟩

theorem bind {m : Read α} {f : α → Read β} (hm : m.Accounts) (hf : ∀ a, (f a).Accounts) :
    Accounts (m >>= f) := by
  intro r
  rw [leads_bind]
  refine (hm r).mono (fun a r' htotal => ?_) fun _ _ h => h
  exact htotal ▸ hf a r'

theorem checked {x : Except Fault α} {a : α} (hx : x = .ok a) :
    Accounts (liftM x : Read α) := by
  intro r
  subst hx
  exact leads_checked.mpr ⟨fun _ _ => rfl, nofun⟩

theorem bit : Accounts Read.bit := by
  intro r
  obtain ⟨rest, position⟩ := r
  cases rest with
  | nil =>
    rw [Read.bit, leads_bind, leads_get]
    exact fail ⟨[], position⟩
  | cons b rest => exact leads_of_run (run_bit rfl) (Reader.total_skip (Nat.le_add_left 1 _))

theorem fixed {n : Nat} : Accounts (Read.fixed n) := fun _ =>
  leads_fixed (fun _ => ⟨nofun, rfl⟩) (fun _ _ => ⟨nofun, rfl⟩)
    fun _ hleft => Reader.total_skip hleft

theorem skip {n : Nat} : Accounts (Read.skip n) := by
  induction n with
  | zero => exact pure
  | succ n ih => exact bit.bind fun _ => ih

theorem align : Accounts Read.align := by
  intro r
  rw [Read.align, leads_bind, leads_get]
  exact skip r

end Accounts

end Read

end Av1Frames
