import Av1Frames.Proofs.Bits.Reader

namespace Av1Frames

/-- The next `n` bits as a number. -/
def Reader.ahead (r : Reader) (n : Nat) : Nat := Bits.toNat (r.rest.take n)

theorem Reader.left_skip_ofBytes (data : Bytes) (n : Nat) :
    ((Reader.ofBytes data).skip n).left = 8 * data.length - n := by
  simp [left, skip, ofBytes]

namespace Read

/-- What a client asks of a reader: one bit, or a number of `n` bits that it keeps where numbers up
    to `greatest` fit, at any position or at the start of a byte only. -/
inductive Call where
  | bit
  | fixed (greatest n : Nat)
  | aligned (greatest n : Nat)

namespace Call

/-- What the reader does for a call. A bit is a number below 2. -/
def run : Call → Read Nat
  | bit => do return (← Read.bit).toNat
  | fixed greatest n => fixedUpTo greatest n
  | aligned greatest n => alignedUpTo greatest n

/-- What a call on `r` answers. -/
def answer (call : Call) (r : Reader) : Outcome ReadError Nat := (call.run.run r).1

/-- The reader after a call on `r`. -/
def next (call : Call) (r : Reader) : Reader := (call.run.run r).2

/-- How many bits a call asks for. -/
def width : Call → Nat
  | bit => 1
  | fixed _ n | aligned _ n => n

/-- The bits that a call asks for can be read at once, and where the reader is. -/
def Ready : Call → Reader → Prop
  | bit, r => 1 ≤ r.left
  | fixed _ n, r => n ≤ 31 ∧ n ≤ r.left
  | aligned _ n, r => r.position % 8 = 0 ∧ n ≤ 31 ∧ n ≤ r.left

/-- A number fits where the client keeps it. -/
def Keeps : Call → Nat → Prop
  | bit, _ => True
  | fixed greatest _, v | aligned greatest _, v => v ≤ greatest

/-- The ways in which a call on `r` ends: its answer and the reader after it. -/
inductive Ends (call : Call) (r : Reader) : Outcome ReadError Nat → Reader → Prop
  | delivered (hready : call.Ready r) (hkeeps : call.Keeps (r.ahead call.width)) :
      Ends call r (.ok (r.ahead call.width)) (r.skip call.width)
  | dropped (hready : call.Ready r) (hlarge : ¬ call.Keeps (r.ahead call.width)) :
      Ends call r (.fail .conversion) (r.skip call.width)
  | refused (hready : ¬ call.Ready r) {e : ReadError} (he : e ≠ .conversion) :
      Ends call r (.fail e) r

theorem Ready.width_le {call : Call} {r : Reader} (h : call.Ready r) : call.width ≤ r.left := by
  cases call with
  | bit => exact h
  | fixed greatest n => exact h.2
  | aligned greatest n => exact h.2.2

end Call

variable {r : Reader} {Q : Nat → Reader → Prop} {E : Failure ReadError → Reader → Prop}

/-- A number that is too large has been consumed when it is refused. -/
theorem leads_fixedUpTo {greatest n : Nat}
    (hfew : ¬ (n ≤ 31 ∧ n ≤ r.left) → ∀ e, e ≠ ReadError.conversion → E (.error e) r)
    (hlarge : n ≤ 31 ∧ n ≤ r.left → ¬ r.ahead n ≤ greatest → E (.error .conversion) (r.skip n))
    (hkeeps : n ≤ 31 ∧ n ≤ r.left → r.ahead n ≤ greatest → Q (r.ahead n) (r.skip n)) :
    Leads (fixedUpTo greatest n) r Q E := by
  rw [fixedUpTo, leads_bind]
  refine leads_fixed (fun hmany => hfew (by omega) _ (by simp))
    (fun _ hleft => hfew (by omega) _ (by simp)) fun hn hleft => ?_
  exact leads_ite (fun h => leads_pure.mpr (hkeeps ⟨hn, hleft⟩ h))
    fun h => leads_throw.mpr (hlarge ⟨hn, hleft⟩ h)

namespace Call

theorem leads_run (call : Call) :
    Leads call.run r (fun v r' => call.Ends r (.ok v) r')
      fun e r' => call.Ends r (.error e) r' := by
  cases call with
  | bit =>
    rw [run, leads_bind]
    obtain ⟨rest, position⟩ := r
    cases rest with
    | nil =>
      rw [Read.bit, leads_bind, leads_get]
      refine leads_throw.mpr (.refused ?_ (by simp))
      exact Nat.not_succ_le_zero 0
    | cons b rest =>
      have hvalue : b.toNat = Reader.ahead ⟨b :: rest, position⟩ 1 := by cases b <;> rfl
      refine leads_of_run (run_bit rfl) (leads_pure.mpr ?_)
      rw [hvalue]
      exact .delivered (Nat.le_add_left 1 _) trivial
  | fixed greatest n =>
    refine leads_fixedUpTo ?_ ?_ ?_
    · intro hready _ he
      refine .refused ?_ he
      exact hready
    · exact fun hready hlarge => .dropped hready hlarge
    · exact fun hready hkeeps => .delivered hready hkeeps
  | aligned greatest n =>
    rw [run, alignedUpTo, leads_bind]
    by_cases hposition : r.position % 8 = 0
    · refine leads_of_run (run_requireAligned hposition) (leads_fixedUpTo ?_ ?_ ?_)
      · intro hfew _ he
        refine .refused ?_ he
        exact fun hready => hfew hready.2
      · exact fun hready hlarge => .dropped ⟨hposition, hready⟩ hlarge
      · exact fun hready hkeeps => .delivered ⟨hposition, hready⟩ hkeeps
    · rw [requireAligned, leads_bind, leads_get, if_pos hposition]
      refine leads_throw.mpr (.refused ?_ (by simp))
      exact fun hready => hposition hready.1

theorem ends (call : Call) (r : Reader) : call.Ends r (call.answer r) (call.next r) := by
  unfold answer next
  rcases hrun : call.run.run r with ⟨e | v, r'⟩
  · exact (leads_run call).error hrun
  · exact (leads_run call).ok hrun

/-- The reader stays where it is, or all the bits that were asked for are consumed. -/
theorem Ends.next_eq {call : Call} {answer : Outcome ReadError Nat} {r' : Reader}
    (hends : call.Ends r answer r') : r' = r ∨ call.width ≤ r.left ∧ r' = r.skip call.width := by
  cases hends with
  | delivered hready => exact .inr ⟨hready.width_le, rfl⟩
  | dropped hready => exact .inr ⟨hready.width_le, rfl⟩
  | refused => exact .inl rfl

theorem Ends.faultless {call : Call} {answer : Outcome ReadError Nat} {r' : Reader}
    (hends : call.Ends r answer r') : answer.Faultless := by
  cases hends with
  | delivered => exact .ok
  | dropped => exact .fail
  | refused => exact .fail

theorem Ends.of_ok {call : Call} {v : Nat} {r' : Reader} (hends : call.Ends r (.ok v) r') :
    call.width ≤ r.left ∧ v = r.ahead call.width ∧ r' = r.skip call.width := by
  cases hends with
  | delivered hready => exact ⟨hready.width_le, rfl, rfl⟩

/-- After an error the reader is where it was, unless a number was too large. -/
theorem Ends.of_fail {call : Call} {e : ReadError} {r' : Reader}
    (hends : call.Ends r (.fail e) r') :
    r' = if e = .conversion then r.skip call.width else r := by
  cases hends with
  | dropped => exact (if_pos rfl).symm
  | refused _ he => exact (if_neg he).symm

theorem Ends.conversion_iff {call : Call} {answer : Outcome ReadError Nat} {r' : Reader}
    (hends : call.Ends r answer r') :
    answer = .fail .conversion ↔ call.Ready r ∧ ¬ call.Keeps (r.ahead call.width) := by
  cases hends with
  | delivered _ hkeeps => exact iff_of_false (fun h => by cases h) fun h => h.2 hkeeps
  | dropped hready hlarge => exact iff_of_true rfl ⟨hready, hlarge⟩
  | refused hready he =>
    refine iff_of_false (fun h => he ?_) fun h => hready h.1
    exact Failure.error.inj (Except.error.inj h)

end Call

end Read

/-- Calls on a reader of `data`, one after the other and whatever they answer, and the reader after
    them. -/
inductive ReaderRun (data : Bytes) : Reader → Prop
  | start : ReaderRun data (Reader.ofBytes data)
  | call {r : Reader} (hrun : ReaderRun data r) (call : Read.Call) : ReaderRun data (call.next r)

namespace ReaderRun

variable {data : Bytes} {r : Reader}

/-- Whatever the calls answer, the reader is at a position of the data. -/
theorem exists_skip (hrun : ReaderRun data r) :
    ∃ position ≤ 8 * data.length, r = (Reader.ofBytes data).skip position := by
  induction hrun with
  | start => exact ⟨0, Nat.zero_le _, rfl⟩
  | @call r hrun call ih =>
    obtain ⟨position, hposition, rfl⟩ := ih
    rcases (call.ends _).next_eq with hnext | ⟨hwidth, hnext⟩
    · exact ⟨position, hposition, hnext⟩
    · rw [Reader.left_skip_ofBytes] at hwidth
      exact ⟨position + call.width, by omega, hnext.trans (Reader.skip_skip ..)⟩

/-- Whatever was read before: a call that is refused before it reads anything leaves the reader as
    it is, and one that succeeds delivers the bits at the position and moves behind them, within the
    data. Only a number that does not fit where the client keeps it is consumed although the call
    fails. -/
theorem next_of_answer (hrun : ReaderRun data r) (call : Read.Call) :
    r.left = 8 * data.length - r.position ∧ (call.answer r).Faultless ∧
      (∀ v, call.answer r = .ok v →
        v = Bits.toNat (((Bits.ofBytes data).drop r.position).take call.width) ∧
          (call.next r).position = r.position + call.width ∧
          (call.next r).position ≤ 8 * data.length) ∧
      (∀ e, call.answer r = .fail e → e ≠ .conversion → call.next r = r) ∧
      (call.answer r = .fail .conversion ↔
        call.Ready r ∧ ¬ call.Keeps (r.ahead call.width)) ∧
      (call.answer r = .fail .conversion → call.next r = r.skip call.width) := by
  have hends := call.ends r
  obtain ⟨position, hposition, hr⟩ := hrun.exists_skip
  have hat : r.position = position := by rw [hr, Reader.skip, Reader.ofBytes, Nat.zero_add]
  have hleft : r.left = 8 * data.length - r.position := by
    rw [hat, hr, Reader.left_skip_ofBytes]
  refine ⟨hleft, hends.faultless, fun v hv => ?_, fun e he hne => ?_, hends.conversion_iff,
    fun he => ?_⟩
  · rw [hv] at hends
    obtain ⟨hwidth, hvalue, hnext⟩ := hends.of_ok
    have hrest : r.rest = (Bits.ofBytes data).drop r.position := by rw [hat, hr]; rfl
    have hend : (call.next r).position = r.position + call.width := congrArg Reader.position hnext
    exact ⟨hrest ▸ hvalue, hend, by omega⟩
  · rw [he] at hends
    exact hends.of_fail.trans (if_neg hne)
  · rw [he] at hends
    exact hends.of_fail.trans (if_pos rfl)

theorem next_of_answer_signedByte :
    ∃ r, ReaderRun [0xff, 0x01] r ∧ (Read.Call.fixed 0x7f 8).answer (Reader.ofBytes [0xff, 0x01]) =
        .fail .conversion ∧
      ((Read.Call.aligned 0xff 8).next r).position = r.position + 8 ∧
        (Read.Call.fixed 0xff 9).next r = r := by
  have hstart : ReaderRun [0xff, 0x01] (Reader.ofBytes [0xff, 0x01]) := .start
  have hrun := hstart.call (.fixed 0x7f 8)
  obtain ⟨-, -, -, -, hconversion, -⟩ := next_of_answer hstart (.fixed 0x7f 8)
  obtain ⟨-, -, hok, -⟩ := next_of_answer hrun (.aligned 0xff 8)
  obtain ⟨-, -, -, hfail, -⟩ := next_of_answer hrun (.fixed 0xff 9)
  refine ⟨_, hrun, hconversion.mpr ?_, (hok 1 rfl).2.1, hfail .outOfBits rfl (by decide)⟩
  exact ⟨⟨by decide, by decide⟩, fun h => absurd h (by decide : ¬ 0xff ≤ 0x7f)⟩

/-- A read can fail after its bits are consumed: an unsigned byte does not fit a signed one. -/
theorem not_unchanged_of_fail :
    ¬ ∀ {data : Bytes} {r : Reader}, ReaderRun data r → ∀ (call : Read.Call) (e : ReadError),
      call.answer r = .fail e →
        (call.next r).position = r.position ∧ (call.next r).left = r.left := by
  intro h
  have hkept := (h (.start : ReaderRun [0xff, 0x01] _) (.fixed 0x7f 8) .conversion (by rfl)).1
  exact absurd hkept (by decide)

end ReaderRun

end Av1Frames
