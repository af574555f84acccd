import Av1Frames.Proofs.Bits
import Av1Frames.Proofs.Stateful
import Av1Frames.Proofs.Descriptor.Fixed

namespace Av1Frames

namespace Write

/-- What a client asks of a writer. -/
inductive Call where
  | fixed (n value : Nat)
  | bit (b : Bool)
  | bytes (data : Bytes)
  | flush

namespace Call

/-- What the writer does for a call. The number of bits written is not kept. -/
def run : Call → Write Unit
  | fixed n value => do
    let _ ← Write.fixed n value
  | bit b => Write.bit b
  | bytes data => Write.bytes data
  | flush => Write.flush

/-- What a call on `w` answers. -/
def answer (call : Call) (w : Writer) : Outcome WriteError Unit := (call.run.run w).1

/-- The writer after a call on `w`. -/
def next (call : Call) (w : Writer) : Writer := (call.run.run w).2

/-- The call writes at least one bit, if it can. -/
def WritesBits : Call → Prop
  | fixed n _ => 0 < n ∧ n ≤ 32
  | bit _ => True
  | bytes _ | flush => False

/-- The ways in which a call ends: the writer that it is made on, its answer and the writer after
    it. -/
inductive Ends : Call → Writer → Outcome WriteError Unit → Writer → Prop
  | wrote {call : Call} {w w' : Writer} (hcall : call.WritesBits) (hroom : w.pending.length < 8)
      (hroom' : w'.pending.length < 8) : Ends call w (.ok ()) w'
  | refused {call : Call} {w w' : Writer} (hcall : call.WritesBits) (hroom : w.pending.length < 8)
      (hfull : w'.pending.length = 8) : Ends call w (.fail .sinkFull) w'
  | stuck {call : Call} {w : Writer} (hcall : call.WritesBits) (hfull : 8 ≤ w.pending.length) :
      Ends call w (.error (.fault .overflow)) w
  | flushed {w w' : Writer} (hpending : w'.pending = []) : Ends .flush w (.ok ()) w'
  | other {call : Call} {w w' : Writer} {answer : Outcome WriteError Unit}
      (hcall : ¬ call.WritesBits) (hflush : call = .flush → answer ≠ .ok ())
      (hanswer : answer.Faultless) (hpending : w'.pending = w.pending) : Ends call w answer w'

end Call

variable {w : Writer}

theorem leads_offer (bytes : Bytes) :
    Leads (offer bytes) w (fun _ w' => w'.pending = w.pending)
      fun e w' => e = .error .sinkFull ∧ w'.pending = w.pending := by
  rw [offer, leads_bind, leads_get]
  rcases w.sink.offer bytes with ⟨taken, sink⟩
  rw [leads_bind, leads_set]
  apply leads_ite
  · intro _
    exact leads_pure.mpr rfl
  · intro _
    exact leads_throw.mpr ⟨rfl, rfl⟩

theorem leads_sendPending :
    Leads sendPending w (fun _ w' => w'.pending = [])
      fun e w' => e = .error .sinkFull ∧ w'.pending = w.pending := by
  rw [sendPending, leads_bind, leads_get, leads_bind]
  refine (leads_offer _).mono (fun _ w' _ => ?_) fun _ _ h => h
  exact leads_modify.mpr rfl

/-- Where there is room for a bit there is room after it, unless the sink refuses the byte. -/
theorem leads_bit (hroom : w.pending.length < 8) (b : Bool) :
    Leads (bit b) w (fun _ w' => w'.pending.length < 8)
      fun e w' => e = .error .sinkFull ∧ w'.pending.length = 8 := by
  rw [bit, leads_bind, leads_get, if_neg (by omega), leads_bind, leads_set]
  apply leads_ite
  · intro hfull
    refine leads_sendPending.mono (fun _ w' hempty => ?_) fun _ w' h => ?_
    · rw [hempty, List.length_nil]
      exact Nat.zero_lt_succ 7
    · exact ⟨h.1, h.2 ▸ hfull⟩
  · intro hpart
    rw [leads_pure]
    rw [List.length_append, List.length_singleton] at hpart ⊢
    omega

theorem leads_bits (hroom : w.pending.length < 8) (word : Bits) :
    Leads (bits word) w (fun _ w' => w'.pending.length < 8)
      fun e w' => e = .error .sinkFull ∧ w'.pending.length = 8 := by
  induction word generalizing w with
  | nil => exact leads_pure.mpr hroom
  | cons b word ih =>
    rw [bits, leads_bind]
    exact (leads_bit hroom b).mono (fun _ _ hroom' => ih hroom') fun _ _ h => h

/-- Next to a whole byte there is no room for the first bit. -/
theorem leads_bits_of_full (hfull : 8 ≤ w.pending.length) {word : Bits} (hword : word ≠ []) :
    Leads (bits word) w (fun _ _ => False) fun e w' => e = .fault .overflow ∧ w' = w := by
  obtain ⟨b, rest, rfl⟩ := List.exists_cons_of_ne_nil hword
  rw [bits, leads_bind, bit, leads_bind, leads_get, if_pos hfull, leads_bind]
  exact leads_throw.mpr ⟨rfl, rfl⟩

theorem leads_codeWord {word : Bits} {Q : Nat → Writer → Prop}
    {E : Failure WriteError → Writer → Prop} (h : Leads (bits word) w (fun _ => Q word.length) E) :
    Leads (codeWord (.ok word)) w Q E := by
  have hcode : codeWord (.ok word) = (do bits word; return word.length) := rfl
  rw [hcode, leads_bind]
  exact h.mono (fun _ _ hQ => leads_pure.mpr hQ) fun _ _ hE => hE

theorem leads_bytes (data : Bytes) :
    Leads (bytes data) w (fun _ w' => w'.pending = w.pending)
      fun e w' => (∃ e', e = .error e') ∧ w'.pending = w.pending := by
  rw [bytes, leads_bind, leads_get]
  apply leads_ite
  · intro _
    exact (leads_offer data).mono (fun _ _ h => h) fun _ _ h => ⟨⟨_, h.1⟩, h.2⟩
  · intro _
    exact leads_throw.mpr ⟨⟨_, rfl⟩, rfl⟩

theorem leads_flush :
    Leads flush w (fun _ w' => w'.pending = [])
      fun e w' => e = .error .sinkFull ∧ w'.pending = w.pending := by
  rw [flush, leads_bind, leads_get]
  apply leads_ite
  · intro _
    exact leads_sendPending
  · intro haligned
    rw [leads_pure]
    simpa [Writer.aligned] using haligned

namespace Call

/-- How a call ends that comes down to writing some bits. -/
theorem leads_word (call : Call) (hcall : call.WritesBits) {word : Bits} (hword : word ≠ []) :
    Leads (Write.bits word) w (fun _ w' => call.Ends w (.ok ()) w')
      fun e w' => call.Ends w (.error e) w' := by
  rcases Nat.lt_or_ge w.pending.length 8 with hroom | hfull
  · refine (leads_bits hroom word).mono (fun _ w' hroom' => .wrote hcall hroom hroom') ?_
    rintro e w' ⟨rfl, hfull⟩
    exact .refused hcall hroom hfull
  · refine (leads_bits_of_full hfull hword).mono (fun _ _ h => h.elim) ?_
    rintro e w' ⟨rfl, rfl⟩
    exact .stuck hcall hfull

theorem leads_run (call : Call) :
    Leads call.run w (fun _ w' => call.Ends w (.ok ()) w')
      fun e w' => call.Ends w (.error e) w' := by
  cases call with
  | fixed n value =>
    rw [run, leads_bind, Write.fixed]
    by_cases hn : n ≤ 32
    · rw [Descriptor.fixed_eq_ok_iff.mpr ⟨hn, rfl⟩]
      apply leads_codeWord
      simp only [leads_pure]
      rcases Nat.eq_zero_or_pos n with rfl | hpos
      · exact leads_pure.mpr (.other (fun h => absurd h.1 (Nat.lt_irrefl 0)) nofun .ok rfl)
      · have hword : Bits.ofNat n value ≠ [] := by
          rw [← List.length_pos_iff, Bits.length_ofNat]
          exact hpos
        exact leads_word (.fixed n value) ⟨hpos, hn⟩ hword
    · have hfail : codeWord (Descriptor.fixed n value) = fail .bitCount := by
        rw [Descriptor.fixed, if_pos (Nat.lt_of_not_le hn)]
        rfl
      rw [hfail]
      exact leads_throw.mpr (.other (fun h => hn h.2) nofun .fail rfl)
  | bit b =>
    have hword := leads_word (w := w) (.bit b) trivial (List.cons_ne_nil b [])
    rw [Write.bits, leads_bind] at hword
    exact hword.mono (fun _ w' h => by rwa [Write.bits, leads_pure] at h) fun _ _ h => h
  | bytes data =>
    refine (leads_bytes data).mono (fun _ _ h => .other id nofun .ok h) ?_
    rintro e w' ⟨⟨e, rfl⟩, hpending⟩
    exact .other id nofun .fail hpending
  | flush =>
    refine leads_flush.mono (fun _ _ h => .flushed h) ?_
    rintro e w' ⟨rfl, hpending⟩
    exact .other id (fun _ => nofun) .fail hpending

theorem ends (call : Call) (w : Writer) : call.Ends w (call.answer w) (call.next w) := by
  unfold answer next
  rcases hrun : call.run.run w with ⟨e | ⟨⟩, w'⟩
  · exact (leads_run call).error hrun
  · exact (leads_run call).ok hrun

end Call

end Write

/-- Calls on a new writer over `sink`, one after the other and whatever they answer short of a
    fault, with their answers and the writer after them. -/
inductive WriterRun (sink : Sink) : List (Write.Call × Outcome WriteError Unit) → Writer → Prop
  | start : WriterRun sink [] { sink }
  | call {answered : List (Write.Call × Outcome WriteError Unit)} {w : Writer}
      (hrun : WriterRun sink answered w) (call : Write.Call)
      (hanswer : (call.answer w).Faultless) :
      WriterRun sink (answered ++ [(call, call.answer w)]) (call.next w)

/-- A byte of bits was refused, and no flush has succeeded since. -/
def ByteRefused (answered : List (Write.Call × Outcome WriteError Unit)) : Prop :=
  ∃ before call after, answered = before ++ (call, .fail .sinkFull) :: after ∧ call.WritesBits ∧
    (.flush, .ok ()) ∉ after

variable {answered : List (Write.Call × Outcome WriteError Unit)} {call : Write.Call}
  {answer : Outcome WriteError Unit} {sink : Sink} {w : Writer}

theorem not_byteRefused_nil : ¬ ByteRefused [] := by
  rintro ⟨before, call, after, heq, -, -⟩
  exact List.append_ne_nil_of_right_ne_nil before (List.cons_ne_nil _ _) heq.symm

theorem byteRefused_concat_iff :
    ByteRefused (answered ++ [(call, answer)]) ↔
      call.WritesBits ∧ answer = .fail .sinkFull ∨
        ByteRefused answered ∧ (call, answer) ≠ (.flush, .ok ()) := by
  constructor
  · rintro ⟨before, refused, after, heq, hcall, hafter⟩
    rcases List.eq_nil_or_concat after with rfl | ⟨after, last, rfl⟩
    · obtain ⟨-, hlast⟩ := List.append_inj' heq rfl
      obtain ⟨rfl, rfl⟩ := Prod.mk.inj (List.cons.inj hlast).1
      exact .inl ⟨hcall, rfl⟩
    · rw [List.concat_eq_append] at heq hafter
      rw [← List.cons_append, ← List.append_assoc] at heq
      obtain ⟨rfl, hlast⟩ := List.append_inj' heq rfl
      obtain rfl := (List.cons.inj hlast).1
      rw [List.mem_append, List.mem_singleton, not_or] at hafter
      exact .inr ⟨⟨before, refused, after, rfl, hcall, hafter.1⟩, Ne.symm hafter.2⟩
  · rintro (⟨hcall, rfl⟩ | ⟨⟨before, refused, after, rfl, hcall, hafter⟩, hlast⟩)
    · exact ⟨answered, call, [], rfl, hcall, List.not_mem_nil⟩
    · refine ⟨before, refused, after ++ [(call, answer)], by simp, hcall, ?_⟩
      rw [List.mem_append, List.mem_singleton, not_or]
      exact ⟨hafter, Ne.symm hlast⟩

namespace Write.Call.Ends

variable {w' : Writer}

theorem pending_le (hends : call.Ends w answer w') (hle : w.pending.length ≤ 8) :
    w'.pending.length ≤ 8 := by
  cases hends with
  | wrote hcall hroom hroom' => exact hroom'.le
  | refused hcall hroom hfull => exact hfull.le
  | stuck hcall hfull => exact hle
  | flushed hpending =>
    rw [hpending, List.length_nil]
    exact Nat.zero_le 8
  | other hcall hflush hanswer hpending => exact hpending ▸ hle

/-- The only fault of a call is that there is no room for its bits. -/
theorem faultless_iff (hends : call.Ends w answer w') :
    answer.Faultless ↔ ¬ (8 ≤ w.pending.length ∧ call.WritesBits) := by
  cases hends with
  | wrote hcall hroom hroom' => exact iff_of_true .ok fun h => Nat.not_le_of_lt hroom h.1
  | refused hcall hroom hfull => exact iff_of_true .fail fun h => Nat.not_le_of_lt hroom h.1
  | stuck hcall hfull => exact iff_of_false (fun h => h _ rfl) (not_not.mpr ⟨hfull, hcall⟩)
  | flushed hpending => exact iff_of_true .ok fun h => h.2
  | other hcall hflush hanswer hpending => exact iff_of_true hanswer fun h => hcall h.2

/-- If eight bits are pending just while a byte is refused, they are after one more call. -/
theorem full_iff (hends : call.Ends w answer w') (hanswer : answer.Faultless)
    (hfull : w.pending.length = 8 ↔ ByteRefused answered) :
    w'.pending.length = 8 ↔ ByteRefused (answered ++ [(call, answer)]) := by
  rw [byteRefused_concat_iff, ← hfull]
  cases hends with
  | wrote hcall hroom hroom' =>
    refine iff_of_false hroom'.ne ?_
    rintro (⟨-, hrefused⟩ | ⟨hfull, -⟩)
    · exact nomatch hrefused
    · exact hroom.ne hfull
  | refused hcall hroom hfull' => exact iff_of_true hfull' (.inl ⟨hcall, rfl⟩)
  | stuck hcall hfull => exact absurd rfl (hanswer _)
  | flushed hpending =>
    refine iff_of_false (by simp [hpending]) ?_
    rintro (⟨hcall, -⟩ | ⟨-, hflush⟩)
    · exact hcall
    · exact hflush rfl
  | other hcall hflush hanswer hpending =>
    have hkeep : (call, answer) ≠ (.flush, .ok ()) := by
      intro heq
      obtain ⟨hcall, hanswer⟩ := Prod.mk.inj heq
      exact hflush hcall hanswer
    rw [hpending]
    simp [hcall, hkeep]

end Write.Call.Ends

/-- A sink that refuses what it is offered first, and nothing after it. -/
def Sink.refusingFirst : Sink := { accepts := fun offers _ _ => offers ≠ 0 }

namespace WriterRun

/-- Whatever the sink refuses, at most eight bits are pending, and eight just while a byte is
    refused. -/
theorem pending_length (hrun : WriterRun sink answered w) :
    w.pending.length ≤ 8 ∧ (w.pending.length = 8 ↔ ByteRefused answered) := by
  induction hrun with
  | start =>
    exact ⟨Nat.zero_le 8, iff_of_false (by simp) not_byteRefused_nil⟩
  | @call answered w hrun call hanswer ih =>
    have hends := call.ends w
    exact ⟨hends.pending_le ih.1, hends.full_iff hanswer ih.2⟩

/-- Over any sink, however its refusals fall, and whatever the calls before were: at most eight bits
    are pending, all eight just while a byte is refused, and a call faults just if it would then
    write another bit. -/
theorem faultless_iff_not_refused (hrun : WriterRun sink answered w) :
    w.pending.length ≤ 8 ∧ (w.pending.length = 8 ↔ ByteRefused answered) ∧
      ∀ call : Write.Call,
        (call.answer w).Faultless ↔ ¬ (ByteRefused answered ∧ call.WritesBits) := by
  obtain ⟨hle, hfull⟩ := hrun.pending_length
  refine ⟨hle, hfull, fun call => ?_⟩
  rw [(call.ends w).faultless_iff, ← hfull, hle.ge_iff_eq]

theorem faultless_iff_not_refused_refusingFirst :
    ∃ answered w, WriterRun .refusingFirst answered w ∧ ByteRefused answered ∧
      w.pending.length = 8 ∧ ¬ ((Write.Call.bit true).answer w).Faultless ∧
        (Write.Call.flush.answer w).Faultless := by
  have hstart : WriterRun .refusingFirst [] { sink := .refusingFirst } := .start
  have hrun := (hstart.call (.fixed 8 255) (by decide)).call (.bytes [7]) (by decide)
  obtain ⟨-, hfull, hfaultless⟩ := faultless_iff_not_refused hrun
  have hrefused : ByteRefused _ := hfull.mp rfl
  refine ⟨_, _, hrun, hrefused, rfl, ?_, ?_⟩
  · exact fun h => (hfaultless _).mp h ⟨hrefused, trivial⟩
  · exact (hfaultless .flush).mpr fun h => h.2

/-- A sink can break a writer: the eight bits that it refuses as a byte stay pending, and the next
    bit faults. -/
theorem not_always_faultless :
    ¬ ∀ {sink : Sink} {answered : List (Write.Call × Outcome WriteError Unit)} {w : Writer},
      WriterRun sink answered w →
        w.pending.length ≤ 7 ∧ ∀ call : Write.Call, (call.answer w).Faultless := by
  intro h
  have hstart : WriterRun (.bounded 0) [] { sink := .bounded 0 } := .start
  have hrun := hstart.call (.fixed 8 255) (by decide)
  have hfault : ¬ ((Write.Call.bit true).answer
      ((Write.Call.fixed 8 255).next { sink := .bounded 0 })).Faultless := by decide
  exact hfault ((h hrun).2 _)

end WriterRun

end Av1Frames
