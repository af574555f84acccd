import Av1Frames.Proofs.Bits
import Av1Frames.Proofs.Stateful
import Av1Frames.Descriptor.Fixed

namespace Av1Frames

namespace Bits

theorem leadingByte_ofNat_append (byte : UInt8) (bits : Bits) :
    leadingByte (ofNat 8 byte.toNat ++ bits) = byte := by
  have htake : ((ofNat 8 byte.toNat ++ bits) ++ List.replicate 8 false).take 8 =
      ofNat 8 byte.toNat := by
    rw [List.append_assoc, List.take_append_of_le_length (by simp),
      List.take_of_length_le (by simp)]
  rw [leadingByte, htake, toNat_ofNat_of_lt byte.toNat_lt, UInt8.ofNat_toNat]

theorem toBytes_ofBytes_append (bytes : Bytes) (bits : Bits) :
    toBytes (ofBytes bytes ++ bits) = bytes ++ toBytes bits := by
  induction bytes with
  | nil => rfl
  | cons byte bytes ih =>
    have hbyte := leadingByte_ofNat_append byte (ofBytes bytes ++ bits)
    rw [ofBytes_cons, List.append_assoc]
    generalize hword : ofNat 8 byte.toNat = word at hbyte ⊢
    have hlength : word.length = 8 := hword ▸ length_ofNat 8 byte.toNat
    match word with
    | b :: word =>
      have hdrop : (word ++ (ofBytes bytes ++ bits)).drop 7 = ofBytes bytes ++ bits := by
        rw [List.drop_append_of_le_length (by simpa using hlength.ge),
          List.drop_of_length_le (by rw [List.length_cons] at hlength; omega), List.nil_append]
      rw [List.cons_append] at hbyte ⊢
      rw [toBytes, hbyte, hdrop, ih]
      rfl

end Bits

/-- Whatever is offered to the sink, it takes it. -/
def Sink.NeverFails (s : Sink) : Prop := ∀ offers held new, s.accepts offers held new = true

/-- The sink after it has taken `bytes`. -/
def Sink.take (s : Sink) (bytes : Bytes) : Sink :=
  { s with written := s.written ++ bytes, offers := s.offers + 1 }

theorem Sink.NeverFails.offer_eq {s : Sink} (h : s.NeverFails) (bytes : Bytes) :
    s.offer bytes = (true, s.take bytes) := if_pos (h _ _ _)

/-- The writer has written `bits` into a sink that never fails. -/
structure Writer.Holds (w : Writer) (bits : Bits) : Prop where
  neverFails : w.sink.NeverFails
  pending_lt : w.pending.length < 8
  bits_eq : w.bits = bits

namespace Write

variable {w : Writer} {bits : Bits}

theorem run_offer (h : w.sink.NeverFails) (bytes : Bytes) :
    (offer bytes).run w = (.ok (), { w with sink := w.sink.take bytes }) := by
  have hrun : (offer bytes).run w = ExceptT.run
      (if (w.sink.offer bytes).1 then pure () else fail .sinkFull)
      { w with sink := (w.sink.offer bytes).2 } := rfl
  rw [hrun, h.offer_eq, if_pos rfl]
  rfl

theorem run_sendPending (h : w.sink.NeverFails) :
    sendPending.run w =
      (.ok (), { sink := w.sink.take [Bits.leadingByte w.pending], pending := [] }) := by
  have hrun : sendPending.run w = (do
      offer [Bits.leadingByte w.pending]
      modify fun w => { w with pending := [] } : Write Unit).run w := rfl
  rw [hrun, run_bind_of_ok (run_offer h _)]
  rfl

/-- A bit that does not fill a byte stays pending, and one that does sends the byte. -/
theorem run_bit (hsink : w.sink.NeverFails) (hpending : w.pending.length < 8) (b : Bool) :
    (bit b).run w = (.ok (),
      if w.pending.length = 7 then
        { sink := w.sink.take [Bits.leadingByte (w.pending ++ [b])], pending := [] }
      else { w with pending := w.pending ++ [b] }) := by
  have hrun : (bit b).run w = ExceptT.run (if 8 ≤ w.pending.length then do
      throw (.fault .overflow)
      set { w with pending := w.pending ++ [b] }
      if (w.pending ++ [b]).length = 8 then sendPending
    else do
      set { w with pending := w.pending ++ [b] }
      if (w.pending ++ [b]).length = 8 then sendPending) w := rfl
  have hset : (set { w with pending := w.pending ++ [b] } : Write PUnit).run w =
      (.ok ⟨⟩, { w with pending := w.pending ++ [b] }) := rfl
  rw [hrun, if_neg (by omega), run_bind_of_ok hset, List.length_append, List.length_singleton]
  split
  · rw [if_pos (by omega)]
    exact run_sendPending hsink
  · rw [if_neg (by omega)]
    rfl

end Write

namespace Writer.Holds

variable {w : Writer} {bits : Bits}

theorem initial {sink : Sink} (hsink : sink.NeverFails) (hempty : sink.written = []) :
    Holds { sink } [] where
  neverFails := hsink
  pending_lt := Nat.zero_lt_succ 7
  bits_eq := by simp [Writer.bits, hempty, Bits.ofBytes]

theorem aligned_iff (h : w.Holds bits) : w.aligned = true ↔ bits.length % 8 = 0 := by
  have hpending := h.pending_lt
  have hlength := congrArg List.length h.bits_eq
  rw [Writer.bits, List.length_append, Bits.length_ofBytes] at hlength
  rw [Writer.aligned, List.isEmpty_iff, ← List.length_eq_zero_iff]
  omega

/-- Giving the writer up fills the last byte with zeros. -/
theorem close_eq (h : w.Holds bits) : w.close = Bits.toBytes bits := by
  have hbytes : Bits.toBytes bits = w.sink.written ++ Bits.toBytes w.pending := by
    rw [← h.bits_eq, Writer.bits, Bits.toBytes_ofBytes_append]
  have hrun : Write.flush.run w = ExceptT.run
      (if !w.aligned then Write.sendPending else pure ()) w := rfl
  rw [hbytes, Writer.close, hrun]
  cases hpending : w.pending with
  | nil =>
    have haligned : w.aligned = true := by rw [Writer.aligned, hpending]; rfl
    rw [haligned, if_neg (by decide), Bits.toBytes, List.append_nil]
    rfl
  | cons b rest =>
    have haligned : w.aligned = false := by rw [Writer.aligned, hpending]; rfl
    have hshort : rest.length ≤ 7 := by
      have := h.pending_lt
      rw [hpending, List.length_cons] at this
      omega
    rw [haligned, if_pos (by decide), Write.run_sendPending h.neverFails, hpending, Bits.toBytes,
      List.drop_of_length_le hshort, Bits.toBytes]
    rfl

/-- One more bit is held, whether it completes a byte or not. -/
theorem bit (h : w.Holds bits) (b : Bool) :
    ∃ w', (Write.bit b).run w = (.ok (), w') ∧ w'.Holds (bits ++ [b]) := by
  refine ⟨_, Write.run_bit h.neverFails h.pending_lt b, ?_⟩
  have hpending := h.pending_lt
  split
  · rename_i hfull
    have hbyte : Bits.ofBytes [Bits.leadingByte (w.pending ++ [b])] = w.pending ++ [b] := by
      rw [Bits.ofBytes_cons, Bits.ofNat_leadingByte,
        List.take_append_of_le_length (by simp [hfull]), List.take_of_length_le (by simp [hfull])]
      exact List.append_nil _
    refine ⟨h.neverFails, Nat.zero_lt_succ 7, ?_⟩
    rw [← h.bits_eq, Writer.bits, Sink.take, Bits.ofBytes_append, hbyte, List.append_nil,
      Writer.bits, List.append_assoc]
  · refine ⟨h.neverFails, by rw [List.length_append, List.length_singleton]; omega, ?_⟩
    rw [← h.bits_eq, Writer.bits, Writer.bits, List.append_assoc]

end Writer.Holds

namespace Write

variable {α β : Type} {position : Nat} {word word' : Bits} {a : α} {b : β}

/-- Where the sink never fails, the computation succeeds at `position` with `a`, and adds `word` to
    what is written. -/
def Emits (m : Write α) (position : Nat) (word : Bits) (a : α) : Prop :=
  ∀ w bits, bits.length = position → w.Holds bits →
    ∃ w', m.run w = (.ok a, w') ∧ w'.Holds (bits ++ word)

namespace Emits

theorem pure : Emits (Pure.pure a) position [] a :=
  fun w bits _ hw => ⟨w, rfl, (List.append_nil bits).symm ▸ hw⟩

theorem bind {m : Write α} {f : α → Write β} (hm : Emits m position word a)
    (hf : Emits (f a) (position + word.length) word' b) :
    Emits (m >>= f) position (word ++ word') b := by
  intro w bits hposition hw
  obtain ⟨w₁, hrun, hw₁⟩ := hm w bits hposition hw
  obtain ⟨w₂, hrun', hw₂⟩ := hf w₁ _ (by rw [List.length_append, hposition]) hw₁
  refine ⟨w₂, (run_bind_of_ok hrun).trans hrun', ?_⟩
  rwa [List.append_assoc] at hw₂

/-- What is done with a result needs no more bits. -/
theorem bind_pure {m : Write α} {f : α → Write β} (hm : Emits m position word a)
    (hf : f a = Pure.pure b) : Emits (m >>= f) position word b := by
  have hbind : Emits (m >>= f) position (word ++ []) b := hm.bind (hf ▸ pure)
  rwa [List.append_nil] at hbind

theorem bits (word : Bits) : Emits (Write.bits word) position word () := by
  induction word generalizing position with
  | nil => exact pure
  | cons b word ih =>
    have hbit : Emits (Write.bit b) position [b] () := fun w bits _ hw => hw.bit b
    exact hbit.bind ih

theorem codeWord {x : Outcome WriteError Bits} (hx : x = .ok word) :
    Emits (Write.codeWord x) position word word.length := by
  subst hx
  exact (bits word).bind_pure rfl

end Emits

end Write

end Av1Frames
