import Av1Frames.Proofs.Descriptor.Leb128
import Av1Frames.Proofs.Descriptor.Signed
import Av1Frames.Proofs.Descriptor.Subexp

namespace Av1Frames

namespace Descriptor

/-- A descriptor with its parameter. -/
inductive Kind where
  /-- `f(n)` -/
  | fixed (n : Nat)
  /-- `su(n)` -/
  | signed (n : Nat)
  /-- `ns(n)` -/
  | nonSymmetric (n : Nat)
  /-- A subexponential code among `count` symbols. -/
  | subexp (count : Nat)
  /-- `leb128()`, written in at least so many bytes. -/
  | leb128 (least : Nat)
deriving DecidableEq, Repr

namespace Kind

/-- The numbers that a descriptor is for. -/
def Admits (value : Int) : Kind → Prop
  | fixed n => n ≤ 31 ∧ 0 ≤ value ∧ value < 2 ^ n
  | signed n => 1 ≤ n ∧ n ≤ 30 ∧ -2 ^ (n - 1) ≤ value ∧ value < 2 ^ (n - 1)
  | nonSymmetric n => n < 2 ^ 31 ∧ 0 ≤ value ∧ value < n
  | subexp count => count ≤ 2 ^ 30 ∧ 0 ≤ value ∧ value < count
  | leb128 _ => 0 ≤ value ∧ value < 2 ^ 32

/-- Whether a descriptor may start at a position. -/
def StartsAt (position : Nat) : Kind → Prop
  | leb128 _ => position % 8 = 0
  | _ => True

instance decidableAdmits (value : Int) : (kind : Kind) → Decidable (kind.Admits value)
  | fixed _ | signed _ | nonSymmetric _ | subexp _ | leb128 _ =>
    inferInstanceAs (Decidable (_ ∧ _))

instance decidableStartsAt (position : Nat) : (kind : Kind) → Decidable (kind.StartsAt position)
  | leb128 _ => inferInstanceAs (Decidable (_ = _))
  | fixed _ | signed _ | nonSymmetric _ | subexp _ => .isTrue trivial

/-- The bits that stand for a number. -/
def word (value : Int) : Kind → Outcome WriteError Bits
  | fixed n => Descriptor.fixed n value.toNat
  | signed n => Descriptor.signed n value
  | nonSymmetric n => Descriptor.nonSymmetric n value.toNat
  | subexp count => (Descriptor.subexp count value.toNat).bits
  | leb128 least => .ok (Bits.ofBytes (Descriptor.leb128 value.toNat least))

/-- Writes a number, and counts the bits, or the bytes of `leb128()`. -/
def write (value : Int) : Kind → Write Nat
  | fixed n => Write.fixed n value.toNat
  | signed n => Write.signed n value
  | nonSymmetric n => Write.nonSymmetric n value.toNat
  | subexp count => Write.subexp count value.toNat
  | leb128 least => Write.leb128 value.toNat least

/-- Reads a number. -/
def read : Kind → Read Int
  | fixed n => return (← Read.fixed n)
  | signed n => Read.signed n
  | nonSymmetric n => return (← Read.nonSymmetric n)
  | subexp count => Read.subexp count
  | leb128 _ => return (← Read.leb128)

end Kind

/-- A number in a stream. -/
structure Field where
  kind : Kind
  value : Int
deriving DecidableEq, Repr

/-- How many bits a number takes. -/
def Field.length (field : Field) : Nat :=
  match field.kind.word field.value with
  | .ok word => word.length
  | .error _ => 0

/-- Whether fields can be written one after the other from `position` on. -/
def Writable : (position : Nat) → (fields : List Field) → Prop
  | _, [] => True
  | position, field :: fields =>
    field.kind.Admits field.value ∧ field.kind.StartsAt position ∧
      Writable (position + field.length) fields

instance decidableWritable :
    (position : Nat) → (fields : List Field) → Decidable (Writable position fields)
  | _, [] => .isTrue trivial
  | position, field :: fields =>
    have := decidableWritable (position + field.length) fields
    inferInstanceAs (Decidable (_ ∧ _ ∧ _))

end Descriptor

open Descriptor (Kind Field Writable)

/-- How many bits were written. -/
def Write.position : Write Nat := return (← get).bits.length

/-- How many bits were read. -/
def Read.position : Read Nat := return (← get).position

/-- Writes fields one after the other. The result says where each one ends. -/
def Write.fields : List Field → Write (List Nat)
  | [] => return []
  | field :: fields => do
    let _ ← field.kind.write field.value
    let position ← Write.position
    return position :: (← Write.fields fields)

/-- Reads a number through each descriptor. The second list says where each one ends. -/
def Read.fields : List Kind → Read (List Int × List Nat)
  | [] => return ([], [])
  | kind :: kinds => do
    let value ← kind.read
    let position ← Read.position
    let (values, positions) ← Read.fields kinds
    return (value :: values, position :: positions)

namespace Descriptor

/-- A number that a descriptor is for has a code word. It is written and read back wherever the
    descriptor may start. -/
theorem Kind.exists_word {kind : Kind} {value : Int} (hvalue : kind.Admits value) :
    ∃ word, kind.word value = .ok word ∧ ∀ position, kind.StartsAt position →
      (∃ count, Write.Emits (kind.write value) position word count) ∧
      Read.Decodes kind.read position word value := by
  cases kind with
  | fixed n =>
    obtain ⟨hn, hpos, hlt⟩ := hvalue
    lift value to Nat using hpos
    have hfixed : Descriptor.fixed n value = .ok (Bits.ofNat n value) :=
      fixed_eq_ok_iff.mpr ⟨by omega, rfl⟩
    exact ⟨_, hfixed, fun position _ => ⟨⟨_, .codeWord hfixed⟩,
      (Read.Decodes.fixed hn (by exact_mod_cast hlt)).bind_pure rfl⟩⟩
  | signed n =>
    obtain ⟨hpos, hn, hlow, hhigh⟩ := hvalue
    have hdouble : (2 : Int) ^ n = 2 * 2 ^ (n - 1) := (mul_pow_sub_one (by omega) 2).symm
    have hsigned : Descriptor.signed n value = .ok (Bits.ofNat n (value % 2 ^ n).toNat) :=
      signed_eq_ok hn (by omega)
    exact ⟨_, hsigned, fun position _ => ⟨⟨_, .codeWord hsigned⟩,
      .signed_of_range hpos hn hlow hhigh⟩⟩
  | nonSymmetric n =>
    obtain ⟨hn, hpos, hlt⟩ := hvalue
    lift value to Nat using hpos
    obtain ⟨word, hword, hread⟩ :=
      Read.Decodes.exists_nonSymmetric hn (v := value) (by exact_mod_cast hlt)
    exact ⟨word, hword, fun position _ => ⟨⟨_, .codeWord hword⟩, (hread position).bind_pure rfl⟩⟩
  | subexp count =>
    obtain ⟨hcount, hpos, hlt⟩ := hvalue
    lift value to Nat using hpos
    obtain ⟨word, hword, hread⟩ :=
      Read.Decodes.exists_subexp hcount (Int.ofNat_lt.mp hlt)
    exact ⟨word, hword, fun position _ => ⟨⟨_, .subexp hword⟩, hread position⟩⟩
  | leb128 least =>
    obtain ⟨hpos, hlt⟩ := hvalue
    lift value to Nat using hpos
    exact ⟨_, rfl, fun position hstart => ⟨⟨_, .leb128 hstart⟩,
      (Read.Decodes.leb128 (by exact_mod_cast hlt) hstart).bind_pure rfl⟩⟩

theorem emits_position {position : Nat} :
    Write.Emits Write.position position [] position := by
  intro w bits hposition hw
  refine ⟨w, ?_, (List.append_nil bits).symm ▸ hw⟩
  rw [← hposition, ← hw.bits_eq]
  rfl

theorem decodes_position {position : Nat} :
    Read.Decodes Read.position position [] position := fun _ => rfl

/-- Fields that can be written are written and read back with the same positions in between. -/
theorem Writable.exists_bits {fields : List Field} {position : Nat}
    (hfields : Writable position fields) :
    ∃ bits positions, Write.Emits (Write.fields fields) position bits positions ∧
      Read.Decodes (Read.fields (fields.map Field.kind)) position bits
        (fields.map Field.value, positions) := by
  induction fields generalizing position with
  | nil => exact ⟨[], [], .pure, .pure⟩
  | cons field fields ih =>
    obtain ⟨hvalue, hstart, hfields⟩ := hfields
    obtain ⟨word, hword, hat⟩ := Kind.exists_word hvalue
    obtain ⟨⟨count, hwrite⟩, hread⟩ := hat position hstart
    have hlength : field.length = word.length := by rw [Field.length, hword]
    rw [hlength] at hfields
    obtain ⟨bits, positions, hwrites, hreads⟩ := ih hfields
    exact ⟨word ++ bits, (position + word.length) :: positions,
      hwrite.bind (emits_position.bind (hwrites.bind_pure rfl)),
      hread.bind (decodes_position.bind (hreads.bind_pure rfl))⟩

/-- Numbers that are written one after the other are read back through the same descriptors, and
    each one is read up to where it was written. The bytes hold all bits, and as many zeros as are
    missing to the next byte. -/
theorem fields_of_bytes {fields : List Field} {sink : Sink} (hsink : sink.NeverFails)
    (hempty : sink.written = []) (hfields : Writable 0 fields) :
    ∃ positions w padding, (Write.fields fields).run { sink } = (.ok positions, w) ∧
      (Read.fields (fields.map Field.kind)).run (Reader.ofBytes w.close) =
        (.ok (fields.map Field.value, positions), ⟨padding, w.bits.length⟩) ∧
      Bits.ofBytes w.close = w.bits ++ padding ∧
      padding = List.replicate ((8 - w.bits.length % 8) % 8) false ∧
      w.close.length = (w.bits.length + 7) / 8 := by
  obtain ⟨bits, positions, hwrite, hread⟩ := hfields.exists_bits
  obtain ⟨w, hrun, hw⟩ := hwrite _ [] rfl (.initial hsink hempty)
  obtain rfl : w.bits = bits := hw.bits_eq
  have hclose : w.close = Bits.toBytes w.bits := hw.close_eq
  have hbytes := Bits.ofBytes_toBytes w.bits
  refine ⟨positions, w, _, hrun, ?_, hclose ▸ hbytes, rfl, hclose ▸ Bits.length_toBytes w.bits⟩
  rw [Reader.ofBytes, hclose, hbytes, hread, Nat.zero_add]

/-- Descriptors of each kind, the last ones after the bits have come to the start of a byte. -/
def mixedFields : List Field :=
  [⟨.fixed 3, 5⟩, ⟨.signed 4, -3⟩, ⟨.nonSymmetric 5, 4⟩, ⟨.subexp 12, 11⟩, ⟨.fixed 2, 1⟩,
    ⟨.leb128 3, 300⟩, ⟨.subexp 100, 90⟩, ⟨.fixed 0, 0⟩]

theorem fields_of_bytes_mixedFields :
    Sink.unbounded.NeverFails ∧ Sink.unbounded.written = [] ∧ Writable 0 mixedFields ∧
      ∃ positions w padding, (Write.fields mixedFields).run { sink := Sink.unbounded } =
          (.ok positions, w) ∧
        (Read.fields (mixedFields.map Field.kind)).run (Reader.ofBytes w.close) =
          (.ok (mixedFields.map Field.value, positions), ⟨padding, w.bits.length⟩) ∧
        Bits.ofBytes w.close = w.bits ++ padding ∧
        padding = List.replicate ((8 - w.bits.length % 8) % 8) false ∧
        w.close.length = (w.bits.length + 7) / 8 := by
  have hsink : Sink.unbounded.NeverFails := fun _ _ _ => rfl
  have hfields : Writable 0 mixedFields := by decide +kernel
  exact ⟨hsink, rfl, hfields, fields_of_bytes hsink rfl hfields⟩

end Descriptor

end Av1Frames
