import Av1Frames.Encoder.Tracker
import Av1Frames.Proofs.Descriptor.Subexp
import Av1Frames.Proofs.GlobalMotion.Range
import Av1Frames.Proofs.SyntaxError

namespace Av1Frames

namespace CodedWarp

/-- The warp as it is read: flags that are not asked for are not set, and codes that are not
    transmitted are zero. -/
def transmitted (w : CodedWarp) : CodedWarp where
  isGlobal := w.isGlobal
  isRotZoom := w.isGlobal && w.isRotZoom
  isTranslation := w.isGlobal && !w.isRotZoom && w.isTranslation
  codes := Vector.ofFn fun i => if w.model.transmits i then w.codes.get i else 0

theorem transmitted_model (w : CodedWarp) : w.transmitted.model = w.model := by
  obtain ⟨isGlobal, isRotZoom, isTranslation, codes⟩ := w
  cases isGlobal <;> cases isRotZoom <;> cases isTranslation <;> rfl

theorem transmitted_codes {w : CodedWarp} {i : Fin 6} (htransmits : w.model.transmits i = true) :
    w.transmitted.codes.get i = w.codes.get i := by
  rw [transmitted, get_eq_getElem, Vector.getElem_ofFn, if_pos htransmits]

variable {w : CodedWarp} {highPrecision : Bool} {i : Fin 6} {position : Nat}

theorem decodes_flagBits :
    Read.Decodes readFlags position w.flagBits
      { w.transmitted with codes := Vector.replicate 6 0 } := by
  obtain ⟨isGlobal, isRotZoom, isTranslation, codes⟩ := w
  unfold readFlags flagBits transmitted
  cases isGlobal with
  | false => exact Read.Decodes.bit.bind_pure rfl
  | true =>
    cases isRotZoom with
    | true => exact Read.Decodes.bit.bind (Read.Decodes.bit.bind_pure rfl)
    | false =>
      exact Read.Decodes.bit.bind (Read.Decodes.bit.bind (Read.Decodes.bit.bind_pure rfl))

/-- A code in range has bits, which are read back. -/
theorem exists_codeBits (hcode : (WarpPrecision.of w.model i highPrecision).Codes (w.codes.get i)) :
    ∃ word, w.codeBits highPrecision i = .ok word ∧
      ∀ position, Read.Decodes (Read.subexp (WarpPrecision.of w.model i highPrecision).symbols)
        position word (w.codes.get i) := by
  have hmx := WarpPrecision.mx_of_le w.model i highPrecision
  have hbits : w.codeBits highPrecision i =
      if 0 ≤ w.codes.get i ∧ w.codes.get i < (WarpPrecision.of w.model i highPrecision).symbols then
        liftM (Descriptor.subexp (WarpPrecision.of w.model i highPrecision).symbols.toNat
          (w.codes.get i).toNat).bits
      else .invalid .gmParams := rfl
  rw [hbits]
  generalize WarpPrecision.of w.model i highPrecision = p at hcode hmx ⊢
  generalize w.codes.get i = code at hcode ⊢
  obtain ⟨hnonneg, hle⟩ := hcode
  lift code to Nat using hnonneg
  have hsymbols : p.symbols = (p.symbols.toNat : Int) := by
    unfold WarpPrecision.symbols
    omega
  have hlt : code < p.symbols.toNat := by
    unfold WarpPrecision.symbols
    omega
  have hcount : p.symbols.toNat ≤ 2 ^ 30 := by
    unfold WarpPrecision.symbols
    omega
  obtain ⟨word, hword, hread⟩ := Read.Decodes.exists_subexp hcount hlt
  refine ⟨word, ?_, fun position => hsymbols ▸ hread position⟩
  rw [if_pos ⟨Int.natCast_nonneg code, by omega⟩]
  exact Encoding.descriptor_eq_ok_iff.mpr hword

/-- The codes of some parameters put into the places of others. -/
def fillCodes (w : CodedWarp) : List (Fin 6) → Vector Int 6 → Vector Int 6
  | [], codes => codes
  | i :: is, codes => w.fillCodes is (codes.set i (w.codes.get i))

theorem exists_codesBits (is : List (Fin 6)) (acc : CodedWarp)
    (hcodes : ∀ i ∈ is, (WarpPrecision.of w.model i highPrecision).Codes (w.codes.get i))
    (hmodel : acc.model = w.model) :
    ∃ word, w.codesBits highPrecision is = .ok word ∧
      ∀ position, Read.Decodes (readCodes highPrecision acc is) position word
        { acc with codes := w.fillCodes is acc.codes } := by
  induction is generalizing acc with
  | nil => exact ⟨[], rfl, fun position => .pure⟩
  | cons i is ih =>
    obtain ⟨code, hcode, hreadCode⟩ := exists_codeBits (hcodes i List.mem_cons_self)
    obtain ⟨rest, hrest, hreadRest⟩ :=
      ih { acc with codes := acc.codes.set i (w.codes.get i) }
        (fun i hi => hcodes i (List.mem_cons_of_mem _ hi)) hmodel
    refine ⟨code ++ rest, ?_, fun position => ?_⟩
    · rw [codesBits, hcode, hrest]
      rfl
    · rw [readCodes, hmodel]
      exact (hreadCode position).bind (hreadRest _)

/-- Filled in one after the other, the codes of the transmitted parameters are the ones that are
    read. -/
theorem fillCodes_transmitted (w : CodedWarp) :
    w.fillCodes w.model.transmitted (Vector.replicate 6 0) = w.transmitted.codes := by
  refine Vector.ext fun i hi => ?_
  rw [transmitted, Vector.getElem_ofFn]
  cases w.model <;> match i, hi with
    | 0, _ | 1, _ | 2, _ | 3, _ | 4, _ | 5, _ => rfl

/-- A warp with codes in range has bits, which are read back. -/
theorem exists_bits (hcodes : w.InRange highPrecision) :
    ∃ word, w.bits highPrecision = .ok word ∧
      ∀ position, Read.Decodes (read highPrecision) position word w.transmitted := by
  have hmodel : ({ w.transmitted with codes := Vector.replicate 6 0 } : CodedWarp).model =
      w.model := transmitted_model w
  obtain ⟨codes, hcodesBits, hreadCodes⟩ := exists_codesBits w.model.transmitted _
    (fun i hi => hcodes i (List.contains_iff_mem.mpr hi)) hmodel
  refine ⟨w.flagBits ++ codes, ?_, fun position => decodes_flagBits.bind ?_⟩
  · rw [bits, hcodesBits]
    rfl
  · have hread := hreadCodes (position + w.flagBits.length)
    rw [fillCodes_transmitted] at hread
    rw [hmodel]
    exact hread

theorem codes_of_codeBits {word : Bits} (h : w.codeBits highPrecision i = .ok word) :
    (WarpPrecision.of w.model i highPrecision).Codes (w.codes.get i) := by
  unfold codeBits at h
  dsimp only at h
  split at h
  · rename_i hcode
    obtain ⟨hnonneg, hlt⟩ := hcode
    exact ⟨hnonneg, Int.lt_add_one_iff.mp hlt⟩
  · exact absurd h fail_ne_ok

theorem forall_codes_of_codesBits {is : List (Fin 6)} {word : Bits}
    (h : w.codesBits highPrecision is = .ok word) :
    ∀ i ∈ is, (WarpPrecision.of w.model i highPrecision).Codes (w.codes.get i) := by
  induction is generalizing word with
  | nil => exact List.forall_mem_nil _
  | cons i is ih =>
    obtain ⟨code, hcode, h⟩ := bind_eq_ok_iff.mp h
    obtain ⟨rest, hrest, -⟩ := bind_eq_ok_iff.mp h
    exact List.forall_mem_cons.mpr ⟨codes_of_codeBits hcode, ih hrest⟩

/-- Nothing but a code out of range keeps a warp from being written. -/
theorem exists_bits_iff :
    (∃ word, w.bits highPrecision = .ok word) ↔ w.InRange highPrecision := by
  constructor
  · rintro ⟨word, h⟩ i htransmits
    obtain ⟨codes, hcodes, -⟩ := bind_eq_ok_iff.mp h
    exact forall_codes_of_codesBits hcodes i (List.contains_iff_mem.mp htransmits)
  · intro hcodes
    obtain ⟨word, hword, -⟩ := exists_bits hcodes
    exact ⟨word, hword⟩

end CodedWarp

namespace CodedWarps

theorem forall_bits_of_listBits {highPrecision : Bool} {ws : List CodedWarp} {word : Bits}
    (h : listBits highPrecision ws = .ok word) :
    ∀ w ∈ ws, ∃ word, w.bits highPrecision = .ok word := by
  induction ws generalizing word with
  | nil => exact List.forall_mem_nil _
  | cons w ws ih =>
    obtain ⟨first, hfirst, h⟩ := bind_eq_ok_iff.mp h
    obtain ⟨rest, hrest, -⟩ := bind_eq_ok_iff.mp h
    exact List.forall_mem_cons.mpr ⟨⟨first, hfirst⟩, ih hrest⟩

/-- The warps as they are read. The one of the frame itself is none of them. -/
def transmitted (warps : CodedWarps) : CodedWarps :=
  Vector.ofFn fun r : Fin 8 => if r.val = 0 then {} else (warps.get r).transmitted

theorem get_transmitted {warps : CodedWarps} {r : Fin 8} (hr : r.val ≠ 0) :
    warps.transmitted.get r = (warps.get r).transmitted := by
  rw [transmitted, get_eq_getElem, Vector.getElem_ofFn, if_neg hr]

variable {warps : CodedWarps} {highPrecision : Bool}

/-- Warps with codes in range have bits, which are read back. -/
theorem exists_bits (hcodes : ∀ r : Fin 8, r.val ≠ 0 → (warps.get r).InRange highPrecision) :
    ∃ word, warps.bits highPrecision = .ok word ∧
      ∀ position, Read.Decodes (read highPrecision) position word warps.transmitted := by
  have hseven : ∀ i : Fin 7, ∃ word, (warps.get i.succ).bits highPrecision = .ok word ∧
      ∀ position, Read.Decodes (CodedWarp.read highPrecision) position word
        (warps.get i.succ).transmitted :=
    fun i => CodedWarp.exists_bits (hcodes i.succ (Nat.succ_ne_zero i))
  choose words hwords hreads using hseven
  have htail : warps.toList.tail = List.ofFn fun i : Fin 7 => warps.get i.succ := by
    refine List.ext_getElem (by simp) fun i hi hi' => ?_
    rw [List.getElem_tail, Vector.getElem_toList, List.getElem_ofFn, get_eq_getElem]
    rfl
  refine ⟨(List.ofFn words).flatten, ?_, fun position => ?_⟩
  · rw [bits, htail]
    exact Encoding.list_eq_ok (f := fun w => w.bits highPrecision) (g := listBits highPrecision) rfl
      (fun _ _ => rfl) hwords
  · have hread : Read.Decodes (Vector.ofFnM fun _ => CodedWarp.read highPrecision) position
        (List.ofFn words).flatten (Vector.ofFn fun i => (warps.get i.succ).transmitted) := by
      refine Read.Decodes.ofFnM fun i position => ?_
      rw [get_eq_getElem, Vector.getElem_ofFn]
      exact hreads i position
    refine hread.bind_pure (congrArg Pure.pure (Vector.ext fun r hr => ?_))
    unfold transmitted
    rw [Vector.getElem_ofFn]
    cases r with
    | zero => rfl
    | succ r =>
      rw [dif_neg (Nat.succ_ne_zero r), Vector.getElem_ofFn, Vector.getElem_ofFn,
        if_neg (Nat.succ_ne_zero r)]
      rfl

/-- The warps of a frame can be written if the codes of all seven are in range, and only then. -/
theorem exists_bits_iff : (∃ word, warps.bits highPrecision = .ok word) ↔
    ∀ r : Fin 8, r.val ≠ 0 → (warps.get r).InRange highPrecision := by
  constructor
  · rintro ⟨word, h⟩ r hr
    have hmem : warps.get r ∈ warps.toList.tail := mem_toList_tail_iff.mpr ⟨r, hr, rfl⟩
    exact CodedWarp.exists_bits_iff.mp (forall_bits_of_listBits h _ hmem)
  · intro hcodes
    obtain ⟨word, hword, -⟩ := exists_bits hcodes
    exact ⟨word, hword⟩

end CodedWarps

/-- What a frame header transmits of its warps. The header of a frame that is predicted from others
    can be written if each transmitted code is one that its parameter has at its precision, and
    only then. Whoever reads the bytes finds the models of all references and these codes, and less
    than a byte of zeros behind them. -/
theorem Header.warpBits_transmits {header : Header} (hinter : header.isIntra = false) :
    ((∃ word, header.warpBits = .ok word) ↔
      ∀ r : Fin 8, r.val ≠ 0 → (header.warps.get r).InRange header.allowHighPrecisionMv) ∧
    ∀ word, header.warpBits = .ok word →
      ∃ (back : CodedWarps) (padding : Nat),
        (CodedWarps.read header.allowHighPrecisionMv).run (Reader.ofBytes (Bits.toBytes word)) =
          (.ok back, ⟨List.replicate padding false, word.length⟩) ∧
        padding < 8 ∧
        ∀ r : Fin 8, r.val ≠ 0 →
          (back.get r).model = (header.warps.get r).model ∧
            ∀ i, (header.warps.get r).model.transmits i = true →
              (back.get r).codes.get i = (header.warps.get r).codes.get i := by
  have hbits : header.warpBits = header.warps.bits header.allowHighPrecisionMv := by
    rw [warpBits, hinter]
    rfl
  rw [hbits]
  refine ⟨CodedWarps.exists_bits_iff, fun word hword => ?_⟩
  obtain ⟨written, hwritten, hread⟩ :=
    CodedWarps.exists_bits (CodedWarps.exists_bits_iff.mp ⟨word, hword⟩)
  obtain rfl : written = word := Except.ok.inj (hwritten.symm.trans hword)
  refine ⟨_, _, (hread 0).run_toBytes, Nat.mod_lt _ (by decide), fun r hr => ?_⟩
  rw [CodedWarps.get_transmitted hr]
  exact ⟨CodedWarp.transmitted_model _, fun i htransmits =>
    CodedWarp.transmitted_codes htransmits⟩

/-- A translation, which leaves five bits of the last byte, and a rotation with zoom whose last code
    is the greatest that there is. -/
theorem Header.warpBits_transmits_mixed :
    let header : Header := {
      frameType := .interFrame
      warps := ((Vector.replicate 8 {}).set 4 {
        isGlobal := true
        isTranslation := true
        codes := #v[6, 512, -1, -1, -1, -1] }).set 7 {
        isGlobal := true
        isRotZoom := true
        codes := #v[0, 8192, 1, 17, -1, -1] } }
    header.isIntra = false ∧
      ∃ word, header.warpBits = .ok word ∧
        ∃ (back : CodedWarps) (padding : Nat),
          (CodedWarps.read false).run (Reader.ofBytes (Bits.toBytes word)) =
            (.ok back, ⟨List.replicate padding false, word.length⟩) ∧
          padding < 8 ∧
          ∀ r : Fin 8, r.val ≠ 0 →
            (back.get r).model = (header.warps.get r).model ∧
              ∀ i, (header.warps.get r).model.transmits i = true →
                (back.get r).codes.get i = (header.warps.get r).codes.get i := by
  intro header
  have hinter : header.isIntra = false := rfl
  obtain ⟨word, hword⟩ := (Header.warpBits_transmits hinter).1.mpr (by decide +kernel)
  exact ⟨hinter, word, hword, (Header.warpBits_transmits hinter).2 word hword⟩

end Av1Frames
