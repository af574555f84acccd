import Av1Frames.Encoder.Tracker
import Av1Frames.Proofs.FrameState.Derivation
import Av1Frames.Proofs.GlobalMotion.Syntax
import Av1Frames.Proofs.LoopFilter.Syntax

namespace Av1Frames

namespace CodedDelta

/-- A delta that is transmitted as it is has the same effect after transmission. -/
theorem get_apply_transmitted {n : Nat} {coded : Vector CodedDelta n} {previous : Vector Int n}
    {i : Fin n} (hfits : (coded.get i).Fits) :
    (apply (coded.map transmitted) previous).get i = (apply coded previous).get i := by
  have hupdate := transmitted_update (coded.get i)
  have hvalue := transmitted_value hfits
  unfold apply
  simp only [get_eq_getElem, Vector.getElem_zipWith, Vector.getElem_map] at hupdate hvalue ⊢
  rw [hupdate]
  split
  · exact hvalue ‹_›
  · rfl

end CodedDelta

/-- Each delta is a number of eight bits with a sign. -/
structure FilterDeltas.FitByte (deltas : FilterDeltas) : Prop where
  ref : ∀ i, -128 ≤ deltas.ref.get i ∧ deltas.ref.get i < 128
  mode : ∀ i, -128 ≤ deltas.mode.get i ∧ deltas.mode.get i < 128

namespace FrameState

variable {s : Sequence} {slots : StateSlots} {header coded : Header} {target : FrameState}
  {kept lf : LoopFilter} {primary : Option FrameState}

/-- What is known of the loop filter part that wanted deltas are coded into. -/
structure DeltasCoded (kept : LoopFilter) (target : FrameState) (lf : LoopFilter) : Prop where
  levels : lf.levels = kept.levels
  sharpness : lf.sharpness = kept.sharpness
  enabled : lf.deltaUpdate = true → lf.deltaEnabled = true
  ref : ∀ i, (lf.refDeltas.get i).update = true →
    (lf.refDeltas.get i).value = target.deltas.ref.get i
  mode : ∀ i, (lf.modeDeltas.get i).update = true →
    (lf.modeDeltas.get i).value = target.deltas.mode.get i

theorem deltasCoded_of_codeDeltas (hcoded : codeDeltas kept primary target = .ok lf) :
    DeltasCoded kept target lf := by
  cases primary with
  | none =>
    unfold codeDeltas at hcoded
    dsimp only at hcoded
    split at hcoded
    · exact absurd hcoded fail_ne_ok
    · obtain rfl := Except.ok.inj hcoded
      refine ⟨rfl, rfl, nofun, fun i hupdate => ?_, fun i hupdate => ?_⟩
      · simp [get_eq_getElem] at hupdate
      · simp [get_eq_getElem] at hupdate
  | some primary =>
    have hgiven {n : Nat} {kept : Vector CodedDelta n} {target previous : Vector Int n} (i : Fin n)
        (hupdate : ((CodedDelta.forTargets kept target previous).get i).update = true) :
        ((CodedDelta.forTargets kept target previous).get i).value = target.get i := by
      unfold CodedDelta.forTargets at hupdate ⊢
      rw [get_eq_getElem, Vector.getElem_ofFn] at hupdate ⊢
      unfold CodedDelta.forTarget at hupdate ⊢
      split at hupdate
      · rw [if_pos ‹_›]
      · exact nomatch hupdate
    simp only [codeDeltas] at hcoded
    split at hcoded
    · exact absurd hcoded fail_ne_ok
    · rename_i hdisabled
      obtain rfl := Except.ok.inj hcoded
      refine ⟨rfl, rfl, fun hupdate => ?_, hgiven, hgiven⟩
      by_contra henabled
      exact hdisabled (Bool.and_eq_true_iff.mpr ⟨hupdate, by simpa using henabled⟩)

theorem DeltasCoded.writable (hcoded : DeltasCoded kept target lf)
    (hlevels : ∀ i, kept.levels.get i < 64) (hsharpness : kept.sharpness < 8)
    (hdeltas : target.deltas.FitByte) : lf.Writable where
  levels := hcoded.levels ▸ hlevels
  sharpness := hcoded.sharpness ▸ hsharpness
  refDeltas i hupdate := (hcoded.ref i hupdate).symm ▸ (hdeltas.ref i).1
  modeDeltas i hupdate := (hcoded.mode i hupdate).symm ▸ (hdeltas.mode i).1

/-- After transmission the deltas are in force that were before it, if they are transmitted as they
    are. -/
theorem resolveDeltas_transmitted (primary : Option FrameState) (monochrome : Bool)
    (henabled : lf.deltaUpdate = true → lf.deltaEnabled = true) :
    (resolveDeltas (lf.transmitted monochrome) primary).1 = (resolveDeltas lf primary).1 ∧
      (∀ i, (lf.refDeltas.get i).Fits →
        (resolveDeltas (lf.transmitted monochrome) primary).2.ref.get i =
          (resolveDeltas lf primary).2.ref.get i) ∧
      ∀ i, (lf.modeDeltas.get i).Fits →
        (resolveDeltas (lf.transmitted monochrome) primary).2.mode.get i =
          (resolveDeltas lf primary).2.mode.get i := by
  cases primary with
  | none => exact ⟨rfl, fun _ _ => rfl, fun _ _ => rfl⟩
  | some primary =>
    unfold resolveDeltas LoopFilter.apply LoopFilter.transmitted LoopFilter.givesDeltas
    cases hupdate : lf.deltaUpdate with
    | false => simp
    | true =>
      rw [henabled hupdate]
      exact ⟨rfl, fun i hfits => CodedDelta.get_apply_transmitted hfits,
        fun i hfits => CodedDelta.get_apply_transmitted hfits⟩

theorem resolveWarp_transmitted (w : CodedWarp) (highPrecision : Bool) (previous : WarpMatrix) :
    resolveWarp w.transmitted highPrecision previous = resolveWarp w highPrecision previous := by
  have hparameter : resolveParameter w.transmitted highPrecision previous =
      resolveParameter w highPrecision previous := by
    funext i
    unfold resolveParameter
    rw [CodedWarp.transmitted_model]
    split
    · rw [CodedWarp.transmitted_codes ‹_›]
    · rfl
  unfold resolveWarp
  rw [hparameter, CodedWarp.transmitted_model]

/-- What is not transmitted of warps has no effect. -/
theorem resolveWarps_transmitted (header : Header) (warps : CodedWarps) :
    resolveWarps { header with warps := warps.transmitted } primary =
      resolveWarps { header with warps } primary := by
  unfold resolveWarps
  refine ite_congr rfl (fun _ => rfl) fun _ => congrArg Vector.ofFnM (funext fun r => ?_)
  split
  · rfl
  · rw [CodedWarps.get_transmitted ‹_›, resolveWarp_transmitted]

/-- The code of a transmitted parameter is one that it can have, whatever the parameter is relative
    to. -/
theorem codes_of_codeParameter {warp : Warp} {highPrecision : Bool} {previous : WarpMatrix}
    {r : Nat} {i : Fin 6} {code : Int} (htransmits : warp.model.transmits i = true)
    (hcoded : codeParameter warp highPrecision previous r i = .ok code) :
    (WarpPrecision.of warp.model i highPrecision).Codes code := by
  unfold codeParameter at hcoded
  simp only [htransmits, Bool.not_true, Bool.false_eq_true, if_false] at hcoded
  rw [bind_eq_ok_iff] at hcoded
  obtain ⟨offset, -, hcoded⟩ := hcoded
  rw [bind_eq_ok_iff] at hcoded
  obtain ⟨scaled, -, hcoded⟩ := hcoded
  rw [guard_eq_ok_iff] at hcoded
  obtain ⟨hfits, hcoded⟩ := hcoded
  simp only [not_or, not_not, not_lt] at hfits
  obtain ⟨-, hlow, hhigh⟩ := hfits
  rw [bind_eq_ok_iff] at hcoded
  obtain ⟨reference, -, hcoded⟩ := hcoded
  obtain ⟨hnonneg, hlt⟩ :=
    Recentering.encodeSigned_mem hlow (by omega) (liftM_eq_ok_iff.mp hcoded)
  exact ⟨hnonneg, by omega⟩

theorem inRange_of_codeWarp {warp : Warp} {highPrecision : Bool} {previous : WarpMatrix} {r : Nat}
    {coded : CodedWarp} (hcoded : codeWarp warp highPrecision previous r = .ok coded) :
    coded.InRange highPrecision := by
  obtain ⟨hmodel, hcodes, -⟩ := codeWarp_eq_ok hcoded
  intro i htransmits
  rw [hmodel] at htransmits ⊢
  exact codes_of_codeParameter htransmits (hcodes i)

theorem inRange_of_codeWarps {warps : CodedWarps} (hinter : header.isIntra = false)
    (hcoded : codeWarps header primary target = .ok warps) (r : Fin 8) (hr : r.val ≠ 0) :
    (warps.get r).InRange header.allowHighPrecisionMv := by
  unfold codeWarps at hcoded
  rw [hinter, if_neg Bool.false_ne_true, ofFnM_eq_ok_iff] at hcoded
  have hwarp := hcoded r
  rw [if_neg hr] at hwarp
  exact inRange_of_codeWarp hwarp

end FrameState

namespace Header

/-- Reads the warps of a header, which only frames predicted from others have. -/
def readWarps (h : Header) : Read CodedWarps :=
  if h.isIntra then return Vector.replicate 8 {} else CodedWarps.read h.allowHighPrecisionMv

/-- The header with its loop filter part and its warps as they are read from bytes. -/
def reread (h : Header) (s : Sequence) (loopFilter warps : Bytes) : Outcome ReadError Header := do
  return {
    h with
    loopFilter := ← Read.ofBytes (LoopFilter.read s.color.monochrome) loopFilter
    warps := ← Read.ofBytes h.readWarps warps }

end Header

namespace FrameState

variable {s : Sequence} {slots : StateSlots} {header coded : Header} {target : FrameState}

/-- A coded header has bits for its warps. What is read of them has the same effect. -/
theorem exists_warpBits {warps : CodedWarps} {primary : Option FrameState}
    (hcoded : codeWarps header primary target = .ok warps) :
    ∃ word read, { header with warps }.warpBits = .ok word ∧
      Read.ofBytes header.readWarps (Bits.toBytes word) = .ok read ∧
      resolveWarps { header with warps := read } primary =
        resolveWarps { header with warps } primary := by
  unfold Header.warpBits Header.readWarps
  cases hintra : header.isIntra with
  | true =>
    refine ⟨[], Vector.replicate 8 {}, if_pos hintra, Read.Decodes.pure.ofBytes, ?_⟩
    exact (if_pos hintra).trans (if_pos hintra).symm
  | false =>
    obtain ⟨word, hword, hread⟩ := CodedWarps.exists_bits (inRange_of_codeWarps hintra hcoded)
    refine ⟨word, warps.transmitted, ?_, (hread 0).ofBytes, resolveWarps_transmitted header warps⟩
    exact (if_neg (ne_true_of_eq_false hintra)).trans hword

/-- What an encoder accepts survives the bitstream. Both parts of the coded header can be written,
    and what is read back of them resolves to the wanted state: in its warps, and in the deltas but
    for those that are too great for their seven bits. Only the rest of the header decides whether
    there is a state at all. -/
theorem inSync_of_written (hlevels : ∀ i, header.loopFilter.levels.get i < 64)
    (hsharpness : header.loopFilter.sharpness < 8) (hdeltas : target.deltas.FitByte)
    (hcode : code slots header target = .ok coded) :
    ∃ loopFilter warps back, coded.loopFilterBits s = .ok loopFilter ∧
      coded.warpBits = .ok warps ∧
      header.reread s (Bits.toBytes loopFilter) (Bits.toBytes warps) = .ok back ∧
      ((∃ state, derive s back slots = .ok state) ↔ OthersResolve s header slots) ∧
      ∀ state, derive s back slots = .ok state →
        state.deltaEnabled = target.deltaEnabled ∧
        (∀ i, (coded.loopFilter.refDeltas.get i).Fits →
          state.deltas.ref.get i = target.deltas.ref.get i) ∧
        (∀ i, (coded.loopFilter.modeDeltas.get i).Fits →
          state.deltas.mode.get i = target.deltas.mode.get i) ∧
        ∀ r : Fin 8, r.val ≠ 0 → state.warps.get r = target.warps.get r := by
  unfold code at hcode
  rw [bind_eq_ok_iff] at hcode
  obtain ⟨primary, hprimary, hcode⟩ := hcode
  rw [bind_eq_ok_iff] at hcode
  obtain ⟨lf, hlf, hcode⟩ := hcode
  rw [bind_eq_ok_iff] at hcode
  obtain ⟨warps, hwarps, hcode⟩ := hcode
  obtain rfl := Except.ok.inj hcode
  have hprimary := mapError_eq_ok_iff.mp hprimary
  have hgiven := deltasCoded_of_codeDeltas hlf
  have hwanted := resolveDeltas_of_codeDeltas rfl hlf
  obtain ⟨henabled, href, hmode⟩ :=
    resolveDeltas_transmitted primary s.color.monochrome hgiven.enabled
  rw [hwanted] at henabled href hmode
  obtain ⟨resolved, hresolved, htarget⟩ := resolveWarps_of_codeWarps (fun _ _ => rfl) hwarps
  obtain ⟨lfWord, hlfWord, hreadLf⟩ :=
    LoopFilter.exists_bits s.color.monochrome (hgiven.writable hlevels hsharpness hdeltas)
  obtain ⟨warpWord, read, hwarpWord, hreadWarps, hsame⟩ := exists_warpBits hwarps
  refine ⟨lfWord, warpWord,
    { header with loopFilter := lf.transmitted s.color.monochrome, warps := read }, hlfWord,
    hwarpWord, ?_, ?_, fun state hderive => ?_⟩
  · rw [Header.reread, (hreadLf 0).ofBytes, hreadWarps]
    rfl
  · rw [exists_derive_iff, othersResolve_with_iff]
    exact and_iff_right ⟨primary, resolved, hprimary, hsame.trans hresolved⟩
  · obtain ⟨primary', hprimary', hstateDeltas, hstateWarps⟩ := inherited_of_derive hderive
    obtain rfl : primary = primary' := Except.ok.inj (hprimary.symm.trans hprimary')
    obtain rfl : resolved = state.warps :=
      Except.ok.inj ((hsame.trans hresolved).symm.trans hstateWarps)
    dsimp only at hstateDeltas
    rw [hstateDeltas] at henabled href hmode
    exact ⟨henabled, href, hmode, htarget⟩

theorem inSync_of_written_turn :
    let slots : StateSlots := Slots.refresh .empty allSlots {}
    (∀ i, CodedFrame.turn.header.loopFilter.levels.get i < 64) ∧
      CodedFrame.turn.header.loopFilter.sharpness < 8 ∧ CodedFrame.turned.deltas.FitByte ∧
      code slots CodedFrame.turn.header CodedFrame.turned = .ok CodedFrame.turn.coded ∧
      ∃ loopFilter warps back, CodedFrame.turn.coded.loopFilterBits {} = .ok loopFilter ∧
        CodedFrame.turn.coded.warpBits = .ok warps ∧
        CodedFrame.turn.header.reread {} (Bits.toBytes loopFilter) (Bits.toBytes warps) =
          .ok back ∧
        ((∃ state, derive {} back slots = .ok state) ↔
          OthersResolve {} CodedFrame.turn.header slots) ∧
        ∀ state, derive {} back slots = .ok state →
          state.deltaEnabled = CodedFrame.turned.deltaEnabled ∧
          (∀ i, (CodedFrame.turn.coded.loopFilter.refDeltas.get i).Fits →
            state.deltas.ref.get i = CodedFrame.turned.deltas.ref.get i) ∧
          (∀ i, (CodedFrame.turn.coded.loopFilter.modeDeltas.get i).Fits →
            state.deltas.mode.get i = CodedFrame.turned.deltas.mode.get i) ∧
          ∀ r : Fin 8, r.val ≠ 0 → state.warps.get r = CodedFrame.turned.warps.get r := by
  intro slots
  have hlevels : ∀ i, CodedFrame.turn.header.loopFilter.levels.get i < 64 := by decide
  have hdeltas : CodedFrame.turned.deltas.FitByte := ⟨by decide, by decide⟩
  have hcode : code slots CodedFrame.turn.header CodedFrame.turned = .ok CodedFrame.turn.coded := by
    decide +kernel
  exact ⟨hlevels, by decide, hdeltas, hcode, inSync_of_written hlevels (by decide) hdeltas hcode⟩

/-- The wanted state is coded and written, but not resolved from what was written: the header takes
    its film grain from an empty slot. Without film grain it is resolved with another delta. -/
theorem not_inSync_of_written :
    let s : Sequence := { filmGrainParamsPresent := true }
    let opener : Header := { frameType := .interFrame, primaryRefFrame := primaryRefNone }
    let slots : StateSlots := Slots.refresh .empty 1 {}
    let header : Header := {
      frameType := .interFrame
      filmGrain := { applyGrain := true, filmGrainParamsRefIdx := 5 } }
    let wanted : FrameState := { deltas := { ref := #v[100, 0, 0, 0, -1, 0, -1, -1] } }
    let withDelta (value : Int) : LoopFilter := {
      deltaEnabled := true
      deltaUpdate := true
      refDeltas := #v[{ update := true, value }, {}, {}, {}, {}, {}, {}, {}] }
    let coded : Header := { header with loopFilter := withDelta 100 }
    let back : Header := { header with loopFilter := withDelta (-28) }
    derive s opener .empty = .ok {} ∧ code slots header wanted = .ok coded ∧
      (coded.loopFilterBits s).map Bits.toBytes = .ok [0x00, 0x01, 0xF2, 0x00, 0x00] ∧
      coded.warpBits.map Bits.toBytes = .ok [0x00] ∧
      header.reread s [0x00, 0x01, 0xF2, 0x00, 0x00] [0x00] = .ok back ∧
      derive s back slots = .error (.error (.grainEmpty 5)) ∧
      derive s { back with filmGrain := {} } slots =
        .ok { deltas := { ref := #v[-28, 0, 0, 0, -1, 0, -1, -1] } } := by
  decide +kernel

end FrameState

end Av1Frames
