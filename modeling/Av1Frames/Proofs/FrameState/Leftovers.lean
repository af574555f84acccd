import Av1Frames.Proofs.Checked.TwoRuns
import Av1Frames.Proofs.FrameState.Expressible

namespace Av1Frames

open Checked

namespace CodedDelta

/-- What a reader sees of a delta. -/
def given (d : CodedDelta) : Option Int := if d.update then some d.value else none

theorem bits_of_given {d d' : CodedDelta} (h : d.given = d'.given) : d.bits = d'.bits := by
  obtain ⟨update, value⟩ := d
  obtain ⟨update', value'⟩ := d'
  cases update <;> cases update' <;> simp_all [given, bits]

theorem listBits_of_given {l l' : List CodedDelta} (h : l.map given = l'.map given) :
    listBits l = listBits l' := by
  induction l generalizing l' with
  | nil =>
    obtain rfl := List.map_eq_nil_iff.mp h.symm
    rfl
  | cons d l ih =>
    obtain ⟨d', l', rfl, hd, hl⟩ := List.map_eq_cons_iff.mp h.symm
    rw [listBits, listBits, bits_of_given hd.symm, ih hl.symm]

variable {n : Nat} {coded coded' : Vector CodedDelta n}

theorem apply_of_given (h : coded.map given = coded'.map given) (previous : Vector Int n) :
    apply coded previous = apply coded' previous := by
  have happly (coded : Vector CodedDelta n) : apply coded previous =
      Vector.zipWith (fun d v => d.getD v) (coded.map given) previous := by
    apply Vector.ext
    intro i hi
    unfold apply
    rw [Vector.getElem_zipWith, Vector.getElem_zipWith, Vector.getElem_map, given]
    split <;> rfl
  rw [happly, happly, h]

/-- Only what is wanted is given, whatever was there. -/
theorem given_forTarget (kept : CodedDelta) (target previous : Int) :
    (forTarget kept target previous).given = if target ≠ previous then some target else none := by
  unfold forTarget
  split <;> rfl

theorem map_given_forTargets (kept kept' : Vector CodedDelta n) (target previous : Vector Int n) :
    (forTargets kept target previous).map given = (forTargets kept' target previous).map given := by
  apply Vector.ext
  intro i hi
  unfold forTargets
  rw [Vector.getElem_map, Vector.getElem_map, Vector.getElem_ofFn, Vector.getElem_ofFn,
    given_forTarget, given_forTarget]

theorem any_update_of_given (h : coded.map given = coded'.map given) :
    coded.any (·.update) = coded'.any (·.update) := by
  have hany (coded : Vector CodedDelta n) :
      coded.any (·.update) = (coded.map given).any (·.isSome) := by
    rw [Vector.any_map]
    congr 1
    funext d
    rw [Function.comp_apply, given]
    split <;> simp_all
  rw [hany, hany, h]

theorem map_given_cleared (kept kept' : Vector CodedDelta n) :
    (kept.map ({ · with update := false })).map given =
      (kept'.map ({ · with update := false })).map given := by
  apply Vector.ext
  intro i hi
  simp only [Vector.getElem_map]
  rfl

end CodedDelta

/-- A reader sees no difference between two loop filter parts. -/
structure LoopFilter.Alike (lf lf' : LoopFilter) : Prop where
  levels : lf.levels = lf'.levels
  sharpness : lf.sharpness = lf'.sharpness
  deltaEnabled : lf.deltaEnabled = lf'.deltaEnabled
  deltaUpdate : lf.deltaUpdate = lf'.deltaUpdate
  refDeltas : lf.refDeltas.map CodedDelta.given = lf'.refDeltas.map CodedDelta.given
  modeDeltas : lf.modeDeltas.map CodedDelta.given = lf'.modeDeltas.map CodedDelta.given

namespace LoopFilter.Alike

variable {lf lf' : LoopFilter}

theorem bits_eq (h : lf.Alike lf') (monochrome : Bool) :
    lf.bits monochrome = lf'.bits monochrome := by
  have hlist {n : Nat} {coded coded' : Vector CodedDelta n}
      (h : coded.map CodedDelta.given = coded'.map CodedDelta.given) :
      CodedDelta.listBits coded.toList = CodedDelta.listBits coded'.toList := by
    apply CodedDelta.listBits_of_given
    rw [← Vector.toList_map, ← Vector.toList_map, h]
  have hlevels : lf.levelBits monochrome = lf'.levelBits monochrome := by
    rw [levelBits, levelBits, h.levels]
  have hdeltas : lf.deltaBits = lf'.deltaBits := by
    rw [deltaBits, deltaBits, h.deltaEnabled, h.deltaUpdate, hlist h.refDeltas, hlist h.modeDeltas]
  rw [bits, bits, hlevels, h.sharpness, hdeltas]

theorem apply_eq (h : lf.Alike lf') (previous : FilterDeltas) :
    lf.apply previous = lf'.apply previous := by
  rw [apply, apply, h.deltaUpdate, CodedDelta.apply_of_given h.refDeltas,
    CodedDelta.apply_of_given h.modeDeltas]

end LoopFilter.Alike

/-- Two headers have the same warps, except for the one of the frame itself. -/
def CodedWarps.Alike (warps warps' : CodedWarps) : Prop :=
  ∀ r : Fin 8, r.val ≠ 0 → warps.get r = warps'.get r

theorem CodedWarps.Alike.bits_eq {warps warps' : CodedWarps} (h : warps.Alike warps')
    (highPrecision : Bool) : warps.bits highPrecision = warps'.bits highPrecision := by
  have htail : warps.toList.tail = warps'.toList.tail := by
    apply List.ext_getElem
    · simp
    · intro i hi _
      have hlt : i + 1 < 8 := by
        simp only [List.length_tail, Vector.length_toList] at hi
        omega
      simpa [get_eq_getElem] using h ⟨i + 1, hlt⟩ (Nat.succ_ne_zero i)
  rw [bits, bits, htail]

/-- Readers of two headers see the same deltas and warps, in the bits as well as in the state that
    is resolved. -/
structure Header.ReadAlike (coded coded' : Header) : Prop where
  loopFilterBits : ∀ s : Sequence, coded.loopFilterBits s = coded'.loopFilterBits s
  warpBits : coded.warpBits = coded'.warpBits
  derive : ∀ (s : Sequence) (references : StateSlots),
    FrameState.derive s coded references = FrameState.derive s coded' references

namespace FrameState

variable {primary : Option FrameState} {target : FrameState} {header header' : Header}
  {lf lf' : LoopFilter}

theorem resolveDeltas_of_alike (h : lf.Alike lf') (primary : Option FrameState) :
    resolveDeltas lf primary = resolveDeltas lf' primary := by
  cases primary with
  | none => rfl
  | some primary => rw [resolveDeltas, resolveDeltas, h.deltaEnabled, h.apply_eq]

/-- The deltas of both runs are coded alike, or refused for the same reason. -/
theorem codeDeltas_alike {kept kept' : LoopFilter} (hlevels : kept.levels = kept'.levels)
    (hsharpness : kept.sharpness = kept'.sharpness) :
    Outcome.Rel LoopFilter.Alike (codeDeltas kept primary target)
      (codeDeltas kept' primary target) := by
  cases primary with
  | none =>
    unfold codeDeltas
    dsimp only
    split
    · exact .fail
    · exact .ok ⟨hlevels, hsharpness, rfl, rfl, CodedDelta.map_given_cleared _ _,
        CodedDelta.map_given_cleared _ _⟩
  | some primary =>
    have href := CodedDelta.map_given_forTargets kept.refDeltas kept'.refDeltas target.deltas.ref
      primary.deltas.ref
    have hmode := CodedDelta.map_given_forTargets kept.modeDeltas kept'.modeDeltas
      target.deltas.mode primary.deltas.mode
    unfold codeDeltas
    dsimp only
    rw [CodedDelta.any_update_of_given href, CodedDelta.any_update_of_given hmode]
    split
    · exact .fail
    · exact .ok ⟨hlevels, hsharpness, rfl, rfl, href, hmode⟩

/-- The warps of all references are coded in the same way, or refused for the same reason. -/
theorem codeWarps_alike (hintra : header.isIntra = header'.isIntra)
    (hprecision : header.allowHighPrecisionMv = header'.allowHighPrecisionMv) :
    Outcome.Rel CodedWarps.Alike (codeWarps header primary target)
      (codeWarps header' primary target) := by
  unfold codeWarps
  rw [hintra, hprecision]
  split
  · split
    · exact .fail
    · exact .ok fun _ _ => rfl
  · apply Outcome.Rel.ofFnM (R := fun r warp warp' => r.val ≠ 0 → warp = warp')
    intro r
    by_cases hr : r.val = 0
    · -- The warp of the frame itself is kept, and need not be the same in both headers.
      rw [if_pos hr, if_pos hr]
      exact .ok fun hne => absurd hr hne
    · rw [if_neg hr, if_neg hr]
      exact .of_eq rfl fun _ _ => rfl

theorem derive_of_alike {warps warps' : CodedWarps} (hlf : lf.Alike lf')
    (hwarps : warps.Alike warps') (s : Sequence) (header : Header) (references : StateSlots) :
    derive s { header with loopFilter := lf, warps } references =
      derive s { header with loopFilter := lf', warps := warps' } references := by
  have hresolve (primary : Option FrameState) :
      resolveWarps { header with loopFilter := lf, warps } primary =
        resolveWarps { header with loopFilter := lf', warps := warps' } primary :=
    resolveWarps_congr rfl rfl hwarps fun _ _ => rfl
  unfold derive
  simp only [resolveDeltas_of_alike hlf, hresolve]
  rfl

/-- Two headers that only differ in what a state is coded into are coded alike: with the same
    failure, or so that no reader sees a difference. -/
theorem code_withSyntax (slots : StateSlots) (header : Header) (c c' : StateSyntax)
    (target : FrameState) :
    Outcome.Rel Header.ReadAlike (code slots (header.withSyntax c) target)
      (code slots (header.withSyntax c') target) := by
  unfold code
  apply Outcome.Rel.bind (R := Eq)
  · exact .of_eq rfl fun _ => rfl
  -- The primary reference is the same in both runs, and from here on each step only uses of the
  -- header what no state is coded into.
  rintro primary _ rfl
  have hdeltas : Outcome.Rel LoopFilter.Alike
      (codeDeltas (header.withSyntax c).loopFilter primary target)
      (codeDeltas (header.withSyntax c').loopFilter primary target) := codeDeltas_alike rfl rfl
  have hwarps : Outcome.Rel CodedWarps.Alike (codeWarps (header.withSyntax c) primary target)
      (codeWarps (header.withSyntax c') primary target) := codeWarps_alike rfl rfl
  apply hdeltas.bind
  intro lf lf' hlf
  apply hwarps.bind
  intro warps warps' hwarps
  apply Outcome.Rel.ok
  refine ⟨fun s => hlf.bits_eq _, ?_, fun s references => ?_⟩
  · unfold Header.warpBits
    rw [hwarps.bits_eq]
    rfl
  · exact derive_of_alike hlf hwarps s header references

/-- A value that was there before stays in the coded header, but is not given any more. -/
example :
    let before : Header := { primaryRefFrame := primaryRefNone }
    let left : StateSyntax := { refDeltas := Vector.replicate 8 { update := true, value := 5 } }
    (code .empty (before.withSyntax left) {}).map (·.loopFilter.refDeltas) =
      .ok (Vector.replicate 8 { update := false, value := 5 }) := by
  decide +kernel

end FrameState

end Av1Frames
