import Av1Frames.Proofs.GlobalMotion.Coding

namespace Av1Frames

namespace CodedDelta

variable {n : Nat}

theorem apply_forTargets (kept : Vector CodedDelta n) (target previous : Vector Int n) :
    apply (forTargets kept target previous) previous = target := by
  refine Vector.ext fun i hi => ?_
  unfold apply forTargets forTarget
  rw [Vector.getElem_zipWith, Vector.getElem_ofFn]
  by_cases hsame : target.get ⟨i, hi⟩ = previous.get ⟨i, hi⟩
  · rw [if_neg (not_not.mpr hsame)]
    exact hsame.symm
  · rw [if_pos hsame]
    rfl

/-- Deltas of which none is given are the previous ones. -/
theorem eq_of_forTargets_none {kept : Vector CodedDelta n} {target previous : Vector Int n}
    (hnone : (forTargets kept target previous).any (·.update) = false) : target = previous := by
  refine Vector.ext fun i hi => ?_
  have hentry := Vector.any_eq_false.mp hnone i hi
  by_contra hdiffers
  have hget : target.get ⟨i, hi⟩ ≠ previous.get ⟨i, hi⟩ := hdiffers
  apply hentry
  unfold forTargets forTarget
  rw [Vector.getElem_ofFn, if_pos hget]

end CodedDelta

namespace FrameState

/-- The coded deltas resolve to the wanted ones, against any state with the deltas that they were
    coded against. -/
theorem resolveDeltas_of_codeDeltas {kept lf : LoopFilter} {primary resolved : Option FrameState}
    {target : FrameState} (hprimary : primary.map deltas = resolved.map deltas)
    (hcoded : codeDeltas kept primary target = .ok lf) :
    resolveDeltas lf resolved = (target.deltaEnabled, target.deltas) := by
  cases primary with
  | none =>
    obtain rfl : resolved = none := Option.map_eq_none_iff.mp hprimary.symm
    unfold codeDeltas at hcoded
    by_cases hreset : target.deltaEnabled ≠ true ∨ target.deltas ≠ {}
    · simp only [if_pos hreset, fail_ne_ok] at hcoded
    · simp only [not_or, not_not] at hreset
      rw [hreset.1, hreset.2]
      rfl
  | some primary =>
    obtain ⟨resolved, rfl, hdeltas⟩ := Option.map_eq_some_iff.mp hprimary.symm
    simp only [codeDeltas] at hcoded
    split at hcoded
    · exact absurd hcoded fail_ne_ok
    · obtain rfl := Except.ok.inj hcoded
      simp only [resolveDeltas, LoopFilter.apply, hdeltas]
      split
      · rw [CodedDelta.apply_forTargets, CodedDelta.apply_forTargets]
      · rename_i hkept
        rw [Bool.not_eq_true, Bool.or_eq_false_iff] at hkept
        have href := CodedDelta.eq_of_forTargets_none hkept.1
        have hmode := CodedDelta.eq_of_forTargets_none hkept.2
        rw [show target.deltas = primary.deltas from by
          cases htarget : target.deltas; cases hprevious : primary.deltas; simp_all]

/-- The coded warps resolve to the wanted ones, except for the one of the frame itself, which is
    never resolved. Only the matrices of the warps that they were coded against count. -/
theorem resolveWarps_of_codeWarps {header : Header} {primary resolved : Option FrameState}
    {target : FrameState} {coded : CodedWarps}
    (hprimary : ∀ r : Fin 8, r.val ≠ 0 → ((previousWarps primary).get r).matrix =
      ((previousWarps resolved).get r).matrix)
    (hcoded : codeWarps header primary target = .ok coded) :
    ∃ warps, resolveWarps { header with warps := coded } resolved = .ok warps ∧
      ∀ r : Fin 8, r.val ≠ 0 → warps.get r = target.warps.get r := by
  unfold codeWarps at hcoded
  by_cases hintra : header.isIntra
  · rw [if_pos hintra] at hcoded
    by_cases hwarps : target.warps.toList.tail.any (· ≠ {}) = true
    · rw [if_pos hwarps] at hcoded
      exact absurd hcoded fail_ne_ok
    · refine ⟨Vector.replicate 8 {}, if_pos hintra, fun r hr => ?_⟩
      simp only [List.any_eq_true, not_exists, not_and, decide_eq_true_eq, not_not] at hwarps
      rw [hwarps _ (mem_toList_tail_iff.mpr ⟨r, hr, rfl⟩), get_eq_getElem, Vector.getElem_replicate]
  · rw [if_neg hintra, ofFnM_eq_ok_iff] at hcoded
    refine ⟨Vector.ofFn fun r => if r.val = 0 then {} else target.warps.get r, ?_, fun r hr => ?_⟩
    · refine (if_neg hintra).trans (ofFnM_eq_ok_iff.mpr fun r => ?_)
      by_cases hr : r.val = 0
      · simp only [if_pos hr, get_eq_getElem, Vector.getElem_ofFn]
        rfl
      · have hwarp := hcoded r
        rw [if_neg hr, hprimary r hr] at hwarp
        simp only [if_neg hr, get_eq_getElem, Vector.getElem_ofFn]
        exact resolveWarp_of_codeWarp hwarp
    · simp only [get_eq_getElem, Vector.getElem_ofFn, if_neg hr]

end FrameState

end Av1Frames
