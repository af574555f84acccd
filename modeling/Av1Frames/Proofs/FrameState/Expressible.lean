import Av1Frames.Proofs.FrameState.Derivation
import Av1Frames.Proofs.FrameState.WarpRange
import Av1Frames.Proofs.FrameState.Written
import Av1Frames.Proofs.GlobalMotion.Recoding

namespace Av1Frames

/-- The syntax elements of a header that say which deltas and warps a frame has. -/
structure StateSyntax where
  deltaEnabled : Bool := false
  deltaUpdate : Bool := false
  refDeltas : Vector CodedDelta 8 := Vector.replicate 8 {}
  modeDeltas : Vector CodedDelta 2 := Vector.replicate 2 {}
  warps : CodedWarps := Vector.replicate 8 {}
deriving DecidableEq, Repr

/-- The header with these syntax elements. -/
def Header.withSyntax (h : Header) (c : StateSyntax) : Header :=
  { h with
    loopFilter := {
      h.loopFilter with
      deltaEnabled := c.deltaEnabled
      deltaUpdate := c.deltaUpdate
      refDeltas := c.refDeltas
      modeDeltas := c.modeDeltas }
    warps := c.warps }

/-- The syntax elements of a header. -/
def Header.stateSyntax (h : Header) : StateSyntax where
  deltaEnabled := h.loopFilter.deltaEnabled
  deltaUpdate := h.loopFilter.deltaUpdate
  refDeltas := h.loopFilter.refDeltas
  modeDeltas := h.loopFilter.modeDeltas
  warps := h.warps

/-- With these syntax elements, which a header can have, the wanted state is resolved from it. -/
structure StateSyntax.Expresses (c : StateSyntax) (s : Sequence) (slots : StateSlots)
    (header : Header) (target : FrameState) : Prop where
  /-- Deltas are only given while they are enabled. -/
  enabled : c.deltaUpdate = true → c.deltaEnabled = true
  /-- The codes of transmitted parameters are ones that they can have. -/
  codes : header.isIntra = false → (header.withSyntax c).WarpsInRange
  resolves : ∃ state, FrameState.derive s (header.withSyntax c) slots = .ok state ∧
    target.InSync state

namespace FrameState

variable {s : Sequence} {slots : StateSlots} {header coded : Header} {target : FrameState}
  {primary : Option FrameState} {c : StateSyntax}

theorem InSync.refl (state : FrameState) : state.InSync state where
  deltaEnabled := rfl
  deltas := rfl
  warps _ _ := rfl

theorem slots_inSync_refl (slots : StateSlots) : slots.InSync slots := by
  intro i
  cases slots.get i with
  | none => exact .none
  | some state => exact .some (InSync.refl state)

/-- No delta is given while the wanted ones are in force. -/
theorem forTargets_any_update {n : Nat} (kept : Vector CodedDelta n) (values : Vector Int n) :
    (CodedDelta.forTargets kept values values).any (·.update) = false := by
  refine Vector.any_eq_false.mpr fun i hi => ?_
  unfold CodedDelta.forTargets CodedDelta.forTarget
  rw [Vector.getElem_ofFn, if_neg (not_not_intro rfl)]
  exact Bool.false_ne_true

/-- Deltas that a header resolves to can be coded. -/
theorem exists_codeDeltas (kept : LoopFilter) {lf : LoopFilter}
    (henabled : lf.deltaUpdate = true → lf.deltaEnabled = true)
    (hresolve : resolveDeltas lf primary = (target.deltaEnabled, target.deltas)) :
    ∃ coded, codeDeltas kept primary target = .ok coded := by
  cases primary with
  | none =>
    obtain ⟨htarget, hdeltas⟩ := Prod.mk.inj hresolve
    unfold codeDeltas
    exact ⟨_, if_neg (by rw [← htarget, ← hdeltas]; simp)⟩
  | some primary =>
    obtain ⟨htarget, hdeltas⟩ := Prod.mk.inj hresolve
    unfold codeDeltas
    refine ⟨_, if_neg fun hrefused => ?_⟩
    rw [Bool.and_eq_true, Bool.not_eq_true', ← htarget] at hrefused
    obtain ⟨hupdate, hdisabled⟩ := hrefused
    have hkept : lf.deltaUpdate = false := by
      by_contra hgiven
      exact absurd (henabled (by simpa using hgiven)) (by rw [hdisabled]; decide)
    unfold LoopFilter.apply at hdeltas
    rw [hkept, if_neg Bool.false_ne_true] at hdeltas
    rw [← hdeltas, forTargets_any_update, forTargets_any_update] at hupdate
    exact Bool.false_ne_true hupdate

/-- Warps that a header resolves to can be coded, and only in the way in which the header has
    them. -/
theorem exists_codeWarps {warps : CodedWarps} {resolved : Warps}
    (hcodes : header.isIntra = false → { header with warps }.WarpsInRange)
    (hresolve : resolveWarps { header with warps } primary = .ok resolved)
    (htarget : ∀ r : Fin 8, r.val ≠ 0 → target.warps.get r = resolved.get r) :
    ∃ coded, codeWarps header primary target = .ok coded ∧ (header.isIntra = false →
      ∀ r : Fin 8, r.val ≠ 0 → coded.get r = (warps.get r).transmitted) := by
  unfold codeWarps
  unfold resolveWarps at hresolve
  cases hintra : header.isIntra with
  | true =>
    obtain rfl := Except.ok.inj ((if_pos hintra).symm.trans hresolve)
    have hnone : target.warps.toList.tail.any (· ≠ {}) = false := by
      refine List.any_eq_false.mpr fun warp hwarp => ?_
      obtain ⟨r, hr, rfl⟩ := mem_toList_tail_iff.mp hwarp
      rw [htarget r hr, get_replicate_default]
      decide
    refine ⟨Vector.replicate 8 {}, ?_, nofun⟩
    rw [hnone]
    rfl
  | false =>
    have hresolve := (if_neg (ne_true_of_eq_false hintra)).symm.trans hresolve
    have hwarps := ofFnM_eq_ok_iff.mp hresolve
    refine ⟨Vector.ofFn fun r => if r.val = 0 then header.warps.get r else
      (warps.get r).transmitted, ?_, fun _ r hr => ?_⟩
    · rw [if_neg Bool.false_ne_true]
      refine ofFnM_of_eq_ok fun r => ?_
      by_cases hr : r.val = 0
      · rw [if_pos hr, if_pos hr]
        rfl
      · have hwarp := hwarps r
        rw [if_neg hr, ← htarget r hr] at hwarp
        rw [if_neg hr, if_neg hr]
        exact codeWarp_of_resolveWarp (hcodes hintra r hr) hwarp
    · rw [get_eq_getElem, Vector.getElem_ofFn, if_neg hr]

/-- A header that expresses a state can be coded for it, and its warps are coded as they are. -/
theorem exists_code_of_expresses (hexpresses : c.Expresses s slots header target) :
    ∃ coded, code slots header target = .ok coded ∧ (header.isIntra = false →
      ∀ r : Fin 8, r.val ≠ 0 → coded.warps.get r = (c.warps.get r).transmitted) := by
  obtain ⟨state, hderive, hsync⟩ := hexpresses.resolves
  obtain ⟨primary, hprimary, hdeltas, hwarps⟩ := inherited_of_derive hderive
  rw [← hsync.deltaEnabled, ← hsync.deltas] at hdeltas
  obtain ⟨lf, hlf⟩ := exists_codeDeltas header.loopFilter hexpresses.enabled hdeltas
  obtain ⟨coded, hcoded, hunique⟩ := exists_codeWarps hexpresses.codes hwarps hsync.warps
  refine ⟨{ header with loopFilter := lf, warps := coded }, ?_, hunique⟩
  refine bind_eq_ok_iff.mpr ⟨primary, mapError_eq_ok_iff.mpr hprimary, ?_⟩
  exact bind_eq_ok_iff.mpr ⟨lf, hlf, bind_eq_ok_iff.mpr ⟨coded, hcoded, rfl⟩⟩

/-- A header that was coded for a state expresses it, unless the rest of the state cannot be
    resolved. -/
theorem expresses_of_code (hcode : code slots header target = .ok coded)
    (hothers : OthersResolve s header slots) :
    coded.stateSyntax.Expresses s slots header target := by
  have hinSync {state : FrameState} (hderive : derive s coded slots = .ok state) :
      target.InSync state := derive_inSync (slots_inSync_refl slots) hcode hderive
  unfold code at hcode
  rw [bind_eq_ok_iff] at hcode
  obtain ⟨primary, hprimary, hcode⟩ := hcode
  rw [bind_eq_ok_iff] at hcode
  obtain ⟨lf, hlf, hcode⟩ := hcode
  rw [bind_eq_ok_iff] at hcode
  obtain ⟨warps, hwarps, hcode⟩ := hcode
  obtain rfl := Except.ok.inj hcode
  have hgiven := deltasCoded_of_codeDeltas hlf
  have hsame : header.withSyntax (Header.stateSyntax { header with loopFilter := lf, warps }) =
      { header with loopFilter := lf, warps } := by
    obtain ⟨levels, sharpness, deltaEnabled, deltaUpdate, refDeltas, modeDeltas⟩ := lf
    obtain rfl := hgiven.levels
    obtain rfl := hgiven.sharpness
    rfl
  refine ⟨hgiven.enabled, fun hinter => ?_, ?_⟩
  · have hcodes := inRange_of_codeWarps hinter hwarps
    rw [hsame]
    exact hcodes
  · rw [hsame]
    obtain ⟨resolved, hresolved, -⟩ := resolveWarps_of_codeWarps (fun _ _ => rfl) hwarps
    obtain ⟨state, hderive⟩ :
        ∃ state, derive s { header with loopFilter := lf, warps } slots = .ok state :=
      exists_derive_iff.mpr ⟨⟨primary, resolved, mapError_eq_ok_iff.mp hprimary, hresolved⟩,
        (othersResolve_with_iff lf warps).mpr hothers⟩
    exact ⟨state, hderive, hinSync hderive⟩

/-- The states that can be coded are the ones that some header expresses, as far as the order hints
    can be compared. And then the warps are coded in the only way there is. -/
theorem expressible_iff (hgrain : header.filmGrain.applyGrain = false) :
    ((∃ coded, code slots header target = .ok coded) ∧ HintsResolve s header slots ↔
      ∃ c : StateSyntax, c.Expresses s slots header target) ∧
    ∀ (coded : Header) (c : StateSyntax), code slots header target = .ok coded →
      c.Expresses s slots header target → header.isIntra = false →
        ∀ r : Fin 8, r.val ≠ 0 → coded.warps.get r = (c.warps.get r).transmitted := by
  refine ⟨⟨?_, ?_⟩, fun coded c hcode hexpresses => ?_⟩
  · rintro ⟨⟨coded, hcode⟩, hhints⟩
    exact ⟨_, expresses_of_code hcode ((othersResolve_iff_of_no_grain hgrain).mpr hhints)⟩
  · rintro ⟨c, hexpresses⟩
    obtain ⟨coded, hcode, -⟩ := exists_code_of_expresses hexpresses
    obtain ⟨state, hderive, -⟩ := hexpresses.resolves
    have hothers := othersResolve_of_derive hderive
    exact ⟨⟨coded, hcode⟩, hothers.signBias, hothers.skipMode⟩
  · obtain ⟨coded', hcode', hunique⟩ := exists_code_of_expresses hexpresses
    obtain rfl : coded' = coded := Except.ok.inj (hcode'.symm.trans hcode)
    exact hunique

theorem expressible_turn :
    let slots : StateSlots := Slots.refresh .empty allSlots {}
    let header := CodedFrame.turn.header
    header.filmGrain.applyGrain = false ∧
      (∃ c : StateSyntax, c.Expresses {} slots header CodedFrame.turned) ∧
      ∀ (coded : Header) (c : StateSyntax), code slots header CodedFrame.turned = .ok coded →
        c.Expresses {} slots header CodedFrame.turned → header.isIntra = false →
          ∀ r : Fin 8, r.val ≠ 0 → coded.warps.get r = (c.warps.get r).transmitted := by
  intro slots header
  have hcode : code slots header CodedFrame.turned = .ok CodedFrame.turn.coded := by
    decide +kernel
  have hsignBias : resolveSignBias {} header slots = .ok (Vector.replicate 8 false) := by
    decide +kernel
  have hskipMode : resolveSkipMode {} header slots = .ok none := by decide +kernel
  have hhints : HintsResolve {} header slots := ⟨fun _ => ⟨_, hsignBias⟩, fun _ => ⟨_, hskipMode⟩⟩
  have hgrain : header.filmGrain.applyGrain = false := rfl
  exact ⟨hgrain, (expressible_iff hgrain).1.mp ⟨⟨_, hcode⟩, hhints⟩, (expressible_iff hgrain).2⟩

/-- A frame whose order hint cannot be compared with that of its references can be coded, but no
    header expresses its state. -/
theorem not_expressible_with_far_hint :
    let s : Sequence := { enableOrderHint := true, orderHintBits := 8 }
    let key : Header := { primaryRefFrame := primaryRefNone, orderHint := 1 }
    let slots : StateSlots := Slots.refresh .empty allSlots { orderHint := 1 }
    let header : Header := {
      frameType := .interFrame
      primaryRefFrame := primaryRefNone
      orderHint := 0x80000000 }
    derive s key .empty = .ok { orderHint := 1 } ∧
      code slots header {} = .ok { header with loopFilter := { deltaEnabled := true } } ∧
      ¬ ∃ c : StateSyntax, c.Expresses s slots header {} := by
  intro s key slots header
  refine ⟨by decide +kernel, by decide +kernel, ?_⟩
  rintro ⟨c, hexpresses⟩
  obtain ⟨state, hderive, -⟩ := hexpresses.resolves
  obtain ⟨signBias, hsignBias⟩ := (othersResolve_of_derive hderive).signBias rfl
  have hfault : resolveSignBias s (header.withSyntax c) slots = .error .overflow := by
    change resolveSignBias s header slots = .error .overflow
    decide +kernel
  exact nomatch hfault.symm.trans hsignBias

end FrameState

end Av1Frames
