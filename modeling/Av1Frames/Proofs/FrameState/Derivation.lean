import Av1Frames.Proofs.FrameState.Tracking

namespace Av1Frames.FrameState

/-- What is resolved from order hints, which only frames predicted from others have, can be: no
    difference of them overflows. -/
structure HintsResolve (s : Sequence) (header : Header) (slots : StateSlots) : Prop where
  signBias : header.isIntra = false → ∃ signBias, resolveSignBias s header slots = .ok signBias
  skipMode : header.isIntra = false → ∃ frames, resolveSkipMode s header slots = .ok frames

/-- The parts of the state that are neither deltas nor warps can be resolved: those from order
    hints, and the film grain, which is there if it is to be taken from another frame. -/
structure OthersResolve (s : Sequence) (header : Header) (slots : StateSlots) : Prop
    extends HintsResolve s header slots where
  grain : ∃ grain, resolveGrain s header slots = .ok grain

variable {s : Sequence} {header header' : Header} {slots : StateSlots}
  {primary primary' : Option FrameState}

/-- Of the coded warps those of the references count, and of the previous ones their matrices. -/
theorem resolveWarps_congr (hintra : header.isIntra = header'.isIntra)
    (hprecision : header.allowHighPrecisionMv = header'.allowHighPrecisionMv)
    (hcoded : ∀ r : Fin 8, r.val ≠ 0 → header.warps.get r = header'.warps.get r)
    (hprevious : ∀ r : Fin 8, r.val ≠ 0 →
      ((previousWarps primary).get r).matrix = ((previousWarps primary').get r).matrix) :
    resolveWarps header primary = resolveWarps header' primary' := by
  unfold resolveWarps
  rw [hintra, hprecision]
  congr 2
  funext r
  by_cases hr : r.val = 0
  · rw [if_pos hr, if_pos hr]
  · rw [if_neg hr, if_neg hr, hcoded r hr, hprevious r hr]

/-- The order hint of a reference is that of the frame in its slot. -/
theorem referenceHint?_eq_bind (i : Nat) : referenceHint? header slots (i + 1) =
    header.refFrameIdx[i]?.bind fun slot => (slots.content? slot).map (·.orderHint) := by
  simp only [referenceHint?, Option.map_eq_bind]
  rfl

/-- These parts do not depend on the loop filter part and the warps of the header. -/
theorem othersResolve_with_iff (loopFilter : LoopFilter) (warps : CodedWarps) :
    OthersResolve s { header with loopFilter, warps } slots ↔ OthersResolve s header slots :=
  ⟨fun h => ⟨⟨h.signBias, h.skipMode⟩, h.grain⟩, fun h => ⟨⟨h.signBias, h.skipMode⟩, h.grain⟩⟩

/-- Without film grain only order hints count. -/
theorem othersResolve_iff_of_no_grain (hgrain : header.filmGrain.applyGrain = false) :
    OthersResolve s header slots ↔ HintsResolve s header slots := by
  have hnone : resolveGrain s header slots = .ok {} := by
    unfold resolveGrain
    exact if_pos (by rw [hgrain]; simp)
  exact ⟨fun h => h.toHintsResolve, fun h => ⟨h, _, hnone⟩⟩

theorem othersResolve_of_derive {state : FrameState} (hderive : derive s header slots = .ok state) :
    OthersResolve s header slots := by
  obtain ⟨_, hresolved⟩ := exists_resolvedFrom_of_derive hderive
  exact ⟨⟨fun h => ⟨_, hresolved.signBias h⟩, fun h => ⟨_, hresolved.skipMode h⟩⟩,
    _, hresolved.grain⟩

/-- A state can be resolved just if what it inherits can be and the rest can be. -/
theorem exists_derive_iff :
    (∃ state, derive s header slots = .ok state) ↔
      (∃ primary warps, primary? header slots = .ok primary ∧
        resolveWarps header primary = .ok warps) ∧ OthersResolve s header slots := by
  constructor
  · rintro ⟨state, hderive⟩
    obtain ⟨primary, hprimary, -, hwarps⟩ := inherited_of_derive hderive
    exact ⟨⟨primary, state.warps, hprimary, hwarps⟩, othersResolve_of_derive hderive⟩
  · rintro ⟨⟨primary, warps, hprimary, hwarps⟩, ⟨hsignBias, hskipMode⟩, grain, hgrain⟩
    have hprimary : (primary? header slots).mapError StateError.primary = .ok primary :=
      mapError_eq_ok_iff.mpr hprimary
    unfold derive
    rw [hprimary, ok_bind, hwarps, hgrain]
    generalize resolveDeltas header.loopFilter primary = deltas
    obtain ⟨deltaEnabled, deltas⟩ := deltas
    cases hintra : header.isIntra with
    | true => exact ⟨_, rfl⟩
    | false =>
      obtain ⟨signBias, hsignBias⟩ := hsignBias hintra
      obtain ⟨frames, hframes⟩ := hskipMode hintra
      rw [hsignBias, hframes]
      exact ⟨_, rfl⟩

end Av1Frames.FrameState
