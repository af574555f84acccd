import Av1Frames.Proofs.FrameState.Derivation

namespace Av1Frames

open Checked

/-- Two states leave the same deltas and matrices to a frame that inherits from them. -/
structure FrameState.InheritedAlike (a b : FrameState) : Prop where
  deltas : a.deltas = b.deltas
  matrix : ∀ r : Fin 8, r.val ≠ 0 → (a.warps.get r).matrix = (b.warps.get r).matrix

/-- Slots agree in what a header refers to: what is inherited from the primary reference, the order
    hints of the references, and the film grain. A slot that is empty on one side is so on both. -/
structure StateSlots.AgreeFor (header : Header) (a b : StateSlots) : Prop where
  primary : header.primaryRefFrame ≠ primaryRefNone →
    ∀ slot, header.refFrameIdx[header.primaryRefFrame]? = some slot →
      Option.Rel FrameState.InheritedAlike (a.content? slot) (b.content? slot)
  hints : header.isIntra = false → ∀ slot ∈ header.refFrameIdx,
    (a.content? slot).map (·.orderHint) = (b.content? slot).map (·.orderHint)
  grain : (a.content? header.filmGrain.filmGrainParamsRefIdx).map (·.filmGrain) =
    (b.content? header.filmGrain.filmGrainParamsRefIdx).map (·.filmGrain)

namespace FrameState

variable {s : Sequence} {header : Header} {a b : StateSlots} {primary primary' : Option FrameState}

theorem resolveDeltas_of_alike_primary (h : Option.Rel InheritedAlike primary primary')
    (lf : LoopFilter) : resolveDeltas lf primary = resolveDeltas lf primary' := by
  cases h with
  | none => rfl
  | some h => rw [resolveDeltas, resolveDeltas, h.deltas]

theorem resolveWarps_of_alike_primary (h : Option.Rel InheritedAlike primary primary')
    (header : Header) : resolveWarps header primary = resolveWarps header primary' := by
  apply resolveWarps_congr rfl rfl fun _ _ => rfl
  intro r hr
  cases h with
  | none => rfl
  | some h => exact h.matrix r hr

theorem referenceHint?_of_agreeFor (h : a.AgreeFor header b) (hinter : header.isIntra = false) :
    referenceHint? header a = referenceHint? header b := by
  funext r
  cases r with
  | zero => rfl
  | succ i =>
    rw [referenceHint?_eq_bind, referenceHint?_eq_bind]
    cases hslot : header.refFrameIdx[i]? with
    | none => rfl
    | some slot => exact h.hints hinter slot (Vector.mem_of_getElem? hslot)

theorem resolveGrain_of_agreeFor (h : a.AgreeFor header b) (s : Sequence) :
    resolveGrain s header a = resolveGrain s header b := by
  have hgrain := h.grain
  unfold resolveGrain
  dsimp only
  generalize a.content? header.filmGrain.filmGrainParamsRefIdx = found at hgrain
  generalize b.content? header.filmGrain.filmGrainParamsRefIdx = other at hgrain
  cases found with
  | none =>
    obtain rfl := Option.map_eq_none_iff.mp hgrain.symm
    rfl
  | some state =>
    obtain ⟨state', rfl, hstate⟩ := Option.map_eq_some_iff.mp hgrain.symm
    dsimp only
    rw [hstate]

/-- Slots that agree in what the header refers to give the same state, or the same failure. -/
theorem derive_of_agreeFor (h : a.AgreeFor header b) : derive s header a = derive s header b := by
  apply Outcome.Rel.eq
  unfold derive
  apply (primary?_rel h.primary).mapError.bind
  intro primary primary' hprimary
  -- The two primary references need not be equal, but they leave the same to the frame.
  rw [resolveDeltas_of_alike_primary hprimary, resolveWarps_of_alike_primary hprimary,
    resolveGrain_of_agreeFor h]
  apply Outcome.Rel.of_eq _ fun _ => rfl
  cases hintra : header.isIntra with
  | true => rfl
  | false =>
    have hhints := referenceHint?_of_agreeFor h hintra
    simp only [resolveHints, resolveSignBias, resolveSkipMode, isAfter, candidates?, hhints]

/-- Without a primary reference deltas and warps are those of the header, whatever is in the
    slots. -/
theorem inherited_eq_of_primaryRefNone (hnone : header.primaryRefFrame = primaryRefNone)
    {x y : FrameState} (hx : derive s header a = .ok x) (hy : derive s header b = .ok y) :
    x.deltaEnabled = y.deltaEnabled ∧ x.deltas = y.deltas ∧ x.warps = y.warps := by
  have hprimary (slots : StateSlots) : primary? header slots = .ok none := if_pos hnone
  obtain ⟨primary, hprimaryX, hdeltasX, hwarpsX⟩ := inherited_of_derive hx
  obtain ⟨primary', hprimaryY, hdeltasY, hwarpsY⟩ := inherited_of_derive hy
  obtain rfl := Except.ok.inj ((hprimary a).symm.trans hprimaryX)
  obtain rfl := Except.ok.inj ((hprimary b).symm.trans hprimaryY)
  obtain ⟨henabled, hdeltas⟩ := Prod.mk.inj (hdeltasX.symm.trans hdeltasY)
  exact ⟨henabled, hdeltas, Except.ok.inj (hwarpsX.symm.trans hwarpsY)⟩

/-- The state of a frame, or the failure to resolve it, depends on nothing in the slots but what the
    header refers to. If it has no primary reference, deltas and warps do not depend on them at
    all. -/
theorem derive_reads_referenced (s : Sequence) (header : Header) :
    (∀ a b : StateSlots, a.AgreeFor header b → derive s header a = derive s header b) ∧
    (header.primaryRefFrame = primaryRefNone → ∀ (a b : StateSlots) (x y : FrameState),
      derive s header a = .ok x → derive s header b = .ok y →
        x.deltaEnabled = y.deltaEnabled ∧ x.deltas = y.deltas ∧ x.warps = y.warps) :=
  ⟨fun _ _ h => derive_of_agreeFor h, fun hnone _ _ _ _ hx hy =>
    inherited_eq_of_primaryRefNone hnone hx hy⟩

/-- Sequences whose frames have order hints and film grain. -/
def grainySequence : Sequence :=
  { enableOrderHint := true, orderHintBits := 7, filmGrainParamsPresent := true }

/-- A frame that refers to the first slot only, and takes its film grain from there. -/
def firstSlotHeader : Header :=
  { frameType := .interFrame, orderHint := 3, referenceSelect := true,
    filmGrain := { applyGrain := true } }

/-- The state of a frame with a delta and with film grain of its own. -/
def grainyState : FrameState :=
  { deltas := { mode := #v[2, 0] }, orderHint := 1,
    filmGrain := { applyGrain := true, grainScaleShift := 1 } }

/-- Slots of which only the first one is taken. -/
def firstSlot : StateSlots := Slots.refresh .empty 1 grainyState

/-- Slots that are all taken, the first one by a state that differs from `grainyState` in what no
    frame inherits. -/
def otherSlots : StateSlots :=
  Slots.refresh (Slots.refresh .empty allSlots { orderHint := 9 }) 1 {
    grainyState with
    deltaEnabled := false
    orderHints := Vector.replicate 8 5
    signBias := Vector.replicate 8 true
    skipModeFrames := some (.last, .last2) }

theorem derive_reads_referenced_firstSlot :
    firstSlot ≠ otherSlots ∧
      derive grainySequence firstSlotHeader firstSlot =
        derive grainySequence firstSlotHeader otherSlots := by
  have hagree : firstSlot.AgreeFor firstSlotHeader otherSlots := by
    have hslot {slot : Nat} (h : slot ∈ firstSlotHeader.refFrameIdx) : slot = 0 :=
      Vector.eq_of_mem_replicate h
    constructor
    · intro _ slot h
      obtain rfl := hslot (Vector.mem_of_getElem? h)
      exact .some ⟨rfl, fun _ _ => rfl⟩
    · intro _ slot h
      obtain rfl := hslot h
      rfl
    · rfl
  have hdiffer : firstSlot ≠ otherSlots := by
    intro h
    have hsecond : firstSlot.content? 1 = otherSlots.content? 1 := by rw [h]
    exact nomatch hsecond
  have hreads := derive_reads_referenced grainySequence firstSlotHeader
  exact ⟨hdiffer, hreads.1 firstSlot otherSlots hagree⟩

end FrameState

end Av1Frames
