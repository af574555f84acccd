import Av1Frames.Proofs.FrameState.Tracking
import Av1Frames.Proofs.GlobalMotion.Range
import Av1Frames.Proofs.Reference

namespace Av1Frames

/-- The codes of all transmitted parameters are ones that can be transmitted. -/
def Header.WarpsInRange (header : Header) : Prop :=
  ∀ r : Fin 8, r.val ≠ 0 → (header.warps.get r).InRange header.allowHighPrecisionMv

instance (header : Header) : Decidable header.WarpsInRange := inferInstanceAs (Decidable (∀ _, _))

/-- The warps of the state are in range, and the one of the frame itself moves nothing. -/
structure FrameState.WarpsInRange (state : FrameState) : Prop where
  inRange : ∀ r, (state.warps.get r).InRange
  intra : state.warps.get 0 = {}

/-- The warps of the states in the slots are in range. -/
def StateSlots.WarpsInRange (slots : StateSlots) : Prop :=
  ∀ i state, slots.content? i = some state → state.WarpsInRange

theorem StateSlots.warpsInRange_empty : StateSlots.WarpsInRange Slots.empty :=
  fun i _ hstate => nomatch (Slots.content?_empty i).symm.trans hstate

theorem StateSlots.WarpsInRange.refresh {slots : StateSlots} {state : FrameState}
    (hslots : slots.WarpsInRange) (hstate : state.WarpsInRange) (mask : Nat) :
    StateSlots.WarpsInRange (Slots.refresh slots mask state) :=
  Slots.forall_content?_refresh hslots hstate mask

namespace FrameState

/-- The warps of the references of a frame, for parameters of any width. -/
def exactWarps (header : Header) (primary : Option FrameState) : Warps :=
  if header.isIntra then Vector.replicate 8 {}
  else
    .ofFn fun r : Fin 8 =>
      if r.val = 0 then {}
      else
        (header.warps.get r).exactWarp header.allowHighPrecisionMv
          ((previousWarps primary).get r).matrix

variable {s : Sequence} {header : Header} {slots : StateSlots} {primary : Option FrameState}
  {state : FrameState}

theorem get_replicate_default (r : Fin 8) : (Vector.replicate 8 {} : Warps).get r = {} :=
  Vector.getElem_replicate r.isLt

theorem warpsInRange_of_primary? (hslots : slots.WarpsInRange)
    (hprimary : primary? header slots = .ok primary) (hstate : primary = some state) :
    state.WarpsInRange := by
  subst hstate
  obtain ⟨-, slot, hslot⟩ := exists_slot_of_primary? hprimary
  exact hslots slot state hslot

/-- What the warps of a frame are relative to is within its reach. -/
theorem previousWarps_near (hslots : slots.WarpsInRange)
    (hprimary : primary? header slots = .ok primary) (r : Fin 8) (i : Fin 6) :
    WarpMatrix.Near i (((previousWarps primary).get r).matrix.get i) := by
  cases hstate : primary with
  | none =>
    rw [previousWarps, get_replicate_default]
    exact WarpMatrix.near_identity i
  | some state => exact ((warpsInRange_of_primary? hslots hprimary hstate).inRange r).near i

theorem resolveWarps_eq_exact (hslots : slots.WarpsInRange)
    (hprimary : primary? header slots = .ok primary) (hheader : header.WarpsInRange) :
    resolveWarps header primary = .ok (exactWarps header primary) := by
  unfold resolveWarps exactWarps
  split
  · rfl
  · refine ofFnM_of_eq_ok fun r => ?_
    split
    · rfl
    · exact resolveWarp_eq_exact (hheader r ‹_›) (previousWarps_near hslots hprimary r)

theorem exactWarps_inRange (hheader : header.WarpsInRange) (r : Fin 8) :
    ((exactWarps header primary).get r).InRange := by
  unfold exactWarps
  split
  · rw [get_replicate_default]
    exact Warp.inRange_default
  · rw [get_eq_getElem, Vector.getElem_ofFn]
    split
    · exact Warp.inRange_default
    · exact CodedWarp.exactWarp_inRange (hheader r ‹_›) _

theorem exactWarps_intra : (exactWarps header primary).get 0 = {} := by
  unfold exactWarps
  split
  · rfl
  · rfl

/-- A frame with codes in range leaves warps in range if the slots held such ones. -/
theorem derive_warpsInRange (hslots : slots.WarpsInRange) (hheader : header.WarpsInRange)
    (hderive : derive s header slots = .ok state) : state.WarpsInRange := by
  obtain ⟨primary, hprimary, -, hwarps⟩ := inherited_of_derive hderive
  rw [resolveWarps_eq_exact hslots hprimary hheader] at hwarps
  obtain hwarps := Except.ok.inj hwarps
  exact ⟨fun r => hwarps ▸ exactWarps_inRange hheader r, hwarps ▸ exactWarps_intra⟩

theorem primary?_faultless : (primary? header slots).Faultless := by
  unfold primary?
  split
  · exact .ok
  · split
    · exact .fail
    · split
      · exact .fail
      · exact .ok

theorem resolveGrain_faultless : (resolveGrain s header slots).Faultless := by
  unfold resolveGrain
  dsimp only
  split
  · exact .ok
  · split
    · exact .ok
    · split
      · exact .fail
      · exact .ok

/-- With warps in range, the only arithmetic of a derivation that can overflow is that of order
    hints, which can have any value. -/
theorem orderHint_fault_of_derive (hslots : slots.WarpsInRange) (hheader : header.WarpsInRange)
    {f : Fault} (hderive : derive s header slots = .error (.fault f)) :
    resolveSignBias s header slots = .error f ∨ resolveSkipMode s header slots = .error f := by
  have hgrain (inherited : FrameState) :
      (do return { inherited with filmGrain := ← resolveGrain s header slots }) ≠
        Except.error (Failure.fault f) := by
    intro h
    rw [bind_eq_error_iff] at h
    rcases h with h | ⟨_, _, h⟩
    · exact resolveGrain_faultless f h
    · cases h
  unfold derive at hderive
  rw [bind_eq_error_iff] at hderive
  rcases hderive with hderive | ⟨primary, hprimary, hderive⟩
  · exact absurd hderive (primary?_faultless.mapError f)
  rw [resolveWarps_eq_exact hslots (mapError_eq_ok_iff.mp hprimary) hheader] at hderive
  generalize resolveDeltas header.loopFilter primary = deltas at hderive
  obtain ⟨deltaEnabled, deltas⟩ := deltas
  dsimp only at hderive
  rw [bind_eq_error_iff] at hderive
  rcases hderive with hderive | ⟨warps, -, hderive⟩
  · cases hderive
  split at hderive
  · exact absurd hderive (hgrain _)
  · rw [bind_eq_error_iff] at hderive
    rcases hderive with hbias | ⟨signBias, -, hderive⟩
    · exact .inl (liftM_eq_fault_iff.mp hbias)
    rw [bind_eq_error_iff] at hderive
    rcases hderive with hskip | ⟨skipModeFrames, -, hderive⟩
    · exact .inr (liftM_eq_fault_iff.mp hskip)
    · exact absurd hderive (hgrain _)

end FrameState

/-- What the slots allow a next frame, whatever its models and its precision are. -/
structure StateSlots.ResolveExactly (slots : StateSlots) : Prop where
  /-- Parameters are relative to numbers that can be transmitted. -/
  reference : ∀ header primary, FrameState.primary? header slots = .ok primary →
    ∀ (r : Fin 8) (i : Fin 6),
      let p := WarpPrecision.of (header.warps.get r).model i header.allowHighPrecisionMv
      ∃ reference,
        p.reference (((FrameState.previousWarps primary).get r).matrix.get i) = .ok reference ∧
          -p.mx ≤ reference ∧ reference ≤ p.mx
  /-- Resolving its warps overflows nowhere. -/
  warps : ∀ header primary, header.WarpsInRange → FrameState.primary? header slots = .ok primary →
    FrameState.resolveWarps header primary = .ok (FrameState.exactWarps header primary)

theorem StateSlots.WarpsInRange.resolveExactly {slots : StateSlots} (hslots : slots.WarpsInRange) :
    slots.ResolveExactly where
  reference _ _ hprimary r i := by
    have hnear := FrameState.previousWarps_near hslots hprimary r i
    exact ⟨_, WarpPrecision.reference_eq_exact _ _ hnear,
      WarpPrecision.exactReference_mem _ _ hnear⟩
  warps _ _ hheader hprimary := FrameState.resolveWarps_eq_exact hslots hprimary hheader

/-- The slots after some frames, each of which may be put into any of them. -/
inductive WarpRun : StateSlots → Prop
  | start : WarpRun Slots.empty
  | frame {slots : StateSlots} (hrun : WarpRun slots) (s : Sequence) (header : Header)
      (state : FrameState) (mask : Nat) (hheader : header.WarpsInRange)
      (hderive : FrameState.derive s header slots = .ok state) :
      WarpRun (slots.refresh mask state)

namespace WarpRun

variable {slots : StateSlots}

theorem warpsInRange (hrun : WarpRun slots) : slots.WarpsInRange := by
  induction hrun with
  | start => exact StateSlots.warpsInRange_empty
  | frame _ s header state mask hheader hderive ih =>
    exact ih.refresh (FrameState.derive_warpsInRange ih hheader hderive) mask

/-- After every run the warps of all stored states are in range. So whatever the next frame is, its
    warps are relative to numbers that can be transmitted, and resolving them overflows nowhere. -/
theorem states_inRange (hrun : WarpRun slots) : slots.WarpsInRange ∧ slots.ResolveExactly :=
  ⟨hrun.warpsInRange, hrun.warpsInRange.resolveExactly⟩

/-- A translation that is relative to a rotation with zoom of finer precision. -/
theorem states_inRange_turn_slide :
    ∃ slots : StateSlots, WarpRun slots ∧ slots.content? 0 = some CodedFrame.turned ∧
      slots.content? 1 = some CodedFrame.slid ∧ slots.WarpsInRange ∧ slots.ResolveExactly := by
  have hkey := WarpRun.start.frame {} CodedFrame.key.coded {} allSlots (by decide +kernel)
    (by decide +kernel)
  have hturn := hkey.frame {} CodedFrame.turn.coded CodedFrame.turned 1 (by decide +kernel)
    (by decide +kernel)
  have hslide := hturn.frame {} CodedFrame.slide.coded CodedFrame.slid 2 (by decide +kernel)
    (by decide +kernel)
  exact ⟨_, hslide, by decide +kernel, by decide +kernel, hslide.states_inRange⟩

end WarpRun

end Av1Frames
