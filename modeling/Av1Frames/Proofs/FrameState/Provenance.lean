import Av1Frames.Proofs.FrameState.Tracking
import Av1Frames.Proofs.Reference

namespace Av1Frames

/-- A frame with the state that was resolved for it. -/
structure ResolvedFrame where
  sequence : Sequence
  header : Header
  state : FrameState

/-- Runs of frames that are resolved one after the other, each of which may be put into any of the
    slots, with the slots after them. -/
inductive ResolvedRun : List ResolvedFrame → StateSlots → Prop
  | start : ResolvedRun [] Slots.empty
  | frame {frames : List ResolvedFrame} {slots : StateSlots} (hrun : ResolvedRun frames slots)
      (f : ResolvedFrame) (mask : Nat)
      (hderive : FrameState.derive f.sequence f.header slots = .ok f.state) :
      ResolvedRun (frames ++ [f]) (slots.refresh mask f.state)

/-- The header changes deltas that its frame inherits. -/
def Header.UpdatesDeltas (header : Header) : Prop :=
  header.primaryRefFrame ≠ primaryRefNone ∧ header.loopFilter.deltaUpdate = true

/-- The film grain but for its seed, which is never inherited. -/
def FilmGrain.unseeded (grain : FilmGrain) : FilmGrain := { grain with grainSeed := 0 }

/-- The film grain of the frame is given in its own header, for a sequence that has film grain. -/
def ResolvedFrame.GivesGrain (f : ResolvedFrame) : Prop :=
  f.sequence.filmGrainParamsPresent = true ∧ f.header.filmGrain.applyGrain = true ∧
    f.header.filmGrain.updateGrain = true

/-- A delta in force is the initial one, or one of the frames updated it to this value. The delta is
    the one that `coded` finds in a header. -/
def DeltaStemsFrom (frames : List ResolvedFrame) (initial : Int) (coded : Header → CodedDelta)
    (delta : Int) : Prop :=
  delta = initial ∨ ∃ f ∈ frames, f.header.UpdatesDeltas ∧ (coded f.header).update = true ∧
    delta = (coded f.header).value

/-- Film grain is none at all, or one of the frames gave it. -/
def GrainStemsFrom (frames : List ResolvedFrame) (grain : FilmGrain) : Prop :=
  grain.unseeded = {} ∨
    ∃ f ∈ frames, f.GivesGrain ∧ grain.unseeded = f.header.filmGrain.unseeded

/-- Each delta of a state, and its film grain, is the initial one or was given by one of the
    frames. -/
structure FrameState.StemsFrom (frames : List ResolvedFrame) (state : FrameState) : Prop where
  refDelta : ∀ i : Fin 8, DeltaStemsFrom frames (initialRefDeltas.get i)
    (fun header => header.loopFilter.refDeltas.get i) (state.deltas.ref.get i)
  modeDelta : ∀ i : Fin 2, DeltaStemsFrom frames 0
    (fun header => header.loopFilter.modeDeltas.get i) (state.deltas.mode.get i)
  grain : GrainStemsFrom frames state.filmGrain

variable {frames frames' : List ResolvedFrame} {slots : StateSlots} {f : ResolvedFrame}
  {initial delta : Int} {coded : Header → CodedDelta}

theorem DeltaStemsFrom.mono (h : DeltaStemsFrom frames initial coded delta)
    (hsub : frames ⊆ frames') : DeltaStemsFrom frames' initial coded delta := by
  rcases h with hinitial | ⟨f, hf, hgiven⟩
  · exact .inl hinitial
  · exact .inr ⟨f, hsub hf, hgiven⟩

theorem GrainStemsFrom.mono {grain : FilmGrain} (h : GrainStemsFrom frames grain)
    (hsub : frames ⊆ frames') : GrainStemsFrom frames' grain := by
  rcases h with hnone | ⟨f, hf, hgiven⟩
  · exact .inl hnone
  · exact .inr ⟨f, hsub hf, hgiven⟩

theorem FrameState.StemsFrom.mono {state : FrameState} (h : state.StemsFrom frames)
    (hsub : frames ⊆ frames') : state.StemsFrom frames' where
  refDelta i := (h.refDelta i).mono hsub
  modeDelta i := (h.modeDelta i).mono hsub
  grain := h.grain.mono hsub

/-- A delta of a frame that inherits is its own if the header gives it, and else the inherited
    one. -/
theorem DeltaStemsFrom.updated (h : DeltaStemsFrom frames initial coded delta)
    (hinherits : f.header.primaryRefFrame ≠ primaryRefNone) :
    DeltaStemsFrom (frames ++ [f]) initial coded
      (if f.header.loopFilter.deltaUpdate ∧ (coded f.header).update then (coded f.header).value
        else delta) := by
  split
  · rename_i hgiven
    right
    refine ⟨f, ?_, ⟨hinherits, hgiven.1⟩, hgiven.2, rfl⟩
    exact List.mem_append_right _ (List.mem_singleton_self f)
  · exact h.mono (List.subset_append_left _ _)

theorem CodedDelta.get_apply {n : Nat} (coded : Vector CodedDelta n) (previous : Vector Int n)
    (i : Fin n) : (apply coded previous).get i =
      if (coded.get i).update then (coded.get i).value else previous.get i := by
  simp [apply, get_eq_getElem]

theorem LoopFilter.get_apply_ref (lf : LoopFilter) (previous : FilterDeltas) (i : Fin 8) :
    (lf.apply previous).ref.get i =
      if lf.deltaUpdate ∧ (lf.refDeltas.get i).update then (lf.refDeltas.get i).value
      else previous.ref.get i := by
  unfold apply
  cases lf.deltaUpdate <;> simp [CodedDelta.get_apply]

theorem LoopFilter.get_apply_mode (lf : LoopFilter) (previous : FilterDeltas) (i : Fin 2) :
    (lf.apply previous).mode.get i =
      if lf.deltaUpdate ∧ (lf.modeDeltas.get i).update then (lf.modeDeltas.get i).value
      else previous.mode.get i := by
  unfold apply
  cases lf.deltaUpdate <;> simp [CodedDelta.get_apply]

namespace FrameState

/-- A frame whose header is not asked for film grain, or does not give it itself, hands on at most
    that of a slot. -/
theorem grainStemsFrom_of_resolveGrain {grain : FilmGrain}
    (hslots : ∀ i state, slots.content? i = some state → GrainStemsFrom frames state.filmGrain)
    (h : resolveGrain f.sequence f.header slots = .ok grain) :
    GrainStemsFrom (frames ++ [f]) grain := by
  unfold resolveGrain at h
  dsimp only at h
  split at h
  · obtain rfl := Except.ok.inj h
    exact .inl rfl
  · rename_i happlied
    simp only [Bool.or_eq_true, Bool.not_eq_true', not_or, Bool.not_eq_false] at happlied
    split at h
    · rename_i hupdate
      obtain rfl := Except.ok.inj h
      right
      refine ⟨f, ?_, ⟨happlied.1, happlied.2, hupdate⟩, rfl⟩
      exact List.mem_append_right _ (List.mem_singleton_self f)
    · split at h
      · exact absurd h fail_ne_ok
      · rename_i reference hreference
        obtain rfl := Except.ok.inj h
        -- Only the seed is not the one of the reference.
        have hinherited : GrainStemsFrom frames
            { reference.filmGrain with grainSeed := f.header.filmGrain.grainSeed } :=
          hslots _ reference hreference
        exact hinherited.mono (List.subset_append_left _ _)

/-- If all that can be inherited stems from some frames, a new state stems from them and its own
    frame. -/
theorem stemsFrom_of_derive
    (hslots : ∀ i state, slots.content? i = some state → state.StemsFrom frames)
    (hderive : derive f.sequence f.header slots = .ok f.state) :
    f.state.StemsFrom (frames ++ [f]) := by
  obtain ⟨primary, hresolved⟩ := exists_resolvedFrom_of_derive hderive
  have hgrain : GrainStemsFrom (frames ++ [f]) f.state.filmGrain := by
    apply grainStemsFrom_of_resolveGrain _ hresolved.grain
    intro i state hstate
    exact (hslots i state hstate).grain
  cases primary with
  | none =>
    obtain ⟨-, hdeltas⟩ := Prod.mk.inj hresolved.deltas
    refine ⟨fun i => .inl ?_, fun i => .inl ?_, hgrain⟩
    · rw [← hdeltas]
    · rw [← hdeltas, get_eq_getElem, Vector.getElem_replicate]
  | some primary =>
    obtain ⟨hinherits, slot, hslot⟩ := exists_slot_of_primary? hresolved.primary_eq
    obtain ⟨-, hdeltas⟩ := Prod.mk.inj hresolved.deltas
    have hprimary := hslots slot primary hslot
    refine ⟨fun i => ?_, fun i => ?_, hgrain⟩
    · rw [← hdeltas, LoopFilter.get_apply_ref]
      exact (hprimary.refDelta i).updated hinherits
    · rw [← hdeltas, LoopFilter.get_apply_mode]
      exact (hprimary.modeDelta i).updated hinherits

end FrameState

namespace ResolvedRun

/-- Every state of a run stems from the frames up to its own, and the slots hold states of the
    run. -/
theorem states_stemFrom (hrun : ResolvedRun frames slots) :
    (∀ (n : Nat) (hn : n < frames.length), frames[n].state.StemsFrom (frames.take (n + 1))) ∧
      ∀ i state, slots.content? i = some state → ∃ f ∈ frames, f.state = state := by
  induction hrun with
  | start =>
    refine ⟨fun n hn => absurd hn (Nat.not_lt_zero n), fun i state hstate => ?_⟩
    exact nomatch (Slots.content?_empty i).symm.trans hstate
  | @frame frames slots hrun f mask hderive ih =>
    obtain ⟨hframes, hslots⟩ := ih
    have hstored (i : Nat) (state : FrameState) (hstate : slots.content? i = some state) :
        state.StemsFrom frames := by
      obtain ⟨f, hf, rfl⟩ := hslots i state hstate
      obtain ⟨n, hn, rfl⟩ := List.getElem_of_mem hf
      exact (hframes n hn).mono (List.take_subset _ _)
    constructor
    · intro n hn
      by_cases hold : n < frames.length
      · rw [List.getElem_append_left hold, List.take_append_of_le_length hold]
        exact hframes n hold
      · obtain rfl : n = frames.length := by
          rw [List.length_append, List.length_singleton] at hn
          omega
        rw [List.getElem_concat_length rfl, List.take_of_length_le (by simp)]
        exact FrameState.stemsFrom_of_derive hstored hderive
    · apply Slots.forall_content?_refresh
      · intro i state hstate
        obtain ⟨f, hf, hstate⟩ := hslots i state hstate
        exact ⟨f, List.mem_append_left _ hf, hstate⟩
      · exact ⟨f, List.mem_append_right _ (List.mem_singleton_self f), rfl⟩

end ResolvedRun

namespace ResolvedFrame

/-- A key frame with film grain of its own. -/
def grained : ResolvedFrame where
  sequence := { filmGrainParamsPresent := true }
  header := {
    primaryRefFrame := primaryRefNone
    filmGrain := { applyGrain := true, grainSeed := 7, updateGrain := true, numYPoints := 2 } }
  state := {
    filmGrain := { applyGrain := true, grainSeed := 7, updateGrain := true, numYPoints := 2 } }

/-- A frame that updates a delta, with the film grain of the key frame. -/
def updating : ResolvedFrame where
  sequence := grained.sequence
  header := {
    frameType := .interFrame
    loopFilter := {
      deltaUpdate := true
      refDeltas := (Vector.replicate 8 {}).set 2 { update := true, value := -5 } }
    filmGrain := { applyGrain := true, grainSeed := 9 } }
  state := {
    deltaEnabled := false
    deltas := { ref := initialRefDeltas.set 2 (-5) }
    filmGrain := { grained.state.filmGrain with grainSeed := 9 } }

/-- A frame that inherits both from that one. The deltas in its header do not count. -/
def inheriting : ResolvedFrame where
  sequence := grained.sequence
  header := {
    frameType := .interFrame
    refFrameIdx := Vector.replicate 7 1
    loopFilter := {
      deltaEnabled := true
      refDeltas := Vector.replicate 8 { update := true, value := 40 } }
    filmGrain := { applyGrain := true, grainSeed := 11, filmGrainParamsRefIdx := 1 } }
  state := {
    deltas := { ref := initialRefDeltas.set 2 (-5) }
    filmGrain := { grained.state.filmGrain with grainSeed := 11 } }

end ResolvedFrame

theorem ResolvedRun.states_stemFrom_inheriting :
    let frames := [ResolvedFrame.grained, .updating, .inheriting]
    ∃ slots, ResolvedRun frames slots ∧
      slots.content? 2 = some ResolvedFrame.inheriting.state ∧
      (∀ (n : Nat) (hn : n < frames.length), frames[n].state.StemsFrom (frames.take (n + 1))) ∧
      ∀ i state, slots.content? i = some state → ∃ f ∈ frames, f.state = state := by
  have hgrained := ResolvedRun.start.frame .grained allSlots (by decide +kernel)
  have hupdating := hgrained.frame .updating 2 (by decide +kernel)
  have hinheriting := hupdating.frame .inheriting 4 (by decide +kernel)
  exact ⟨_, hinheriting, by decide +kernel, hinheriting.states_stemFrom⟩

end Av1Frames
