import Av1Frames.Decoder.Frame
import Av1Frames.Encoder.Tracker
import Av1Frames.Proofs.Checked.TwoRuns
import Av1Frames.Proofs.FrameState.Coding

namespace Av1Frames

/-- Two states are equal in what is coded into headers. The warp of the frame itself is not. -/
structure FrameState.InSync (a b : FrameState) : Prop where
  deltaEnabled : a.deltaEnabled = b.deltaEnabled
  deltas : a.deltas = b.deltas
  warps : ∀ r : Fin 8, r.val ≠ 0 → a.warps.get r = b.warps.get r

/-- Each slot is empty on both sides, or holds states in sync. -/
def StateSlots.InSync (a b : StateSlots) : Prop :=
  ∀ i : Fin 8, Option.Rel FrameState.InSync (a.get i) (b.get i)

theorem StateSlots.InSync.content {a b : StateSlots} (hslots : a.InSync b) (i : Nat) :
    Option.Rel FrameState.InSync (a.content? i) (b.content? i) := by
  unfold Slots.content?
  by_cases hi : i < 8
  · rw [Vector.getElem?_eq_getElem hi, Vector.getElem?_eq_getElem hi]
    exact hslots ⟨i, hi⟩
  · rw [Vector.getElem?_eq_none (Nat.not_lt.mp hi), Vector.getElem?_eq_none (Nat.not_lt.mp hi)]
    exact .none

/-- Both sides refresh the same slots, with states in sync. -/
theorem StateSlots.InSync.refresh {a b : StateSlots} {x y : FrameState} (hslots : a.InSync b)
    (mask : Nat) (hstate : x.InSync y) :
    StateSlots.InSync (Slots.refresh a mask x) (Slots.refresh b mask y) := by
  intro i
  unfold Slots.refresh
  rw [get_eq_getElem, get_eq_getElem, Vector.getElem_ofFn, Vector.getElem_ofFn]
  by_cases hmask : mask.testBit i = true
  · rw [if_pos hmask, if_pos hmask]
    exact .some hstate
  · rw [if_neg hmask, if_neg hmask]
    exact hslots i

namespace FrameState

variable {slots references : StateSlots} {header coded : Header} {target state : FrameState}
  {s : Sequence}

/-- Slots of which the one that a primary reference is taken from holds related states are searched
    with related results. -/
theorem primary?_rel {R : FrameState → FrameState → Prop}
    (hslots : header.primaryRefFrame ≠ primaryRefNone →
      ∀ slot, header.refFrameIdx[header.primaryRefFrame]? = some slot →
        Option.Rel R (slots.content? slot) (references.content? slot)) :
    Outcome.Rel (Option.Rel R) (primary? header slots) (primary? header references) := by
  unfold primary?
  by_cases hnone : header.primaryRefFrame = primaryRefNone
  · rw [if_pos hnone, if_pos hnone]
    exact .ok .none
  · rw [if_neg hnone, if_neg hnone]
    cases hslot : header.refFrameIdx[header.primaryRefFrame]? with
    | none => exact .fail
    | some slot =>
      have hcontent := hslots hnone slot hslot
      dsimp only
      generalize slots.content? slot = found at hcontent
      generalize references.content? slot = other at hcontent
      cases hcontent with
      | none => exact .fail
      | some hstate => exact .ok (.some hstate)

/-- A primary reference is taken from a slot. -/
theorem exists_slot_of_primary? {primary : FrameState}
    (h : primary? header slots = .ok (some primary)) :
    header.primaryRefFrame ≠ primaryRefNone ∧ ∃ slot, slots.content? slot = some primary := by
  unfold primary? at h
  split at h
  · exact nomatch h
  · rename_i hinherits
    split at h
    · exact absurd h fail_ne_ok
    · rename_i slot _
      split at h
      · exact absurd h fail_ne_ok
      · rename_i found hfound
        obtain rfl := Option.some.inj (Except.ok.inj h)
        exact ⟨hinherits, slot, hfound⟩

/-- Where the parts of a resolved state come from. None of them depends on the others. -/
structure ResolvedFrom (s : Sequence) (header : Header) (slots : StateSlots) (state : FrameState)
    (primary : Option FrameState) : Prop where
  primary_eq : primary? header slots = .ok primary
  deltas : resolveDeltas header.loopFilter primary = (state.deltaEnabled, state.deltas)
  warps : resolveWarps header primary = .ok state.warps
  orderHint_eq : state.orderHint = header.orderHint
  orderHints : header.isIntra = false → state.orderHints = resolveHints header slots
  signBias : header.isIntra = false → resolveSignBias s header slots = .ok state.signBias
  skipMode : header.isIntra = false → resolveSkipMode s header slots = .ok state.skipModeFrames
  grain : resolveGrain s header slots = .ok state.filmGrain

theorem exists_resolvedFrom_of_derive (hderive : derive s header slots = .ok state) :
    ∃ primary, ResolvedFrom s header slots state primary := by
  unfold derive at hderive
  rw [bind_eq_ok_iff] at hderive
  obtain ⟨primary, hprimary, hderive⟩ := hderive
  have hprimary := mapError_eq_ok_iff.mp hprimary
  rcases hdeltas : resolveDeltas header.loopFilter primary with ⟨deltaEnabled, deltas⟩
  rw [hdeltas] at hderive
  dsimp only at hderive
  rw [bind_eq_ok_iff] at hderive
  obtain ⟨warps, hwarps, hderive⟩ := hderive
  have hwarps := liftM_eq_ok_iff.mp hwarps
  split at hderive
  · rename_i hintra
    rw [bind_eq_ok_iff] at hderive
    obtain ⟨inherited, hinherited, hderive⟩ := hderive
    obtain rfl := Except.ok.inj hinherited
    rw [bind_eq_ok_iff] at hderive
    obtain ⟨grain, hgrain, hderive⟩ := hderive
    obtain rfl := Except.ok.inj hderive
    have hnot {p : Prop} (h : header.isIntra = false) : p :=
      absurd (hintra.symm.trans h) (by decide)
    exact ⟨primary, hprimary, hdeltas, hwarps, rfl, hnot, hnot, hnot, hgrain⟩
  · rw [bind_eq_ok_iff] at hderive
    obtain ⟨signBias, hsignBias, hderive⟩ := hderive
    rw [bind_eq_ok_iff] at hderive
    obtain ⟨frames, hframes, hderive⟩ := hderive
    rw [bind_eq_ok_iff] at hderive
    obtain ⟨inherited, hinherited, hderive⟩ := hderive
    obtain rfl := Except.ok.inj hinherited
    rw [bind_eq_ok_iff] at hderive
    obtain ⟨grain, hgrain, hderive⟩ := hderive
    obtain rfl := Except.ok.inj hderive
    exact ⟨primary, hprimary, hdeltas, hwarps, rfl, fun _ => rfl,
      fun _ => liftM_eq_ok_iff.mp hsignBias, fun _ => liftM_eq_ok_iff.mp hframes, hgrain⟩

/-- Where the deltas and warps of a resolved state come from. -/
theorem inherited_of_derive (hderive : derive s header slots = .ok state) :
    ∃ primary, primary? header slots = .ok primary ∧
      resolveDeltas header.loopFilter primary = (state.deltaEnabled, state.deltas) ∧
      resolveWarps header primary = .ok state.warps := by
  obtain ⟨primary, hresolved⟩ := exists_resolvedFrom_of_derive hderive
  exact ⟨primary, hresolved.primary_eq, hresolved.deltas, hresolved.warps⟩

/-- A state that is resolved from a coded header is in sync with the state that it was coded
    from. -/
theorem derive_inSync (hslots : slots.InSync references)
    (hcode : code slots header target = .ok coded)
    (hderive : derive s coded references = .ok state) : target.InSync state := by
  unfold code at hcode
  rw [bind_eq_ok_iff] at hcode
  obtain ⟨primary, hprimary, hcode⟩ := hcode
  rw [bind_eq_ok_iff] at hcode
  obtain ⟨loopFilter, hloopFilter, hcode⟩ := hcode
  rw [bind_eq_ok_iff] at hcode
  obtain ⟨warps, hwarps, hcode⟩ := hcode
  obtain rfl := Except.ok.inj hcode
  obtain ⟨resolved, hresolved, hdeltas, hresolve⟩ := inherited_of_derive hderive
  -- The two primary references need not be equal. What is coded against them only depends on the
  -- parts in which they are.
  have hfound : Outcome.Rel (Option.Rel InSync) (primary? header slots)
      (primary? header references) := primary?_rel fun _ slot _ => hslots.content slot
  have hsync := hfound.of_ok (mapError_eq_ok_iff.mp hprimary) hresolved
  have hsameDeltas : primary.map deltas = resolved.map deltas := by
    cases hsync with
    | none => rfl
    | some hstate => exact congrArg some hstate.deltas
  have hsameWarps : ∀ r : Fin 8, r.val ≠ 0 → ((previousWarps primary).get r).matrix =
      ((previousWarps resolved).get r).matrix := by
    intro r hr
    cases hsync with
    | none => rfl
    | some hstate => exact congrArg Warp.matrix (hstate.warps r hr)
  have hwanted := (resolveDeltas_of_codeDeltas hsameDeltas hloopFilter).symm.trans hdeltas
  obtain ⟨hdeltaEnabled, hdeltas⟩ := Prod.mk.inj hwanted
  obtain ⟨warps', hwarps', hwanted⟩ := resolveWarps_of_codeWarps hsameWarps hwarps
  obtain rfl : warps' = state.warps := Except.ok.inj (hwarps'.symm.trans hresolve)
  exact ⟨hdeltaEnabled, hdeltas, fun r hr => (hwanted r hr).symm⟩

end FrameState

theorem FrameSlots.states_refresh {S : Type} (slots : FrameSlots S) (mask : Nat) (frame : Frame S) :
    (FrameSlots.states (Slots.refresh slots mask frame)) =
      Slots.refresh slots.states mask frame.state := by
  refine Vector.ext fun i hi => ?_
  unfold FrameSlots.states Slots.view Slots.refresh
  rw [Vector.getElem_map, Vector.getElem_ofFn, Vector.getElem_ofFn]
  by_cases hmask : mask.testBit i = true
  · rw [if_pos hmask, if_pos hmask]
    rfl
  · rw [if_neg hmask, if_neg hmask]
    exact (Vector.getElem_map ..).symm

/-- A frame on its way from an encoder to a decoder. -/
structure CodedFrame where
  sequence : Sequence
  /-- The header before the state is coded into it. -/
  header : Header
  /-- The state that the encoder wants the frame to have. -/
  target : FrameState
  /-- The header that is transmitted. -/
  coded : Header
  /-- The state that the decoder resolves. -/
  resolved : FrameState
deriving DecidableEq, Repr

/-- Runs of frames that can be coded and resolved, with the slots after them. The encoder keeps the
    wanted states and the decoder, which may put the frames on any surfaces, the resolved ones. -/
inductive CodingRun {S : Type} : List CodedFrame → StateSlots → FrameSlots S → Prop
  | start : CodingRun [] Slots.empty Slots.empty
  | frame {frames : List CodedFrame} {slots : StateSlots} {references : FrameSlots S}
      (hrun : CodingRun frames slots references) (f : CodedFrame) (surface : S)
      (hcode : FrameState.code slots f.header f.target = .ok f.coded)
      (hderive : FrameState.derive f.sequence f.coded references.states = .ok f.resolved) :
      CodingRun (frames ++ [f]) (slots.update f.coded f.target)
        (references.refresh f.coded.refreshMask (.ofHeader f.coded surface f.resolved))

/-- The two sides never drift: after every run each slot is empty on both or holds states in sync,
    and each frame of the run was resolved to what was wanted. -/
theorem CodingRun.states_inSync {S : Type} {frames : List CodedFrame} {slots : StateSlots}
    {references : FrameSlots S} (hrun : CodingRun frames slots references) :
    slots.InSync references.states ∧ ∀ f ∈ frames, f.target.InSync f.resolved := by
  induction hrun with
  | start =>
    refine ⟨fun i => ?_, fun f hf => absurd hf List.not_mem_nil⟩
    unfold FrameSlots.states Slots.view Slots.empty
    rw [Vector.map_replicate, get_eq_getElem, get_eq_getElem, Vector.getElem_replicate,
      Vector.getElem_replicate]
    exact .none
  | frame hrun f surface hcode hderive ih =>
    obtain ⟨hslots, hframes⟩ := ih
    have hframe := FrameState.derive_inSync hslots hcode hderive
    refine ⟨?_, fun g hg => ?_⟩
    · rw [FrameSlots.states_refresh]
      exact hslots.refresh _ hframe
    · rcases List.mem_append.mp hg with hold | hnew
      · exact hframes g hold
      · obtain rfl := List.mem_singleton.mp hnew
        exact hframe

namespace CodedFrame

/-- A key frame, from which all slots are filled. -/
def key : CodedFrame where
  sequence := {}
  header := { primaryRefFrame := primaryRefNone }
  target := {}
  coded := { primaryRefFrame := primaryRefNone, loopFilter := { deltaEnabled := true } }
  resolved := {}

/-- A state with a rotation with zoom and with a delta of its own. -/
def turned : FrameState where
  deltas := { ref := initialRefDeltas.set 0 (-63) }
  warps := (Vector.replicate 8 {}).set 1 {
    model := .rotZoom
    matrix := #v[1024, -2048, 0x10006, -8, 8, 0x10006] }

/-- The frame with that state, which is put into the first slot. -/
def turn : CodedFrame where
  sequence := {}
  header := { frameType := .interFrame, refreshFrameFlags := 1 }
  target := turned
  coded := {
    frameType := .interFrame
    refreshFrameFlags := 1
    loopFilter := {
      deltaEnabled := true
      deltaUpdate := true
      refDeltas := (Vector.replicate 8 {}).set 0 { update := true, value := -63 } }
    warps := (Vector.replicate 8 {}).set 1 {
      isGlobal := true
      isRotZoom := true
      codes := #v[2, 3, 6, 7, 0, 0] } }
  resolved := turned

/-- A state that keeps the delta and has a translation in units of other precision instead. -/
def slid : FrameState where
  deltaEnabled := false
  deltas := { ref := initialRefDeltas.set 0 (-63) }
  warps := (Vector.replicate 8 {}).set 1 {
    model := .translation
    matrix := #v[0xC000, -0x8000, 0x10000, 0, 0, 0x10000] }

/-- The frame with that state, coded against the one before it. -/
def slide : CodedFrame where
  sequence := {}
  header := { frameType := .interFrame, refreshFrameFlags := 2 }
  target := slid
  coded := {
    frameType := .interFrame
    refreshFrameFlags := 2
    warps := (Vector.replicate 8 {}).set 1 {
      isGlobal := true
      isTranslation := true
      codes := #v[6, 1, 0, 0, 0, 0] } }
  resolved := slid

end CodedFrame

theorem CodingRun.states_inSync_turn_slide :
    ∃ (slots : StateSlots) (references : FrameSlots Nat),
      CodingRun [.key, .turn, .slide] slots references ∧ slots.InSync references.states ∧
        ∀ f ∈ [CodedFrame.key, .turn, .slide], f.target.InSync f.resolved := by
  have hkey := CodingRun.start.frame .key 0 (by decide +kernel) (by decide +kernel)
  have hturn := hkey.frame .turn 1 (by decide +kernel) (by decide +kernel)
  have hslide := hturn.frame .slide 2 (by decide +kernel) (by decide +kernel)
  exact ⟨_, _, hslide, hslide.states_inSync⟩

end Av1Frames
