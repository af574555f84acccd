import Av1Frames.Proofs.FrameState.WarpRange
import Av1Frames.Proofs.OrderHint

namespace Av1Frames

open Checked

theorem relativeDistance_eq_ok (enabled : Bool) {bits : Nat} (hbits : bits ≤ 8) {a b : Int}
    (ha : 0 ≤ a ∧ a ≤ 255) (hb : 0 ≤ b ∧ b ≤ 255) :
    ∃ distance, relativeDistance enabled bits a b = .ok distance := by
  by_cases hzero : bits = 0
  · exact ⟨0, by rw [relativeDistance, if_pos (by simp [hzero])]; rfl⟩
  · cases enabled with
    | false => exact ⟨0, rfl⟩
    | true => exact ⟨_, relativeDistance_eq_bmod (by omega) (by omega) (by omega) (by omega)⟩

namespace SkipMode

variable {P : Nat → Prop}

/-- Where order hints can be compared, the search for the best one ends with one of them. -/
theorem best_eq_ok {allows : Nat → Except Fault Bool} {isBetter : Nat → Nat → Except Fault Bool}
    (hallows : ∀ a, P a → ∃ allowed, allows a = .ok allowed)
    (hisBetter : ∀ a b, P a → P b → ∃ better, isBetter a b = .ok better)
    {candidates : List Candidate} (hcandidates : ∀ c ∈ candidates, P c.2)
    {found : Option Candidate} (hfound : ∀ c, found = some c → P c.2) :
    ∃ result, best allows isBetter candidates found = .ok result ∧
      ∀ c, result = some c → P c.2 := by
  induction candidates generalizing found with
  | nil => exact ⟨found, rfl, hfound⟩
  | cons c rest ih =>
    obtain ⟨hc, hrest⟩ := List.forall_mem_cons.mp hcandidates
    have hkept := ih hrest hfound
    have hfirst (c' : Candidate) (hc' : some c = some c') : P c'.2 := Option.some.inj hc' ▸ hc
    have htaken := ih hrest hfirst
    obtain ⟨allowed, hallowed⟩ := hallows c.2 hc
    unfold best
    rw [hallowed, ok_bind]
    cases allowed with
    | false => exact hkept
    | true =>
      cases found with
      | none => exact htaken
      | some f =>
        obtain ⟨better, hbetter⟩ := hisBetter c.2 f.2 hc (hfound f rfl)
        rw [if_pos rfl]
        dsimp only
        rw [hbetter, ok_bind]
        cases better with
        | false => exact hkept
        | true => exact htaken

variable {distance : Nat → Nat → Except Fault Int}

theorem before_of_distance {a b : Nat} {d : Int} (h : distance a b = .ok d) :
    before distance a b = .ok (decide (d < 0)) := by
  rw [before, h]
  rfl

theorem after_of_distance {a b : Nat} {d : Int} (h : distance a b = .ok d) :
    after distance a b = .ok (decide (0 < d)) := by
  rw [after, h]
  rfl

theorem before_eq_ok {a b : Nat} (h : ∃ d, distance a b = .ok d) :
    ∃ isBefore, before distance a b = .ok isBefore :=
  let ⟨_, hd⟩ := h
  ⟨_, before_of_distance hd⟩

theorem after_eq_ok {a b : Nat} (h : ∃ d, distance a b = .ok d) :
    ∃ isAfter, after distance a b = .ok isAfter :=
  let ⟨_, hd⟩ := h
  ⟨_, after_of_distance hd⟩

theorem forward_eq_ok (hdistance : ∀ a b, P a → P b → ∃ d, distance a b = .ok d) {hint : Nat}
    (hhint : P hint) {candidates : List Candidate} (hcandidates : ∀ c ∈ candidates, P c.2) :
    ∃ result, forward distance hint candidates = .ok result ∧ ∀ c, result = some c → P c.2 :=
  best_eq_ok (fun a ha => before_eq_ok (hdistance a hint ha hhint))
    (fun a b ha hb => after_eq_ok (hdistance a b ha hb)) hcandidates nofun

theorem backward_eq_ok (hdistance : ∀ a b, P a → P b → ∃ d, distance a b = .ok d) {hint : Nat}
    (hhint : P hint) {candidates : List Candidate} (hcandidates : ∀ c ∈ candidates, P c.2) :
    ∃ result, backward distance hint candidates = .ok result ∧ ∀ c, result = some c → P c.2 :=
  best_eq_ok (fun a ha => after_eq_ok (hdistance a hint ha hhint))
    (fun a b ha hb => before_eq_ok (hdistance a b ha hb)) hcandidates nofun

theorem references_eq_ok (hdistance : ∀ a b, P a → P b → ∃ d, distance a b = .ok d) {hint : Nat}
    (hhint : P hint) {candidates : List Candidate} (hcandidates : ∀ c ∈ candidates, P c.2) :
    ∃ frames, references distance hint candidates = .ok frames := by
  obtain ⟨first, hfirst, hfirstHint⟩ := forward_eq_ok hdistance hhint hcandidates
  obtain ⟨later, hlater, -⟩ := backward_eq_ok hdistance hhint hcandidates
  unfold references
  rw [hfirst, ok_bind, hlater, ok_bind]
  cases first with
  | none => exact ⟨_, rfl⟩
  | some c =>
    -- Without a later reference the second one is looked for before the first.
    obtain ⟨second, hsecond, -⟩ := forward_eq_ok hdistance (hfirstHint c rfl) hcandidates
    cases later with
    | some c' => exact ⟨_, rfl⟩
    | none =>
      dsimp only
      rw [hsecond, ok_bind]
      cases second with
      | none => exact ⟨_, rfl⟩
      | some c' => exact ⟨_, rfl⟩

end SkipMode

/-- What later frames resolve against is in range. -/
structure FrameState.InRange (state : FrameState) : Prop extends state.WarpsInRange where
  orderHint_le : state.orderHint ≤ 255

/-- The states in the slots are in range. -/
def StateSlots.InRange (slots : StateSlots) : Prop :=
  ∀ i state, slots.content? i = some state → state.InRange

theorem StateSlots.InRange.warpsInRange {slots : StateSlots} (h : slots.InRange) :
    slots.WarpsInRange := fun i state hstate => (h i state hstate).toWarpsInRange

namespace FrameState

variable {s : Sequence} {header : Header} {slots : StateSlots} {state : FrameState}

/-- The order hint of a reference is that of a frame in the slots. -/
theorem exists_content_of_referenceHint? {r hint : Nat}
    (hhint : referenceHint? header slots r = some hint) :
    ∃ slot state, slots.content? slot = some state ∧ state.orderHint = hint := by
  cases r with
  | zero => exact nomatch hhint
  | succ i =>
    obtain ⟨slot, -, hstate⟩ := Option.bind_eq_some_iff.mp hhint
    obtain ⟨state, hcontent, hhint⟩ := Option.bind_eq_some_iff.mp hstate
    exact ⟨slot, state, hcontent, Option.some.inj hhint⟩

theorem referenceHint_le (hslots : slots.InRange) {r hint : Nat}
    (hhint : referenceHint? header slots r = some hint) : hint ≤ 255 := by
  obtain ⟨slot, state, hstate, rfl⟩ := exists_content_of_referenceHint? hhint
  exact (hslots slot state hstate).orderHint_le

theorem hintDistance_eq_ok (hbits : s.orderHintBits ≤ 8) {a b : Nat} (ha : a ≤ 255)
    (hb : b ≤ 255) : ∃ distance, hintDistance s a b = .ok distance := by
  unfold hintDistance
  rw [wrapSigned_of_range (by omega) (by omega), wrapSigned_of_range (by omega) (by omega)]
  exact relativeDistance_eq_ok _ hbits (by omega) (by omega)

theorem resolveSignBias_eq_ok (hbits : s.orderHintBits ≤ 8) (hslots : slots.InRange)
    (hheader : header.orderHint ≤ 255) :
    ∃ signBias, resolveSignBias s header slots = .ok signBias := by
  have hentry : ∀ r : Fin 8, ∃ after, isAfter s header slots r = .ok after := by
    intro r
    unfold isAfter
    cases hhint : referenceHint? header slots r with
    | none => exact ⟨_, rfl⟩
    | some hint =>
      obtain ⟨d, hd⟩ := hintDistance_eq_ok hbits (referenceHint_le hslots hhint) hheader
      dsimp only
      rw [hd, ok_bind]
      exact ⟨_, rfl⟩
  choose after hafter using hentry
  exact ⟨_, ofFnM_of_eq_ok hafter⟩

theorem candidates_le (hslots : slots.InRange) {candidates : List SkipMode.Candidate}
    (hcandidates : candidates? header slots = some candidates) : ∀ c ∈ candidates, c.2 ≤ 255 := by
  unfold candidates? at hcandidates
  generalize List.range 7 = indices at hcandidates
  induction indices generalizing candidates with
  | nil =>
    obtain rfl := Option.some.inj hcandidates
    exact List.forall_mem_nil _
  | cons i indices ih =>
    rw [List.mapM_cons] at hcandidates
    obtain ⟨c, hc, hcandidates⟩ := Option.bind_eq_some_iff.mp hcandidates
    obtain ⟨rest, hrest, hcandidates⟩ := Option.bind_eq_some_iff.mp hcandidates
    obtain ⟨hint, hhint, rfl⟩ := Option.map_eq_some_iff.mp hc
    obtain rfl := Option.some.inj hcandidates
    exact List.forall_mem_cons.mpr ⟨referenceHint_le hslots hhint, ih hrest⟩

theorem resolveSkipMode_eq_ok (hbits : s.orderHintBits ≤ 8) (hslots : slots.InRange)
    (hheader : header.orderHint ≤ 255) :
    ∃ frames, resolveSkipMode s header slots = .ok frames := by
  unfold resolveSkipMode
  split
  · exact ⟨none, rfl⟩
  cases hcandidates : candidates? header slots with
  | none => exact ⟨none, rfl⟩
  | some candidates =>
    exact SkipMode.references_eq_ok (P := (· ≤ 255)) (fun a b => hintDistance_eq_ok hbits) hheader
      (candidates_le hslots hcandidates)

/-- Resolving the state of a frame with syntax elements in range overflows nowhere. -/
theorem derive_faultless (hbits : s.orderHintBits ≤ 8) (hslots : slots.InRange)
    (hhint : header.orderHint ≤ 255) (hwarps : header.WarpsInRange) :
    (derive s header slots).Faultless := by
  intro f hderive
  rcases orderHint_fault_of_derive hslots.warpsInRange hwarps hderive with hbias | hskip
  · obtain ⟨_, hok⟩ := resolveSignBias_eq_ok hbits hslots hhint
    exact nomatch hok.symm.trans hbias
  · obtain ⟨_, hok⟩ := resolveSkipMode_eq_ok hbits hslots hhint
    exact nomatch hok.symm.trans hskip

/-- The state of such a frame is in range again, for the frames after it. -/
theorem derive_inRange (hslots : slots.InRange) (hhint : header.orderHint ≤ 255)
    (hwarps : header.WarpsInRange) (hderive : derive s header slots = .ok state) :
    state.InRange := by
  obtain ⟨_, hresolved⟩ := exists_resolvedFrom_of_derive hderive
  exact ⟨derive_warpsInRange hslots.warpsInRange hwarps hderive,
    hresolved.orderHint_eq.trans_le hhint⟩

end FrameState

end Av1Frames
