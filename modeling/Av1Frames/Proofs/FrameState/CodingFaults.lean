import Av1Frames.Proofs.Checked.Faults
import Av1Frames.Proofs.FrameState.Expressible
import Av1Frames.Proofs.Recentering.Codes

namespace Av1Frames

open Checked

/-- The text of the error tells that what was asked for is not possible. -/
def CodingError.IsInvalid (e : CodingError) : Prop := ∃ reason, e.message = invalidRequest reason

/-- All parameters are held in 32 bits of two's complement. -/
def Warp.Held (w : Warp) : Prop :=
  ∀ i, -0x80000000 ≤ w.matrix.get i ∧ w.matrix.get i < 0x80000000

namespace Warp

/-- The last two parameters of a rotation with zoom are those that the others imply. -/
structure Implied (w : Warp) : Prop where
  rotZoom : w.model = .rotZoom →
    w.matrix.get 4 = -w.matrix.get 3 ∧ w.matrix.get 5 = w.matrix.get 2

/-- Parameter `i` is one that its model transmits, neither too great nor too fine, or else one that
    follows without being transmitted. -/
def CodableAt (w : Warp) (highPrecision : Bool) (i : Fin 6) : Prop :=
  if w.model.transmits i then
    WarpMatrix.Near i (w.matrix.get i) ∧
      2 ^ (WarpPrecision.of w.model i highPrecision).droppedBits ∣
        w.matrix.get i - WarpMatrix.identity.get i
  else w.model = .rotZoom ∧ 4 ≤ i.val ∨ w.matrix.get i = WarpMatrix.identity.get i

/-- The warp can be coded. -/
structure Codable (w : Warp) (highPrecision : Bool) : Prop where
  implied : w.Implied
  parameter : ∀ i, w.CodableAt highPrecision i

/-- Parameter `i` is transmitted, and so small that it has no distance in 32 bits from the one that
    moves nothing. -/
def OverflowsAt (w : Warp) (i : Fin 6) : Prop :=
  w.model.transmits i ∧ w.matrix.get i < WarpMatrix.identity.get i - 0x80000000

/-- Coding the warp overflows: at parameter 3, which is negated whatever the model is, or at the
    first parameter that cannot be coded. -/
inductive Overflows (w : Warp) (highPrecision : Bool) : Prop
  | opposite (hleast : w.matrix.get 3 = -0x80000000)
  | distance (himplied : w.Implied) {i : Fin 6} (hoverflows : w.OverflowsAt i)
      (hbefore : ∀ j < i, w.CodableAt highPrecision j)

instance (i : Fin 6) (value : Int) : Decidable (WarpMatrix.Near i value) :=
  inferInstanceAs (Decidable (_ ∧ _))

instance (w : Warp) : Decidable w.Held := inferInstanceAs (Decidable (∀ _, _))

instance (w : Warp) (highPrecision : Bool) (i : Fin 6) : Decidable (w.CodableAt highPrecision i) :=
  inferInstanceAs (Decidable (if w.model.transmits i then _ ∧ _ else _ ∨ _))

section Range

variable {w : Warp} {highPrecision : Bool} {i : Fin 6}

theorem implied_iff : w.Implied ↔ (w.model = .rotZoom →
    w.matrix.get 4 = -w.matrix.get 3 ∧ w.matrix.get 5 = w.matrix.get 2) :=
  ⟨Implied.rotZoom, Implied.mk⟩

/-- Only the parameters that a rotation with zoom implies may be out of reach. -/
theorem CodableAt.near (h : w.CodableAt highPrecision i)
    (hi : w.model.transmits i = true ∨ i.val < 4) : WarpMatrix.Near i (w.matrix.get i) := by
  unfold CodableAt at h
  split at h
  · exact h.1
  · rename_i hfixed
    rcases h with ⟨-, himplied⟩ | hidentity
    · exact absurd himplied (Nat.not_le.mpr (hi.resolve_left hfixed))
    · exact hidentity ▸ WarpMatrix.near_identity i

/-- Warps that can be coded do not overflow. -/
theorem Codable.not_overflows (h : w.Codable highPrecision) : ¬ w.Overflows highPrecision := by
  have hleast (i : Fin 6) (hi : w.model.transmits i = true ∨ i.val < 4) :
      WarpMatrix.identity.get i - 0x400000 ≤ w.matrix.get i :=
    (Int.sub_le_sub_left (WarpMatrix.reach_mem i).2 _).trans ((h.parameter i).near hi).1
  rintro (hopposite | ⟨-, ⟨htransmits, hsmall⟩, -⟩)
  · have hidentity := WarpMatrix.identity_get_mem 3
    have hthird := hleast 3 (.inr (by decide))
    omega
  · have hparameter := hleast _ (.inl htransmits)
    omega

theorem overflows_iff :
    w.Overflows highPrecision ↔ w.matrix.get 3 = -0x80000000 ∨
      w.Implied ∧ ∃ i, w.OverflowsAt i ∧ ∀ j < i, w.CodableAt highPrecision j := by
  constructor
  · rintro (hleast | ⟨himplied, hoverflows, hbefore⟩)
    · exact .inl hleast
    · exact .inr ⟨himplied, _, hoverflows, hbefore⟩
  · rintro (hleast | ⟨himplied, i, hoverflows, hbefore⟩)
    · exact .opposite hleast
    · exact .distance himplied hoverflows hbefore

end Range

end Warp

namespace WarpPrecision

variable (p : WarpPrecision) {value number : Int}
  (hnumber : number = (value - p.round) >>> p.droppedBits)

include hnumber in
theorem number_eq_div : number = (value - p.round) / 2 ^ p.droppedBits := by
  rw [hnumber, Int.shiftRight_eq_div_pow]
  norm_cast

include hnumber in
/-- The parameter that stands for a number again when its lowest bits are dropped. -/
theorem scale_of_number (hdropped : p.droppedBits ≤ 16) (hround : 0 ≤ p.round)
    (hlow : -0x80000000 ≤ value - p.round) (hhigh : value < 0x80000000) :
    p.scale number = .ok (number * 2 ^ p.droppedBits + p.round) := by
  have hunit : (0 : Int) < 2 ^ p.droppedBits := by positivity
  have hpower : (0x80000000 : Int) = 2 ^ (31 - p.droppedBits) * 2 ^ p.droppedBits := by
    rw [← pow_add, Nat.sub_add_cancel (by omega)]
    rfl
  have hfloor : -(2 ^ (31 - p.droppedBits) : Int) ≤ number := by
    rw [p.number_eq_div hnumber, Int.le_ediv_iff_mul_le hunit, neg_mul, ← hpower]
    exact hlow
  have hleast := mul_le_mul_of_nonneg_right hfloor hunit.le
  rw [neg_mul, ← hpower] at hleast
  have hmost : number * 2 ^ p.droppedBits ≤ value - p.round := by
    rw [p.number_eq_div hnumber]
    exact Int.ediv_mul_le _ hunit.ne'
  rw [scale, Int.shiftLeft_eq, wrapSigned_of_range hleast (by omega)]
  exact signed_of_range (by omega) (by omega)

include hnumber in
/-- A number can be transmitted and stands for a parameter just if the parameter is within its reach
    and not too fine. -/
theorem represents_iff {i : Fin 6} (hmx : p.mx * 2 ^ p.droppedBits = WarpMatrix.reach i)
    (hround : p.round = WarpMatrix.identity.get i) :
    number * 2 ^ p.droppedBits + p.round = value ∧ -p.mx ≤ number ∧ number ≤ p.mx ↔
      WarpMatrix.Near i value ∧ 2 ^ p.droppedBits ∣ value - WarpMatrix.identity.get i := by
  have hunit : (0 : Int) < 2 ^ p.droppedBits := by positivity
  constructor
  · rintro ⟨hvalue, hlow, hhigh⟩
    have hscaledLow := mul_le_mul_of_nonneg_right hlow hunit.le
    have hscaledHigh := mul_le_mul_of_nonneg_right hhigh hunit.le
    rw [neg_mul, hmx] at hscaledLow
    rw [hmx] at hscaledHigh
    have hoffset : number * 2 ^ p.droppedBits = value - WarpMatrix.identity.get i := by omega
    exact ⟨⟨by omega, by omega⟩, Dvd.intro_left number hoffset⟩
  · rintro ⟨⟨hlow, hhigh⟩, hdvd⟩
    rw [← hround] at hdvd
    rw [p.number_eq_div hnumber]
    have hoffset := Int.ediv_mul_cancel hdvd
    refine ⟨by omega, ?_, ?_⟩
    · rw [Int.le_ediv_iff_mul_le hunit, neg_mul, hmx]
      omega
    · rw [← Int.lt_add_one_iff, Int.ediv_lt_iff_lt_mul hunit, add_mul, hmx]
      omega

end WarpPrecision

theorem WarpMatrix.isRotZoom_eq_ok_iff {m : WarpMatrix} {isRotZoom : Bool} :
    m.isRotZoom = .ok isRotZoom ↔ (-0x80000000 ≤ -m.get 3 ∧ -m.get 3 < 0x80000000) ∧
      isRotZoom = (m.get 4 = -m.get 3 && m.get 5 = m.get 2) := by
  unfold WarpMatrix.isRotZoom
  rw [bind_eq_ok_iff]
  constructor
  · rintro ⟨_, hminusB, hresult⟩
    obtain ⟨hfits, rfl⟩ := signed_eq_ok_iff.mp hminusB
    exact ⟨hfits, (Except.ok.inj hresult).symm⟩
  · rintro ⟨hfits, rfl⟩
    exact ⟨_, signed_eq_ok_iff.mpr ⟨hfits, rfl⟩, rfl⟩

namespace FrameState

section Warp

variable {target : Warp} {highPrecision : Bool} {previous : WarpMatrix} {r : Nat} {i : Fin 6}

/-- A parameter that is not transmitted has to be the one that follows. -/
theorem codeParameter_fixed_decidedBy (hfixed : target.model.transmits i = false) :
    (codeParameter target highPrecision previous r i).DecidedBy False
      (target.model = .rotZoom ∧ 4 ≤ i.val ∨ target.matrix.get i = WarpMatrix.identity.get i)
      CodingError.IsInvalid := by
  unfold codeParameter
  simp only [hfixed, Bool.not_false, if_true]
  refine (Outcome.DecidedBy.guard ⟨_, rfl⟩ fun _ => .pure).mono (and_iff_right_of_imp False.elim)
    (fun _ => ?_) fun _ h => h
  simp only [Bool.and_eq_true, Bool.not_eq_true', Bool.and_eq_false_iff, decide_eq_true_eq,
    decide_eq_false_iff_not, and_true]
  tauto

/-- Relative to any parameter within its reach, coding one that is transmitted overflows only where
    its distance from the one that moves nothing does. -/
theorem codeParameter_transmitted_decidedBy (htransmits : target.model.transmits i = true)
    (hheld : target.Held) (hprevious : WarpMatrix.Near i (previous.get i)) :
    (codeParameter target highPrecision previous r i).DecidedBy
      (target.matrix.get i < WarpMatrix.identity.get i - 0x80000000)
      (WarpMatrix.Near i (target.matrix.get i) ∧
        2 ^ (WarpPrecision.of target.model i highPrecision).droppedBits ∣
          target.matrix.get i - WarpMatrix.identity.get i) CodingError.IsInvalid := by
  have hscaled := WarpPrecision.mx_scaled target.model i highPrecision
  have hround := WarpPrecision.round_eq target.model i highPrecision
  have hreference := WarpPrecision.reference_eq_exact target.model highPrecision hprevious
  have hmem := WarpPrecision.exactReference_mem target.model highPrecision hprevious
  have hmx := WarpPrecision.mx_of_le target.model i highPrecision
  have hidentity := WarpMatrix.identity_get_mem i
  have hdropped : (WarpPrecision.of target.model i highPrecision).droppedBits ≤ 16 :=
    Nat.sub_le 16 _
  obtain ⟨hlow, hhigh⟩ := hheld i
  unfold codeParameter
  simp only [htransmits, Bool.not_true, Bool.false_eq_true, if_false]
  generalize WarpPrecision.of target.model i highPrecision = p at *
  have hsigned : (∃ offset, signed (target.matrix.get i - p.round) = .ok offset) ↔
      ¬ target.matrix.get i < WarpMatrix.identity.get i - 0x80000000 := by
    simp only [signed_eq_ok_iff, exists_eq_right']
    omega
  refine Outcome.DecidedBy.mono (.lift_bind_of_iff hsigned fun offset hoffset => ?_)
    (or_iff_left not_false) (fun _ => Iff.rfl) fun _ h => h
  obtain ⟨⟨hfits, -⟩, rfl⟩ := signed_eq_ok_iff.mp hoffset
  generalize hnumber : (target.matrix.get i - p.round) >>> p.droppedBits = number
  refine .lift_bind (p.scale_of_number hnumber.symm hdropped (by omega) hfits hhigh) ?_
  -- What is left is a guard, and a code for every number that passes it.
  refine (Outcome.DecidedBy.guard (P := True) ⟨_, rfl⟩ fun hguard => ?_).mono
    (and_iff_right_of_imp False.elim) (fun _ => ?_) fun _ h => h
  · simp only [not_or, not_not, not_lt] at hguard
    obtain ⟨-, hge, hle⟩ := hguard
    obtain ⟨code, -, hcode⟩ := Recentering.exists_encodeSigned
      (r := p.exactReference (previous.get i)) (by omega) (by omega) (by omega)
      (Set.mem_Ico.mpr ⟨hge, Int.lt_add_one_iff.mpr hle⟩)
    refine .lift_bind hreference ?_
    rw [hcode]
    exact .pure
  · rw [← p.represents_iff hnumber.symm hscaled hround]
    simp only [not_or, not_not, not_lt, and_true]

theorem codeParameter_decidedBy (hheld : target.Held)
    (hprevious : WarpMatrix.Near i (previous.get i)) :
    (codeParameter target highPrecision previous r i).DecidedBy (target.OverflowsAt i)
      (target.CodableAt highPrecision i) CodingError.IsInvalid := by
  unfold Warp.OverflowsAt Warp.CodableAt
  cases htransmits : target.model.transmits i with
  | false =>
    rw [if_neg Bool.false_ne_true]
    exact (codeParameter_fixed_decidedBy htransmits).mono (by simp) (fun _ => Iff.rfl)
      fun _ h => h
  | true =>
    rw [if_pos rfl]
    exact (codeParameter_transmitted_decidedBy htransmits hheld hprevious).mono (by simp)
      (fun _ => Iff.rfl) fun _ h => h

/-- A warp is tested to be a rotation with zoom before its parameters are coded, whatever its model
    is. -/
theorem codeWarp_decidedBy (hheld : target.Held)
    (hprevious : ∀ i, WarpMatrix.Near i (previous.get i)) :
    (codeWarp target highPrecision previous r).DecidedBy (target.Overflows highPrecision)
      (target.Codable highPrecision) CodingError.IsInvalid := by
  have htest : (∃ isRotZoom, target.matrix.isRotZoom = .ok isRotZoom) ↔
      ¬ target.matrix.get 3 = -0x80000000 := by
    obtain ⟨hlow, hhigh⟩ := hheld 3
    simp only [WarpMatrix.isRotZoom_eq_ok_iff, exists_and_left, exists_eq, and_true]
    omega
  rw [codeWarp, Warp.overflows_iff]
  refine .lift_bind_of_iff htest fun isRotZoom hisRotZoom => ?_
  -- The test stops the warps that are not what they imply.
  have hpasses : ¬ (decide (target.model = .rotZoom) && !isRotZoom) = true ↔ target.Implied := by
    obtain ⟨-, rfl⟩ := WarpMatrix.isRotZoom_eq_ok_iff.mp hisRotZoom
    simp [Warp.implied_iff]
  have hcodes : Outcome.DecidedBy
      (∃ i, target.OverflowsAt i ∧ ∀ j < i, target.CodableAt highPrecision j)
      (∀ i, target.CodableAt highPrecision i) CodingError.IsInvalid
      (Vector.ofFnM (codeParameter target highPrecision previous r)) :=
    .ofFnM fun i => codeParameter_decidedBy hheld (hprevious i)
  refine (Outcome.DecidedBy.guard ⟨_, rfl⟩ fun _ => hcodes.map).mono (and_congr_left' hpasses)
    (fun _ => ?_) fun _ h => h
  exact ⟨fun h => ⟨hpasses.mp h.1, h.2⟩, fun h => ⟨hpasses.mpr h.implied, h.parameter⟩⟩

end Warp

variable {header : Header} {slots : StateSlots} {primary : Option FrameState} {target : FrameState}

/-- The deltas of a state can be given relative to the primary reference: without one they are the
    initial ones, and while they are disabled they do not change. -/
def DeltasCodable (target : FrameState) : (primary : Option FrameState) → Prop
  | none => target.deltaEnabled = true ∧ target.deltas = {}
  | some primary => target.deltaEnabled = true ∨ target.deltas = primary.deltas

/-- The warps of a state can be coded. Frames that are predicted from themselves have none. -/
def WarpsCodable (target : FrameState) (header : Header) : Prop :=
  ∀ r : Fin 8, r.val ≠ 0 →
    if header.isIntra then target.warps.get r = {}
    else (target.warps.get r).Codable header.allowHighPrecisionMv

/-- Coding the warps of a state overflows: at one of them, while all before it can be coded. -/
structure WarpsOverflow (target : FrameState) (header : Header) : Prop where
  inter : header.isIntra = false
  exists_first : ∃ r : Fin 8,
    (r.val ≠ 0 ∧ (target.warps.get r).Overflows header.allowHighPrecisionMv) ∧
      ∀ r' < r, r'.val ≠ 0 → (target.warps.get r').Codable header.allowHighPrecisionMv

/-- Deltas are given just if they are not those in force before. -/
theorem forTargets_none_iff (kept : LoopFilter) (target previous : FilterDeltas) :
    ((CodedDelta.forTargets kept.refDeltas target.ref previous.ref).any (·.update) ||
      (CodedDelta.forTargets kept.modeDeltas target.mode previous.mode).any (·.update)) = false ↔
        target = previous := by
  constructor
  · intro hnone
    obtain ⟨href, hmode⟩ := Bool.or_eq_false_iff.mp hnone
    obtain ⟨targetRef, targetMode⟩ := target
    obtain rfl := CodedDelta.eq_of_forTargets_none href
    obtain rfl := CodedDelta.eq_of_forTargets_none hmode
    rfl
  · rintro rfl
    rw [forTargets_any_update, forTargets_any_update, Bool.or_self]

theorem codeDeltas_decidedBy (kept : LoopFilter) :
    (codeDeltas kept primary target).DecidedBy False (target.DeltasCodable primary)
      CodingError.IsInvalid := by
  cases primary with
  | none =>
    unfold codeDeltas DeltasCodable
    dsimp only
    split
    · rename_i hreset
      refine .error not_false (fun h => ?_) ⟨_, rfl⟩
      exact hreset.elim (fun hne => hne h.1) fun hne => hne h.2
    · rename_i hinitial
      rw [not_or, not_not, not_not] at hinitial
      exact .ok not_false hinitial _
  | some primary =>
    have hnone := forTargets_none_iff kept target.deltas primary.deltas
    simp only [codeDeltas, DeltasCodable]
    split
    · rename_i hrefused
      rw [Bool.and_eq_true, Bool.not_eq_true'] at hrefused
      obtain ⟨hgiven, hdisabled⟩ := hrefused
      refine .error not_false (fun h => ?_) ⟨_, rfl⟩
      rcases h with henabled | hsame
      · exact absurd henabled (by simp [hdisabled])
      · exact absurd (hnone.mpr hsame) (by simp [hgiven])
    · rename_i haccepted
      refine .ok not_false ?_ _
      rw [Bool.and_eq_true, Bool.not_eq_true', not_and_or, Bool.not_eq_true,
        Bool.not_eq_false] at haccepted
      exact haccepted.symm.imp_right hnone.mp

theorem codeWarps_decidedBy (hheld : ∀ r : Fin 8, r.val ≠ 0 → (target.warps.get r).Held)
    (hprevious : ∀ r i, WarpMatrix.Near i (((previousWarps primary).get r).matrix.get i)) :
    (codeWarps header primary target).DecidedBy (target.WarpsOverflow header)
      (target.WarpsCodable header) CodingError.IsInvalid := by
  unfold codeWarps WarpsCodable
  cases hintra : header.isIntra with
  | true =>
    have hnone : target.warps.toList.tail.any (· ≠ {}) = false ↔
        ∀ r : Fin 8, r.val ≠ 0 → target.warps.get r = {} := by
      simp only [List.any_eq_false, mem_toList_tail_iff, decide_eq_true_eq, not_not]
      exact ⟨fun h r hr => h _ ⟨r, hr, rfl⟩, fun h _ ⟨r, hr, hwarp⟩ => hwarp ▸ h r hr⟩
    have hinter : ¬ target.WarpsOverflow header := fun h =>
      Bool.false_ne_true (h.inter.symm.trans hintra)
    simp only [if_true]
    split
    · rename_i hsome
      exact .error hinter (fun h => Bool.false_ne_true ((hnone.mpr h).symm.trans hsome)) ⟨_, rfl⟩
    · rename_i hidentity
      exact .ok hinter (hnone.mp (eq_false_of_ne_true hidentity)) _
  | false =>
    simp only [Bool.false_eq_true, if_false]
    refine (Outcome.DecidedBy.ofFnM (F := fun r : Fin 8 =>
      r.val ≠ 0 ∧ (target.warps.get r).Overflows header.allowHighPrecisionMv)
      (P := fun r : Fin 8 =>
        r.val ≠ 0 → (target.warps.get r).Codable header.allowHighPrecisionMv) fun r => ?_).mono
      ⟨fun h => ⟨hintra, h⟩, fun h => h.exists_first⟩ (fun _ => Iff.rfl) fun _ h => h
    split
    · rename_i hr
      exact Outcome.DecidedBy.pure.mono (by simp [hr]) (by simp [hr]) fun _ h => h
    · rename_i hr
      exact (codeWarp_decidedBy (hheld r hr) (hprevious r)).mono (by simp [hr]) (by simp [hr])
        fun _ h => h

/-- The error tells that what was asked for is not possible, or that the slot of the primary
    reference is empty. -/
def IsReport (header : Header) (slots : StateSlots) (e : CodingError) : Prop :=
  e.IsInvalid ∨ ∃ n slot, primary? header slots = .fail (.empty n slot) ∧
    e = .primary (.empty n slot)

theorem primary?_decidedBy :
    ((primary? header slots).mapError CodingError.primary).DecidedBy False
      (∃ primary, primary? header slots = .ok primary) (IsReport header slots) := by
  refine (Outcome.DecidedBy.of_faultless primary?_faultless).mapError fun e he => ?_
  cases e with
  | range n => exact .inl ⟨_, rfl⟩
  | empty n slot => exact .inr ⟨n, slot, he, rfl⟩

/-- When coding a state overflows, when it succeeds, and what it reports otherwise. -/
theorem code_decidedBy (hslots : slots.WarpsInRange)
    (hheld : ∀ r : Fin 8, r.val ≠ 0 → (target.warps.get r).Held) :
    (code slots header target).DecidedBy
      (∃ primary, primary? header slots = .ok primary ∧ target.DeltasCodable primary ∧
        target.WarpsOverflow header)
      (∃ primary, primary? header slots = .ok primary ∧ target.DeltasCodable primary ∧
        target.WarpsCodable header)
      (IsReport header slots) := by
  have hrest (primary : Option FrameState)
      (hprimary : (primary? header slots).mapError CodingError.primary = .ok primary) :
      Outcome.DecidedBy (target.DeltasCodable primary ∧ target.WarpsOverflow header)
        (target.DeltasCodable primary ∧ target.WarpsCodable header) (IsReport header slots) (do
          let loopFilter ← codeDeltas header.loopFilter primary target
          let warps ← codeWarps header primary target
          return { header with loopFilter, warps }) := by
    have hnear := previousWarps_near hslots (mapError_eq_ok_iff.mp hprimary)
    exact ((codeDeltas_decidedBy header.loopFilter).seq fun loopFilter _ =>
      (codeWarps_decidedBy hheld hnear).map).mono (or_iff_right not_false) (fun _ => Iff.rfl)
        fun _ h => .inl h
  refine (primary?_decidedBy.bind hrest).mono ?_ (fun _ => ?_) fun _ h => h
  · simp only [false_or, mapError_eq_ok_iff]
  · simp only [mapError_eq_ok_iff]

theorem WarpsCodable.not_overflow (h : target.WarpsCodable header) :
    ¬ target.WarpsOverflow header := by
  rintro ⟨hinter, r, ⟨hr, hoverflows⟩, -⟩
  have hcodable := h r hr
  rw [hinter, if_neg Bool.false_ne_true] at hcodable
  exact hcodable.not_overflows hoverflows

/-- Relative to warps that frames leave in the slots, coding a state overflows just if it gets to a
    warp of which parameter 3 is the least number of 32 bits, or of which a transmitted parameter
    on the diagonal has no distance from one in 32 bits. Short of that it succeeds just if the state
    can be coded, so parameters that are out of range are always reported, and it fails with an
    error that tells of an invalid request or of an empty slot. -/
theorem code_faultless_iff (hrun : WarpRun slots)
    (hheld : ∀ r : Fin 8, r.val ≠ 0 → (target.warps.get r).Held) :
    ((code slots header target).Faultless ↔ ¬ ∃ primary, primary? header slots = .ok primary ∧
      target.DeltasCodable primary ∧ target.WarpsOverflow header) ∧
    ((∃ coded, code slots header target = .ok coded) ↔ ∃ primary,
      primary? header slots = .ok primary ∧ target.DeltasCodable primary ∧
        target.WarpsCodable header) ∧
    (∀ e, code slots header target = .fail e → e.IsInvalid ∨ ∃ n slot,
      primary? header slots = .fail (.empty n slot) ∧ e = .primary (.empty n slot)) ∧
    ((code slots header target).Faultless → ∀ primary, primary? header slots = .ok primary →
      ¬ target.WarpsCodable header →
        ∃ e, code slots header target = .fail e ∧ e.IsInvalid) := by
  have hdecided : (code slots header target).DecidedBy _ _ _ :=
    code_decidedBy hrun.warpsInRange hheld
  refine ⟨hdecided.faultless_iff, ?_, fun e he => ?_, fun hfaultless primary hprimary hwarps => ?_⟩
  · rw [hdecided.exists_ok_iff, and_iff_right_of_imp]
    rintro ⟨primary, hprimary, -, hcodable⟩ ⟨_, _, -, hoverflow⟩
    exact hcodable.not_overflow hoverflow
  · rw [he] at hdecided
    exact hdecided.of_fail
  · obtain ⟨e, he, hreport⟩ := hdecided.exists_fail (hdecided.faultless_iff.mp hfaultless)
      fun ⟨_, _, _, h⟩ => hwarps h
    rcases hreport with hinvalid | ⟨n, slot, hempty, -⟩
    · exact ⟨e, he, hinvalid⟩
    · exact absurd (hempty.symm.trans hprimary) fail_ne_ok

/-- An affine warp whose parameters are held in 32 bits, and one of which is out of reach. -/
theorem code_faultless_iff_flat :
    let header : Header := { frameType := .interFrame, primaryRefFrame := primaryRefNone }
    let flat : Warp := { model := .affine, matrix := #v[0, 0, 0, 0, 0, 0x10000] }
    let target : FrameState := { warps := #v[{}, flat, {}, {}, {}, {}, {}, {}] }
    (∀ r : Fin 8, r.val ≠ 0 → (target.warps.get r).Held) ∧
      ∃ e, code Slots.empty header target = .fail e ∧ e.IsInvalid := by
  intro header flat target
  have hheld : ∀ r : Fin 8, r.val ≠ 0 → (target.warps.get r).Held := by decide +kernel
  have hfaultless : (code Slots.empty header target).Faultless := by decide +kernel
  have hwarps : ¬ target.WarpsCodable header := by
    intro h
    have hflat : flat.Codable false := h 1 (by decide)
    exact absurd (hflat.parameter 2) (by decide +kernel)
  obtain ⟨-, -, -, hreported⟩ := code_faultless_iff .start hheld
  exact ⟨hheld, hreported hfaultless none rfl hwarps⟩

/-- Coding a state can overflow before its parameters are tested: a warp that moves nothing by its
    model, but holds the least number of 32 bits in parameter 3. -/
theorem not_code_faultless :
    ¬ ∀ {slots : StateSlots} {header : Header} {target : FrameState}, WarpRun slots →
      (∀ r : Fin 8, r.val ≠ 0 → (target.warps.get r).Held) →
        (code slots header target).Faultless := by
  intro h
  let opposite : Warp := { matrix := #v[0, 0, 0x10000, -0x80000000, 0, 0x10000] }
  let target : FrameState := { warps := #v[{}, opposite, {}, {}, {}, {}, {}, {}] }
  let header : Header := { frameType := .interFrame, primaryRefFrame := primaryRefNone }
  have hheld : ∀ r : Fin 8, r.val ≠ 0 → (target.warps.get r).Held := by decide +kernel
  have hfault : ¬ (code Slots.empty header target).Faultless := by decide +kernel
  exact hfault (h .start hheld)

-- A transmitted parameter on the diagonal overflows as well.
example :
    let header : Header := { frameType := .interFrame, primaryRefFrame := primaryRefNone }
    let distant : Warp := { model := .affine, matrix := #v[0, 0, -0x80000000, 0, 0, 0x10000] }
    let target : FrameState := { warps := #v[{}, distant, {}, {}, {}, {}, {}, {}] }
    code Slots.empty header target = .error (.fault .overflow) := by
  decide +kernel

end FrameState

end Av1Frames
