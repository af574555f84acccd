import Av1Frames.Proofs.Decoder.Chronicle
import Av1Frames.Proofs.Tile.Group

namespace Av1Frames

variable {β S : Type}

/-- The backend accepts the calls one after the other, when it starts from the given state. -/
def Backend.Accepts (backend : Backend β S) : β → List (Call S) → Prop
  | _, [] => True
  | state, call :: calls =>
    ∃ next, backend.answer state call = (.ok (), next) ∧ backend.Accepts next calls

/-- The backend refuses no call that comes once it is in the given state. -/
def Backend.NeverRefuses (backend : Backend β S) (state : β) : Prop :=
  ∀ calls, backend.Accepts state calls

theorem Backend.NeverRefuses.answer {backend : Backend β S} {state : β}
    (h : backend.NeverRefuses state) (call : Call S) :
    ∃ next, backend.answer state call = (.ok (), next) ∧ backend.NeverRefuses next := by
  obtain ⟨next, hnext, -⟩ := h [call]
  refine ⟨next, hnext, fun calls => ?_⟩
  obtain ⟨next', hnext', hcalls⟩ := h (call :: calls)
  obtain rfl : next' = next := (Prod.mk.inj (hnext'.symm.trans hnext)).2
  exact hcalls

/-- The decoder after the backend was given the first `count` tiles of its picture. -/
def Decoder.withTiles (d : Decoder S) (picture : CurrentPicture S) (count : Nat) : Decoder S :=
  { d with picture := some { picture with tilesDecoded := count } }

namespace Decode

variable {backend : Backend β S} {s : Session β S} {state : β} {stamps : Timestamps}
  {picture : CurrentPicture S} {Q : Unit → Session β S → Prop}
  {E : Failure DecodeError → Session β S → Prop}

/-- A picture whose end the backend accepts is completed. It only counts if there is a number left
    for it. -/
theorem leads_finish_of_ok (hanswer : backend.answer s.backend .endFrame = (.ok (), state))
    (hcounted : s.decoder.frameCount < 0xFFFFFFFF → Q () {
      decoder := (s.decoder.withFinished picture stamps).counted
      backend := state
      journal := s.journal ++ [.called .endFrame (.ok ())] })
    (huncounted : 0xFFFFFFFF ≤ s.decoder.frameCount → E (.fault .overflow) {
      decoder := { s.decoder.withFinished picture stamps with phase := .referencesUpdated }
      backend := state
      journal := s.journal ++ [.called .endFrame (.ok ())] }) :
    Leads (finish backend picture stamps) s Q E := by
  refine leads_finish_cases (fun e state' hrefused => ?_) (fun state' haccepted => ?_)
    fun state' haccepted => ?_
  · exact nomatch (Prod.mk.inj (hanswer.symm.trans hrefused)).1
  · obtain rfl := (Prod.mk.inj (hanswer.symm.trans haccepted)).2
    exact hcounted
  · obtain rfl := (Prod.mk.inj (hanswer.symm.trans haccepted)).2
    exact huncounted

/-- A group whose tiles are the next ones is taken. It completes the picture if they are the last
    ones. -/
theorem leads_tileGroup_of_tiles {info : StreamInfo} {group : TileGroup} {tiles : List Tile}
    (hstream : s.decoder.stream = some info) (hpicture : s.decoder.picture = some picture)
    (hfirst : group.first = picture.tilesDecoded)
    (htiles : group.tiles info.sequence picture.header = .ok tiles)
    (hanswer : backend.answer s.backend (.decodeTiles group.data tiles) = (.ok (), state))
    (hmore : group.last + 1 < picture.header.tileInfo.cols * picture.header.tileInfo.rows → Q () {
      decoder := s.decoder.withTiles picture (group.last + 1)
      backend := state
      journal := s.journal ++ [.called (.decodeTiles group.data tiles) (.ok ())] })
    (hlast : group.last + 1 = picture.header.tileInfo.cols * picture.header.tileInfo.rows →
      Leads (finish backend { picture with tilesDecoded := group.last + 1 } stamps) {
        decoder := { s.decoder with picture := none }
        backend := state
        journal := s.journal ++ [.called (.decodeTiles group.data tiles) (.ok ())] } Q E) :
    Leads (tileGroup backend group stamps) s Q E := by
  obtain ⟨htotal, hnext, hend⟩ := TileGroup.next_of_tiles hfirst htiles
  rw [← hnext] at hmore hlast
  rw [tileGroup_eq, leads_bind, leads_decoder, hstream]
  dsimp only
  rw [hpicture]
  dsimp only
  rw [if_neg (not_not.mpr hfirst), leads_bind]
  refine leads_ofOutcome_of_ok htiles ?_
  refine leads_takeTiles htotal (hnext.trans_le hend) (fun e state' hrefused => ?_)
    (fun state' haccepted => ?_) fun state' haccepted => ?_
  · exact nomatch (Prod.mk.inj (hanswer.symm.trans hrefused)).1
  · obtain rfl := (Prod.mk.inj (hanswer.symm.trans haccepted)).2
    exact hmore
  · obtain rfl := (Prod.mk.inj (hanswer.symm.trans haccepted)).2
    exact hlast

/-- A unit that belongs to the operating point is not skipped while the format is supported. -/
theorem leads_unit_of_included {obu : Obu} (hincluded : s.decoder.Includes obu.header)
    (hsupported : ∀ format, s.decoder.status ≠ .unsupported format)
    (h : Leads (dispatch backend obu stamps) s Q E) : Leads (unit backend obu stamps) s Q E := by
  have hadmitted : Leads (admitted backend obu stamps) s Q E := by
    unfold admitted
    rw [leads_bind, leads_decoder]
    cases hstatus : s.decoder.status with
    | unsupported format => exact absurd hstatus (hsupported format)
    | awaitingStream | decoding | reset => exact h
  rw [unit_eq, leads_bind]
  exact leads_of_run (run_inOperatingPoint_of_includes hincluded) hadmitted

theorem leads_units_append {before after : List Obu} :
    Leads (units backend stamps (before ++ after)) s Q E ↔
      Leads (units backend stamps before) s
        (fun _ s' => Leads (units backend stamps after) s' Q E) E := by
  induction before generalizing s with
  | nil => rw [List.nil_append, units, leads_pure]
  | cons obu before ih =>
    simp only [List.cons_append, units, leads_bind]
    simp only [ih]

end Decode

end Av1Frames
