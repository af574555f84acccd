import Mathlib.Tactic
import Av1Frames.Decoder.Backend

namespace Av1Frames

variable {S : Type}

/-- A frame that the backend has started, with the tiles that it has taken so far. -/
structure OpenFrame where
  tileInfo : TileInfo
  tiles : List Tile

namespace OpenFrame

/-- The tiles are the first ones of the layout of the frame, row by row. -/
structure InRasterOrder (f : OpenFrame) : Prop where
  length_le : f.tiles.length ≤ f.tileInfo.cols * f.tileInfo.rows
  position : ∀ (i : Nat) (hi : i < f.tiles.length),
    f.tiles[i].row = i / f.tileInfo.cols ∧ f.tiles[i].col = i % f.tileInfo.cols

/-- The last tile of the layout was taken. A layout without tiles has none. -/
def Complete (f : OpenFrame) : Prop :=
  f.tiles ≠ [] ∧ f.tiles.length = f.tileInfo.cols * f.tileInfo.rows

/-- The frame with more tiles. -/
def take (f : OpenFrame) (tiles : List Tile) : OpenFrame := { f with tiles := f.tiles ++ tiles }

/-- What an entry makes of the frame that is open. It is opened by a start that is accepted, and
    closed by the call that ends it, by an error and by a flush. -/
def step : Option OpenFrame → Entry S → Option OpenFrame
  | _, .called (.startFrame picture) (.ok ()) => some ⟨picture.header.tileInfo, []⟩
  | f, .called (.decodeTiles _ tiles) (.ok ()) => f.map (·.take tiles)
  | _, .called .endFrame _ => none
  | _, .failed => none
  | _, .flushed => none
  | f, _ => f

/-- The frame that is open after the entries of a journal. -/
def after (journal : List (Entry S)) : Option OpenFrame := journal.foldl step none

theorem after_snoc (journal : List (Entry S)) (e : Entry S) :
    after (journal ++ [e]) = step (after journal) e := by
  rw [after, List.foldl_append]
  rfl

/-- The entries that may follow while `f` is the open frame. Frames are started, and the stream is
    changed, while none is open. A complete frame is ended at once, and no other frame is. -/
def Permits (f : Option OpenFrame) : Entry S → Prop
  | .called (.startFrame _) _ => f = none
  | .called (.changeStream _) _ => f = none
  | .called (.decodeTiles _ tiles) _ =>
    ∃ frame, f = some frame ∧ ¬ frame.Complete ∧ (frame.take tiles).InRasterOrder
  | .called .endFrame _ => ∃ frame, f = some frame ∧ frame.Complete
  | _ => ∀ frame, f = some frame → ¬ frame.Complete

/-- A complete frame may only be followed by its end. -/
theorem Permits.endFrame_of_complete {frame : OpenFrame} {e : Entry S}
    (h : Permits (some frame) e) (hcomplete : frame.Complete) :
    ∃ answer, e = .called .endFrame answer := by
  cases e with
  | called call answer =>
    cases call with
    | changeStream info => exact nomatch h
    | startFrame picture => exact nomatch h
    | decodeTiles data tiles =>
      obtain ⟨frame', hframe, hopen, -⟩ := h
      obtain rfl := Option.some.inj hframe
      exact absurd hcomplete hopen
    | endFrame => exact ⟨answer, rfl⟩
  | shown header frame' => exact absurd hcomplete (h frame rfl)
  | failed => exact absurd hcomplete (h frame rfl)
  | flushed => exact absurd hcomplete (h frame rfl)

end OpenFrame

open OpenFrame

/-- A journal of which each entry was permitted. -/
inductive Orderly : List (Entry S) → Prop
  | nil : Orderly []
  | snoc {journal : List (Entry S)} {e : Entry S} (hjournal : Orderly journal)
      (he : Permits (after journal) e) : Orderly (journal ++ [e])

/-- What a backend may rely on. -/
structure FollowsProtocol (journal : List (Entry S)) : Prop where
  /-- No frame is started while one is open. -/
  start_closed : ∀ before picture answer rest,
    journal = before ++ .called (.startFrame picture) answer :: rest → after before = none
  /-- The stream does not change while a frame is open. -/
  change_closed : ∀ before info answer rest,
    journal = before ++ .called (.changeStream info) answer :: rest → after before = none
  /-- Tiles belong to an open frame that is not complete yet. -/
  tiles_open : ∀ before data tiles answer rest,
    journal = before ++ .called (.decodeTiles data tiles) answer :: rest →
      ∃ frame, after before = some frame ∧ ¬ frame.Complete
  /-- Only an open frame is ended, and only when it is complete. -/
  end_complete : ∀ before answer rest,
    journal = before ++ .called .endFrame answer :: rest →
      ∃ frame, after before = some frame ∧ frame.Complete
  /-- A frame that becomes complete is ended next. -/
  complete_ended : ∀ before rest frame, journal = before ++ rest → after before = some frame →
    frame.Complete → ∃ answer later, rest = .called .endFrame answer :: later
  /-- No frame is left that is complete and not ended. -/
  incomplete : ∀ frame, after journal = some frame → ¬ frame.Complete
  /-- The tiles that an open frame has taken are the first ones of its layout, in order. -/
  raster : ∀ before rest frame, journal = before ++ rest → after before = some frame →
    frame.InRasterOrder

namespace Orderly

variable {journal : List (Entry S)}

/-- What a journal starts with is orderly too. -/
theorem of_append (h : Orderly journal) {before rest : List (Entry S)}
    (hsplit : journal = before ++ rest) : Orderly before := by
  induction h generalizing rest with
  | nil =>
    obtain ⟨rfl, -⟩ := List.append_eq_nil_iff.mp hsplit.symm
    exact .nil
  | @snoc journal last hjournal hlast ih =>
    rcases List.eq_nil_or_concat rest with rfl | ⟨rest, last', rfl⟩
    · rw [List.append_nil] at hsplit
      exact hsplit ▸ .snoc hjournal hlast
    · rw [List.concat_eq_append, ← List.append_assoc] at hsplit
      exact ih (List.append_inj' hsplit rfl).1

/-- Each entry was permitted when it was made. -/
theorem permits (h : Orderly journal) {before rest : List (Entry S)} {e : Entry S}
    (hsplit : journal = before ++ e :: rest) : Permits (after before) e := by
  have hpart : Orderly (before ++ [e]) :=
    h.of_append (hsplit.trans (List.append_cons before e rest))
  generalize hlast : before ++ [e] = part at hpart
  cases hpart with
  | nil => exact absurd hlast (List.append_ne_nil_of_right_ne_nil before (List.cons_ne_nil e []))
  | snoc _ he =>
    obtain ⟨rfl, hentry⟩ := List.append_inj' hlast rfl
    obtain rfl := List.singleton_inj.mp hentry
    exact he

/-- Whatever was permitted, the open frame has taken the first tiles of its layout. -/
theorem inRasterOrder (h : Orderly journal) {frame : OpenFrame}
    (hframe : after journal = some frame) : frame.InRasterOrder := by
  induction h generalizing frame with
  | nil => exact nomatch hframe
  | @snoc journal e hjournal he ih =>
    rw [after_snoc] at hframe
    cases e with
    | called call answer =>
      cases call with
      | changeStream info => exact ih hframe
      | startFrame picture =>
        rcases answer with error | ⟨⟩
        · exact ih hframe
        · obtain rfl := Option.some.inj hframe
          exact ⟨Nat.zero_le _, nofun⟩
      | decodeTiles data tiles =>
        rcases answer with error | ⟨⟩
        · exact ih hframe
        · obtain ⟨frame', hframe', -, horder⟩ := he
          rw [hframe'] at hframe
          exact Option.some.inj hframe ▸ horder
      | endFrame => exact nomatch hframe
    | shown header frame => exact ih hframe
    | failed => exact nomatch hframe
    | flushed => exact nomatch hframe

end Orderly

/-- An orderly journal after which no frame waits to be ended. -/
structure Quiet (journal : List (Entry S)) : Prop where
  orderly : Orderly journal
  incomplete : ∀ frame, after journal = some frame → ¬ frame.Complete

/-- An orderly journal that leaves no complete frame open is all that a backend may rely on. -/
theorem Quiet.followsProtocol {journal : List (Entry S)} (h : Quiet journal) :
    FollowsProtocol journal where
  start_closed before picture answer rest hsplit := h.orderly.permits hsplit
  change_closed before info answer rest hsplit := h.orderly.permits hsplit
  tiles_open before data tiles answer rest hsplit := by
    obtain ⟨frame, hframe, hincomplete, -⟩ := h.orderly.permits hsplit
    exact ⟨frame, hframe, hincomplete⟩
  end_complete before answer rest hsplit := h.orderly.permits hsplit
  complete_ended before rest frame hsplit hframe hcomplete := by
    cases rest with
    | nil =>
      rw [List.append_nil] at hsplit
      exact absurd hcomplete (h.incomplete frame (hsplit ▸ hframe))
    | cons e later =>
      have hpermits := h.orderly.permits hsplit
      rw [hframe] at hpermits
      obtain ⟨answer, rfl⟩ := hpermits.endFrame_of_complete hcomplete
      exact ⟨answer, later, rfl⟩
  incomplete := h.incomplete
  raster before rest frame hsplit hframe := (h.orderly.of_append hsplit).inRasterOrder hframe

end Av1Frames
