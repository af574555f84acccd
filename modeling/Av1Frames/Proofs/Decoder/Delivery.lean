import Av1Frames.Decoder.Scripted
import Av1Frames.Proofs.Decoder.Lifecycle
import Av1Frames.Proofs.Decoder.Progress

namespace Av1Frames

variable {β S : Type}

/-- The groups hold the tiles from number `k` up to `n`, one group after the other. -/
def TileGroup.Consecutive : Nat → List TileGroup → Nat → Prop
  | k, [], n => k = n
  | k, group :: rest, n => group.first = k ∧ Consecutive (group.last + 1) rest n

/-- A packet that holds nothing but tile groups. -/
def Packet.ofGroups (stamps : Timestamps) (groups : List TileGroup) : Packet :=
  { stamps, obus := groups.map .tileGroup }

/-- A way in which the tile groups of a picture come in packets. The last group ends its packet. -/
structure Delivery where
  /-- The packets before the one with the last group. -/
  earlier : List (Timestamps × List TileGroup) := []
  /-- What is in one packet with the last group. -/
  beside : List TileGroup := []
  last : TileGroup
deriving DecidableEq, Repr

namespace Delivery

/-- The groups that come. -/
def groups (delivery : Delivery) : List TileGroup :=
  delivery.earlier.flatMap Prod.snd ++ (delivery.beside ++ [delivery.last])

/-- The packets that bring them, the last one with the given timestamps. -/
def packets (delivery : Delivery) (stamps : Timestamps) : List Packet :=
  delivery.earlier.map (fun (stamps, groups) => .ofGroups stamps groups) ++
    [.ofGroups stamps (delivery.beside ++ [delivery.last])]

variable {earlier : List (Timestamps × List TileGroup)} {beside first : List TileGroup}
  {last : TileGroup} {stamps stamps' : Timestamps}

theorem groups_cons : (⟨(stamps, first) :: earlier, beside, last⟩ : Delivery).groups =
    first ++ (⟨earlier, beside, last⟩ : Delivery).groups := List.append_assoc _ _ _

theorem packets_cons : (⟨(stamps, first) :: earlier, beside, last⟩ : Delivery).packets stamps' =
    .ofGroups stamps first :: (⟨earlier, beside, last⟩ : Delivery).packets stamps' := rfl

theorem groups_ne_nil {delivery : Delivery} : delivery.groups ≠ [] := by
  simp [groups]

end Delivery

/-- The group belongs to the operating point, and its tiles are found. -/
structure Decoder.Takes (d : Decoder S) (picture : CurrentPicture S) (group : TileGroup) :
    Prop where
  included : d.Includes group.obuHeader
  found : ∃ info tiles, d.stream = some info ∧
    group.tiles info.sequence picture.header = .ok tiles

/-- The delivery brings the tiles that the picture still misses, and the decoder takes them. -/
structure Delivery.Completes (delivery : Delivery) (d : Decoder S) (picture : CurrentPicture S) :
    Prop where
  consecutive : TileGroup.Consecutive picture.tilesDecoded delivery.groups
    (picture.header.tileInfo.cols * picture.header.tileInfo.rows)
  takes : ∀ group ∈ delivery.groups, d.Takes picture group

/-- How a decoder ends up that is given all tiles of its picture: the picture is completed, unless
    it is one more than can be counted. -/
def Decoder.delivered (d : Decoder S) (picture : CurrentPicture S) (stamps : Timestamps) :
    Outcome DecodeError Unit × Decoder S :=
  let finished := ({ d with picture := none } : Decoder S).withFinished picture stamps
  if d.frameCount < 0xFFFFFFFF then (.ok (), finished.counted)
  else (.error (.fault .overflow), finished)

/-- Decodes packets one after the other, up to the first that fails. -/
def Session.decodeAll (backend : Backend β S) :
    List Packet → Session β S → Outcome DecodeError Unit × Session β S
  | [], s => (.ok (), s)
  | packet :: rest, s =>
    match s.decode backend packet with
    | (.ok (), s) => s.decodeAll backend rest
    | (.error e, s) => (.error e, s)

theorem Script.neverRefuses_of_no_refusal {state : Script} (h : state.refusal = none) :
    Script.backend.NeverRefuses state := by
  intro calls
  induction calls with
  | nil => trivial
  | cons call calls ih =>
    have hanswer : Script.backend.answer state call = (.ok (), state) := by
      change state.answer call = _
      rw [Script.answer, h]
    exact ⟨state, hanswer, ih⟩

namespace TileGroup

theorem consecutive_append {groups groups' : List TileGroup} {k n : Nat} :
    Consecutive k (groups ++ groups') n ↔
      ∃ m, Consecutive k groups m ∧ Consecutive m groups' n := by
  induction groups generalizing k with
  | nil => exact ⟨fun h => ⟨k, rfl, h⟩, fun ⟨_, hk, h⟩ => hk ▸ h⟩
  | cons group groups ih =>
    constructor
    · rintro ⟨hfirst, h⟩
      obtain ⟨m, hm, hn⟩ := ih.mp h
      exact ⟨m, ⟨hfirst, hm⟩, hn⟩
    · rintro ⟨m, ⟨hfirst, hm⟩, hn⟩
      exact ⟨hfirst, ih.mpr ⟨m, hm, hn⟩⟩

theorem Consecutive.le {groups : List TileGroup} {k n : Nat} (h : Consecutive k groups n)
    (hgroups : ∀ group ∈ groups, group.first ≤ group.last) : k ≤ n := by
  induction groups generalizing k with
  | nil => exact Nat.le_of_eq h
  | cons group groups ih =>
    obtain ⟨hfirst, h⟩ := h
    rw [List.forall_mem_cons] at hgroups
    have hrest := ih h hgroups.2
    omega

theorem Consecutive.lt {groups : List TileGroup} {k n : Nat} (h : Consecutive k groups n)
    (hgroups : ∀ group ∈ groups, group.first ≤ group.last) (hne : groups ≠ []) : k < n := by
  cases groups with
  | nil => exact absurd rfl hne
  | cons group groups =>
    obtain ⟨hfirst, h⟩ := h
    rw [List.forall_mem_cons] at hgroups
    have hrest := h.le hgroups.2
    omega

end TileGroup

theorem Decoder.Takes.first_le {d : Decoder S} {picture : CurrentPicture S} {group : TileGroup}
    (h : d.Takes picture group) : group.first ≤ group.last := by
  obtain ⟨_, _, -, htiles⟩ := h.found
  obtain ⟨_, _, -, -, hrange, -⟩ := TileGroup.tiles_eq_ok_iff.mp htiles
  exact hrange

namespace Session

variable {s₀ s s' : Session β S} {backend : Backend β S} {picture : CurrentPicture S}
  {stamps : Timestamps} {k n count : Nat}

/-- Since `s₀` the backend was given `count` groups, has `k` tiles of the picture and goes on to
    accept everything. -/
structure Reached (s₀ : Session β S) (backend : Backend β S) (picture : CurrentPicture S)
    (k count : Nat) (s : Session β S) : Prop where
  decoder_eq : s.decoder = s₀.decoder.withTiles picture k
  neverRefuses : backend.NeverRefuses s.backend
  length_le : s₀.journal.length ≤ s.journal.length
  calls_eq : (s.acceptedSince s₀.journal.length).map Call.method = List.replicate count .decodeTiles

/-- Since `s₀` the backend was given `count` groups and told of the end of the picture, and the
    decoder has ended up as it does then. -/
structure Delivered (s₀ : Session β S) (picture : CurrentPicture S) (stamps : Timestamps)
    (count : Nat) (r : Outcome DecodeError Unit) (s : Session β S) : Prop where
  delivered_eq : s₀.decoder.delivered picture stamps = (r, s.decoder)
  calls_eq : (s.acceptedSince s₀.journal.length).map Call.method =
    List.replicate count .decodeTiles ++ [.endFrame]

namespace Reached

theorem refl (hpicture : s.decoder.picture = some picture)
    (hbackend : backend.NeverRefuses s.backend) :
    s.Reached backend picture picture.tilesDecoded 0 s where
  decoder_eq := by
    rw [Decoder.withTiles, ← hpicture]
  neverRefuses := hbackend
  length_le := le_rfl
  calls_eq := by
    rw [acceptedSince, List.drop_length]
    rfl

theorem calls_append (hs : s₀.Reached backend picture k count s) (entries : List (Entry S))
    (hjournal : s'.journal = s.journal ++ entries) :
    (s'.acceptedSince s₀.journal.length).map Call.method =
      List.replicate count .decodeTiles ++ (entries.filterMap Entry.accepted?).map Call.method := by
  rw [← hs.calls_eq, acceptedSince, acceptedSince, hjournal,
    List.drop_append_of_le_length hs.length_le, List.filterMap_append, List.map_append]

end Reached

theorem Delivered.ok_iff {r : Outcome DecodeError Unit}
    (h : s₀.Delivered picture stamps count r s) :
    r = .ok () ↔ s₀.decoder.frameCount < 0xFFFFFFFF := by
  have hr : (s₀.decoder.delivered picture stamps).1 = r := congrArg Prod.fst h.delivered_eq
  unfold Decoder.delivered at hr
  dsimp only at hr
  by_cases hcount : s₀.decoder.frameCount < 0xFFFFFFFF
  · rw [if_pos hcount] at hr
    exact iff_of_true hr.symm hcount
  · rw [if_neg hcount] at hr
    exact iff_of_false (fun hok => absurd (hr.trans hok) (by simp)) hcount

/-- A group with the next tiles brings the picture on. The last one completes it. -/
theorem leads_group {group : TileGroup}
    (hsupported : ∀ format, s₀.decoder.status ≠ .unsupported format)
    (htakes : s₀.decoder.Takes picture group) (hs : s₀.Reached backend picture group.first count s)
    {Q : Unit → Session β S → Prop} {E : Failure DecodeError → Session β S → Prop}
    (hmore : group.last + 1 < picture.header.tileInfo.cols * picture.header.tileInfo.rows →
      ∀ s', s₀.Reached backend picture (group.last + 1) (count + 1) s' → Q () s')
    (hlast : group.last + 1 = picture.header.tileInfo.cols * picture.header.tileInfo.rows →
      (∀ s', s₀.Delivered picture stamps (count + 1) (.ok ()) s' → Q () s') ∧
        ∀ e s', s₀.Delivered picture stamps (count + 1) (.error e) s'.dropPicture → E e s') :
    Leads (Decode.unit backend (.tileGroup group) stamps) s Q E := by
  obtain ⟨decoder, state, journal⟩ := s
  obtain rfl : decoder = _ := hs.decoder_eq
  obtain ⟨info, tiles, hstream, htiles⟩ := htakes.found
  obtain ⟨decoded, hdecoded, hbackend⟩ :=
    hs.neverRefuses.answer (.decodeTiles group.data tiles)
  obtain ⟨ended, hended, -⟩ := hbackend.answer .endFrame
  let given : Session β S := {
    decoder := s₀.decoder.withTiles picture (group.last + 1)
    backend := decoded
    journal := journal ++ [.called (.decodeTiles group.data tiles) (.ok ())] }
  have hgiven : s₀.Reached backend picture (group.last + 1) (count + 1) given := by
    refine ⟨rfl, hbackend, hs.length_le.trans ?_, ?_⟩
    · rw [List.length_append]
      exact Nat.le_add_right _ _
    · rw [List.replicate_succ']
      exact hs.calls_append [.called (.decodeTiles group.data tiles) (.ok ())] rfl
  refine Decode.leads_unit_of_included htakes.included hsupported ?_
  refine Decode.leads_tileGroup_of_tiles hstream rfl rfl htiles hdecoded (hmore · given hgiven)
    fun heq => ?_
  obtain ⟨hok, herror⟩ := hlast heq
  refine Decode.leads_finish_of_ok hended (fun hnumber => hok _ ⟨if_pos hnumber, ?_⟩)
    fun hnone => herror _ _ ⟨if_neg (Nat.not_lt.mpr hnone), ?_⟩
  · exact hgiven.calls_append [.called .endFrame (.ok ())] rfl
  · exact hgiven.calls_append [.called .endFrame (.ok ()), .failed] (List.append_assoc _ _ _)

/-- The groups before the last one bring the picture on, one after the other. -/
theorem leads_groups {groups : List TileGroup}
    (hsupported : ∀ format, s₀.decoder.status ≠ .unsupported format)
    (htakes : ∀ group ∈ groups, s₀.decoder.Takes picture group)
    (hgroups : TileGroup.Consecutive k groups n)
    (hn : n < picture.header.tileInfo.cols * picture.header.tileInfo.rows)
    (hs : s₀.Reached backend picture k count s) {E : Failure DecodeError → Session β S → Prop} :
    Leads (Decode.units backend stamps (groups.map .tileGroup)) s
      (fun _ s' => s₀.Reached backend picture n (count + groups.length) s') E := by
  induction groups generalizing s k count with
  | nil =>
    obtain rfl : k = n := hgroups
    exact leads_pure.mpr hs
  | cons group groups ih =>
    obtain ⟨rfl, hgroups⟩ := hgroups
    rw [List.forall_mem_cons] at htakes
    have hle := hgroups.le fun group hgroup => (htakes.2 group hgroup).first_le
    rw [List.map_cons, Decode.units, leads_bind]
    refine leads_group hsupported htakes.1 hs (fun _ s' hs' => ?_)
      fun heq => absurd heq (hle.trans_lt hn).ne
    rw [List.length_cons, Nat.add_comm groups.length, ← Nat.add_assoc]
    exact ih htakes.2 hgroups hs'

/-- The last packet completes the picture. -/
theorem delivered_of_decode {beside : List TileGroup} {last : TileGroup}
    (hsupported : ∀ format, s₀.decoder.status ≠ .unsupported format)
    (htakes : ∀ group ∈ beside ++ [last], s₀.decoder.Takes picture group)
    (hgroups : TileGroup.Consecutive k (beside ++ [last])
      (picture.header.tileInfo.cols * picture.header.tileInfo.rows))
    (hs : s₀.Reached backend picture k count s) :
    s₀.Delivered picture stamps (count + (beside ++ [last]).length)
      (s.decode backend (.ofGroups stamps (beside ++ [last]))).1
      (s.decode backend (.ofGroups stamps (beside ++ [last]))).2 := by
  obtain ⟨_, hbeside, rfl, hend⟩ := TileGroup.consecutive_append.mp hgroups
  rw [List.forall_mem_append, List.forall_mem_singleton] at htakes
  have hend : last.last + 1 = picture.header.tileInfo.cols * picture.header.tileInfo.rows := hend
  have hrange := htakes.2.first_le
  refine decode_of_leads _ ?_
  rw [Packet.ofGroups, List.map_append, Decode.leads_units_append]
  refine (leads_groups hsupported htakes.1 hbeside (by omega) hs).mono
    (fun _ s' hs' => ?_) fun e s' h => h
  rw [List.map_singleton, Decode.units, leads_bind, List.length_append, ← Nat.add_assoc]
  refine leads_group hsupported htakes.2 hs' (fun hlt => absurd hend hlt.ne)
    fun _ => ⟨fun s' hs' => ?_, fun e s' hs' => hs'⟩
  exact leads_pure.mpr hs'

theorem decodeAll_cons {packet : Packet} {rest : List Packet}
    (hok : (s.decode backend packet).1 = .ok ()) :
    s.decodeAll backend (packet :: rest) = (s.decode backend packet).2.decodeAll backend rest := by
  rw [decodeAll]
  rcases hdecode : s.decode backend packet with ⟨_ | _, s'⟩
  · exact nomatch hok.symm.trans (congrArg Prod.fst hdecode)
  · rfl

theorem decodeAll_singleton {packet : Packet} :
    s.decodeAll backend [packet] = s.decode backend packet := by
  rw [decodeAll]
  rcases s.decode backend packet with ⟨_ | _, s'⟩ <;> rfl

/-- A delivery from any point of the picture on completes it. -/
theorem delivered_of_reached {delivery : Delivery} (stamps : Timestamps)
    (hsupported : ∀ format, s₀.decoder.status ≠ .unsupported format)
    (htakes : ∀ group ∈ delivery.groups, s₀.decoder.Takes picture group)
    (hgroups : TileGroup.Consecutive k delivery.groups
      (picture.header.tileInfo.cols * picture.header.tileInfo.rows))
    (hs : s₀.Reached backend picture k count s) :
    s₀.Delivered picture stamps (count + delivery.groups.length)
      (s.decodeAll backend (delivery.packets stamps)).1
      (s.decodeAll backend (delivery.packets stamps)).2 := by
  obtain ⟨earlier, beside, last⟩ := delivery
  induction earlier generalizing s k count with
  | nil =>
    rw [Delivery.packets, List.map_nil, List.nil_append, decodeAll_singleton]
    exact delivered_of_decode hsupported htakes hgroups hs
  | cons packet earlier ih =>
    obtain ⟨stamps', groups⟩ := packet
    rw [Delivery.groups_cons] at htakes hgroups ⊢
    rw [List.forall_mem_append] at htakes
    obtain ⟨m, hfirst, hrest⟩ := TileGroup.consecutive_append.mp hgroups
    -- There are tiles left for the later packets, so this one does not complete the picture.
    have hm := hrest.lt (fun group hgroup => (htakes.2 group hgroup).first_le)
      Delivery.groups_ne_nil
    obtain ⟨hok, hreached⟩ := decode_of_leads_ok (.ofGroups stamps' groups)
      (leads_groups hsupported htakes.1 hfirst hm hs)
    rw [List.length_append, ← Nat.add_assoc, Delivery.packets_cons, decodeAll_cons hok]
    exact ih hreached htakes.2 hrest

/-- How the tiles of a picture come does not matter. In any state that a decoder can be in while a
    picture is in progress, with a backend that accepts everything, two deliveries of the missing
    tiles have the same result and leave the same decoder, if the last packets of both have the same
    timestamps. Each hands over its groups and ends the frame once; both succeed unless there is no
    number left to count the frame. -/
theorem delivery_invisible {initial : β} {operatingPoint : Nat} {requests : List (Request β S)}
    {a b : Delivery} (hs : s = (start initial operatingPoint).run requests)
    (hpicture : s.decoder.picture = some picture) (hbackend : backend.NeverRefuses s.backend)
    (ha : a.Completes s.decoder picture) (hb : b.Completes s.decoder picture)
    (stamps : Timestamps) :
    ∃ r byA byB, s.decodeAll backend (a.packets stamps) = (r, byA) ∧
      s.decodeAll backend (b.packets stamps) = (r, byB) ∧ byA.decoder = byB.decoder ∧
      (r = .ok () ↔ s.decoder.frameCount < 0xFFFFFFFF) ∧
      (byA.acceptedSince s.journal.length).map Call.method =
        List.replicate a.groups.length .decodeTiles ++ [.endFrame] ∧
      (byB.acceptedSince s.journal.length).map Call.method =
        List.replicate b.groups.length .decodeTiles ++ [.endFrame] := by
  have hinitial : (start initial operatingPoint : Session β S).decoder.Consistent [] :=
    (Decoder.Settled.initial operatingPoint).consistent rfl rfl _
  have hconsistent : s.decoder.Consistent s.journal :=
    hs ▸ run_induction (fun s : Session β S => s.decoder.Consistent s.journal) hinitial
      (fun _ request h => consistent_handle h request) requests
  have hstatus := hconsistent.status_of_picture picture hpicture
  have hsupported (format : PixelFormat) : s.decoder.status ≠ .unsupported format := fun h =>
    nomatch hstatus.symm.trans h
  have hdeliveredA := delivered_of_reached stamps hsupported ha.takes
    ha.consecutive (.refl hpicture hbackend)
  have hdeliveredB := delivered_of_reached stamps hsupported hb.takes
    hb.consecutive (.refl hpicture hbackend)
  rw [Nat.zero_add] at hdeliveredA hdeliveredB
  rcases hbyA : s.decodeAll backend (a.packets stamps) with ⟨r, byA⟩
  rcases hbyB : s.decodeAll backend (b.packets stamps) with ⟨r', byB⟩
  rw [hbyA] at hdeliveredA
  rw [hbyB] at hdeliveredB
  obtain ⟨rfl, hdecoder⟩ :=
    Prod.mk.inj (hdeliveredA.delivered_eq.symm.trans hdeliveredB.delivered_eq)
  exact ⟨r, byA, byB, rfl, rfl, hdecoder, hdeliveredA.ok_iff, hdeliveredA.calls_eq,
    hdeliveredB.calls_eq⟩

/-- Two tiles in one group, with a size field, and in groups of their own, each in its packet. -/
theorem delivery_invisible_pair :
    let sequence : Sequence :=
      { Script.sequence with maxFrameWidthMinus1 := 127, maxFrameHeightMinus1 := 63 }
    let requests : List (Request Script Nat) := [.decode Script.backend
      { obus := [.sequenceHeader sequence, .frameHeader Script.keyFrame] }]
    let s : Session Script Nat := (start {} 0).run requests
    let picture : CurrentPicture Nat :=
      { header := Script.keyFrame, frame := .ofHeader Script.keyFrame 0 {} }
    let whole : Delivery :=
      { last := { last := 1, data := [1, 0, 0, 0, 0xAA, 0xBB, 0xCC], dataSize := 7 } }
    let parts : Delivery := {
      earlier := [(⟨1, 2⟩, [{ data := [0xAA, 0xBB], dataSize := 2 }])]
      last := { first := 1, last := 1, data := [0xCC], dataSize := 1 } }
    s = (start {} 0).run requests ∧ s.decoder.picture = some picture ∧
      Script.backend.NeverRefuses s.backend ∧ whole.Completes s.decoder picture ∧
      parts.Completes s.decoder picture ∧
      ∃ byWhole byParts,
        s.decodeAll Script.backend (whole.packets ⟨3, 4⟩) = (.ok (), byWhole) ∧
        s.decodeAll Script.backend (parts.packets ⟨3, 4⟩) = (.ok (), byParts) ∧
        byWhole.decoder = byParts.decoder ∧
        (byWhole.acceptedSince s.journal.length).map Call.method = [.decodeTiles, .endFrame] ∧
        (byParts.acceptedSince s.journal.length).map Call.method =
          [.decodeTiles, .decodeTiles, .endFrame] := by
  intro sequence requests s picture whole parts
  have hrun : s = (start {} 0).run requests := rfl
  have hpicture : s.decoder.picture = some picture := by decide +kernel
  have hstream : s.decoder.stream = some ⟨sequence, .i420, ⟨128, 64⟩⟩ := by decide +kernel
  have hbackend : Script.backend.NeverRefuses s.backend :=
    Script.neverRefuses_of_no_refusal (by decide +kernel)
  have htakes {group : TileGroup}
      (hpoint : (sequence.selectedPoint s.decoder.operatingPoint).includes group.obuHeader =
        .ok true)
      {tiles : List Tile} (htiles : group.tiles sequence Script.keyFrame = .ok tiles) :
      s.decoder.Takes picture group :=
    ⟨fun info hinfo => Option.some.inj (hstream.symm.trans hinfo) ▸ hpoint,
      _, tiles, hstream, htiles⟩
  have hwhole : whole.Completes s.decoder picture := by
    have htiles : whole.last.tiles sequence Script.keyFrame =
        .ok [⟨0, 4, 2, 0, 0, 1, 1⟩, ⟨0, 6, 1, 0, 1, 1, 1⟩] := by decide +kernel
    exact ⟨⟨rfl, rfl⟩, List.forall_mem_singleton.mpr (htakes (by decide +kernel) htiles)⟩
  have hparts : parts.Completes s.decoder picture := by
    have hfirst : ({ data := [0xAA, 0xBB], dataSize := 2 } : TileGroup).tiles sequence
        Script.keyFrame = .ok [⟨0, 0, 2, 0, 0, 1, 1⟩] := by decide +kernel
    have hlast : parts.last.tiles sequence Script.keyFrame = .ok [⟨0, 0, 1, 0, 1, 1, 1⟩] := by
      decide +kernel
    exact ⟨⟨rfl, rfl, rfl⟩, List.forall_mem_cons.mpr ⟨htakes (by decide +kernel) hfirst,
      List.forall_mem_singleton.mpr (htakes (by decide +kernel) hlast)⟩⟩
  obtain ⟨r, byWhole, byParts, hbyWhole, hbyParts, hdecoder, hok, hcalls⟩ :=
    delivery_invisible hrun hpicture hbackend hwhole hparts ⟨3, 4⟩
  obtain rfl : r = .ok () := hok.mpr (by decide +kernel)
  exact ⟨hrun, hpicture, hbackend, hwhole, hparts, byWhole, byParts, hbyWhole, hbyParts, hdecoder,
    hcalls⟩

end Session

end Av1Frames
