import LatticeScene.Staging.Lattice
import LatticeScene.Proofs.Schedule.Lattice
import LatticeScene.Proofs.Staging.ColorGroups
import LatticeScene.Proofs.Staging.Queue
import LatticeScene.Attempt

/-!
# The links of a lattice layout

The links of one colour are one batch of lines between the centres of the cells that they refer to.
The first reference to a number that no cell has ends the frame (`linkGroups_cases`).  When there is
none, the batches are queued one after the other (`each_stageLinks_of_le`).
-/

namespace LatticeScene.Staging

open Shape Schedule

/-- The colour in which a link is drawn. -/
def linkColor (link : Link) : String := link.color.getD defaultLinkColor

/-- The batches of links: one for each colour, with the lines of its links. -/
def LinksOf (cells : List Cell) (links : List Link) (groups : ColorGroups LineBatch) : Prop :=
  ColorGroups.Grouped linkColor (fun batch own =>
    ∃ segments, List.Forall₂ (LatticeLayout.Joins cells) own segments ∧
      batch = LineBatch.empty.addAll segments) links groups

/-! ### Looking links up -/

section Lookup

variable {layout : LatticeLayout} {links : List Link} {groups : ColorGroups LineBatch}

/-- The first unknown number is looked for in one part of the links after the other. -/
theorem firstUnknown?_append (cells : List Cell) (links others : List Link) :
    LatticeLayout.firstUnknown? cells (links ++ others) =
      (LatticeLayout.firstUnknown? cells links).or (LatticeLayout.firstUnknown? cells others) := by
  rw [LatticeLayout.firstUnknown?, LatticeLayout.references, List.flatMap_append,
    List.find?_append]
  rfl

/-- A link of known cells joins the links of its colour. -/
theorem LinksOf.put (h : LinksOf layout.cells links groups) {link : Link} {source target : Cell}
    (hsource : LatticeLayout.named? layout.cells link.source = some source)
    (htarget : LatticeLayout.named? layout.cells link.target = some target) :
    LinksOf layout.cells (links ++ [link])
      (groups.put (linkColor link)
        (((groups.content? (linkColor link)).getD .empty).add source.position
          target.position)) := by
  refine ColorGroups.Grouped.put h link ?_
  have hjoins : LatticeLayout.Joins layout.cells link (source.position, target.position) :=
    ⟨source, target, hsource, htarget, rfl⟩
  have hsegments : ∃ segments,
      List.Forall₂ (LatticeLayout.Joins layout.cells) (ofColor linkColor (linkColor link) links)
        segments ∧
      (groups.content? (linkColor link)).getD .empty = LineBatch.empty.addAll segments := by
    rcases h.content?_cases (linkColor link) with ⟨hnone, hown⟩ | ⟨batch, hsome, hholds⟩
    · rw [hnone, hown]
      exact ⟨[], .nil, rfl⟩
    · rw [hsome]
      exact hholds
  obtain ⟨segments, hown, hbatch⟩ := hsegments
  refine ⟨segments ++ [(source.position, target.position)],
    List.rel_append hown (.cons hjoins .nil), ?_⟩
  rw [hbatch, LineBatch.addAll_append]
  rfl

/-- A link is added if its cells are known.  Otherwise the source is reported before the target. -/
theorem LinksOf.addLink_cases (h : LinksOf layout.cells links groups) (link : Link) :
    (LatticeLayout.firstUnknown? layout.cells [link] = none ∧
      ∃ next, addLink layout groups link = .ok next ∧
        LinksOf layout.cells (links ++ [link]) next) ∨
      ∃ id, LatticeLayout.firstUnknown? layout.cells [link] = some id ∧
        addLink layout groups link = .error (.schedule (.unknownCell id)) := by
  have hunknown : LatticeLayout.firstUnknown? layout.cells [link] =
      [link.source, link.target].find? fun id =>
        (LatticeLayout.named? layout.cells id).isNone := by
    simp only [LatticeLayout.isNone_named?]
    rfl
  rw [hunknown, addLink, LatticeLayout.center_eq, LatticeLayout.center_eq]
  -- the source is looked up before the target, and is reported first
  cases hsource : LatticeLayout.named? layout.cells link.source with
  | none =>
    refine Or.inr ⟨link.source, ?_, rfl⟩
    rw [List.find?_cons_of_pos (by rw [hsource]; rfl)]
  | some source =>
    rw [List.find?_cons_of_neg (by rw [hsource]; exact Bool.false_ne_true)]
    cases htarget : LatticeLayout.named? layout.cells link.target with
    | none =>
      refine Or.inr ⟨link.target, ?_, rfl⟩
      rw [List.find?_cons_of_pos (by rw [htarget]; rfl)]
    | some target =>
      rw [List.find?_cons_of_neg (by rw [htarget]; exact Bool.false_ne_true)]
      refine Or.inl ⟨rfl, _, ?_, h.put hsource htarget⟩
      simp only [bind, Except.bind, Except.mapError, ColorGroups.change_eq]
      rfl

end Lookup

/-- All links are taken if their cells are known.  Otherwise the first number without a cell ends
the frame. -/
theorem linkGroups_cases (layout : LatticeLayout) :
    (LatticeLayout.firstUnknown? layout.cells layout.links = none ∧
      ∃ groups, linkGroups layout = .ok groups ∧ LinksOf layout.cells layout.links groups) ∨
      ∃ id, LatticeLayout.firstUnknown? layout.cells layout.links = some id ∧
        linkGroups layout = .error (.schedule (.unknownCell id)) := by
  unfold linkGroups
  induction layout.links using List.reverseRecOn with
  | nil => exact Or.inl ⟨rfl, [], rfl, ColorGroups.grouped_nil⟩
  | append_singleton links link ih =>
    rw [firstUnknown?_append, foldlM_append_singleton]
    rcases ih with ⟨hnone, groups, hok, hgroups⟩ | ⟨id, hsome, herror⟩
    · rw [hnone, hok, Option.none_or]
      exact hgroups.addLink_cases link
    · rw [hsome, herror]
      exact Or.inr ⟨id, rfl, rfl⟩

/-! ### Staging the links -/

/-- Links that there are can be drawn: a chunk of lines can hold a segment. -/
def LinksDrawable (config : Config) (links : List Link) : Prop :=
  links = [] ∨ 2 ≤ config.lineChunkVertices

/-- The section of the links of one colour. -/
def linkSection (limit : Nat) (group : String × LineBatch) : Section :=
  .ofLines s!"links-{group.1}" .latticeLinks [⟨group.1, 1⟩] (group.2.drawn limit)

section Staging

variable {config : Config} {groups : ColorGroups LineBatch}

/-- Links are queued colour by colour. -/
theorem each_stageLinks_of_le (hlimit : 2 ≤ config.lineChunkVertices)
    (hwhole : ∀ group ∈ groups, group.2.IsWhole) (s : StagedFrame) :
    ∃ t, Attempt.each (stageLinks config) s groups = .done t ∧
      t.payloads = s.payloads ++
        Section.contents (groups.map (linkSection config.lineChunkVertices)) := by
  induction groups generalizing s with
  | nil => exact ⟨s, rfl, (List.append_nil _).symm⟩
  | cons group groups ih =>
    have hgroup : group.2.IsWhole := hwhole group List.mem_cons_self
    obtain ⟨t, hrest, hpayloads⟩ := ih
      (fun other hother => hwhole other (List.mem_cons_of_mem group hother)) _
    refine ⟨t, ?_, ?_⟩
    · rw [Attempt.each_cons, stageLinks, stageLines_of_le _ _ _ _ _ hlimit hgroup,
        Attempt.done_andThen, hrest]
    · rw [hpayloads, List.map_cons, Section.contents_cons, List.append_assoc]
      rfl

/-- If a chunk cannot hold a segment, then links cannot be drawn. -/
theorem each_stageLinks_of_lt (hlimit : config.lineChunkVertices < 2) (hgroups : groups ≠ [])
    (s : StagedFrame) :
    (Attempt.each (stageLinks config) s groups).error? =
      some (.shape (.invalidChunkSize config.lineChunkVertices)) := by
  obtain ⟨group, rest, rfl⟩ := List.exists_cons_of_ne_nil hgroups
  rw [Attempt.each_cons, stageLinks, stageLines_of_lt _ _ _ _ _ hlimit]
  rfl

/-- The payloads of a colour of links: chunks of one batch of lines, which are drawn once. -/
structure IsLinkBatch (layout : LatticeLayout) (name : String) (ps : List Payload) : Prop where
  /-- There is a payload for every colour. -/
  ne_nil : ps ≠ []
  payloads_eq : ∃ chunks, ps = linePayloads s!"links-{name}" .latticeLinks [⟨name, 1⟩] chunks
  /-- Together they have the lines of the links of the colour, link by link. -/
  positions_eq : ∃ segments,
    List.Forall₂ (LatticeLayout.Joins layout.cells) (ofColor linkColor name layout.links) segments ∧
      positionsOf ps = segments.flatMap LineBatch.endpoints

variable {layout : LatticeLayout}

/-- The lines of a colour are drawn whole, in at least one chunk. -/
theorem isLinkBatch_linkSection {name : String} {batch : LineBatch}
    (hlimit : 2 ≤ config.lineChunkVertices) (hown : ofColor linkColor name layout.links ≠ [])
    (h : ∃ segments,
      List.Forall₂ (LatticeLayout.Joins layout.cells) (ofColor linkColor name layout.links)
        segments ∧ batch = LineBatch.empty.addAll segments) :
    IsLinkBatch layout name (linkSection config.lineChunkVertices (name, batch)).payloads := by
  obtain ⟨segments, hjoins, rfl⟩ := h
  have hwhole : (LineBatch.empty.addAll segments).IsWhole := LineBatch.isWhole_empty.addAll segments
  have hpositions : positionsOf (linkSection config.lineChunkVertices
      (name, LineBatch.empty.addAll segments)).payloads = segments.flatMap LineBatch.endpoints := by
    refine (positionsOf_linePayloads_singleton _).trans ?_
    rw [LineBatch.flatMap_drawn hlimit hwhole, LineBatch.toList_positions_addAll]
    rfl
  refine ⟨?_, ⟨_, rfl⟩, segments, hjoins, hpositions⟩
  intro hnil
  rw [hnil] at hpositions
  cases segments with
  | nil => exact hown (List.forall₂_nil_right_iff.mp hjoins)
  | cons segment segments => exact nomatch hpositions

/-- Every batch has the lines of some of the links. -/
theorem LinksOf.exists_segments {links : List Link} (h : LinksOf layout.cells links groups)
    {group : String × LineBatch} (hgroup : group ∈ groups) :
    ∃ segments, group.2 = LineBatch.empty.addAll segments := by
  obtain ⟨name, segments, -, hbatch⟩ := ColorGroups.Grouped.exists_of_mem h hgroup
  exact ⟨segments, hbatch⟩

/-- The batches of links have whole segments. -/
theorem LinksOf.isWhole {links : List Link} (h : LinksOf layout.cells links groups) :
    ∀ group ∈ groups, group.2.IsWhole := by
  intro group hgroup
  obtain ⟨segments, hbatch⟩ := h.exists_segments hgroup
  rw [hbatch]
  exact LineBatch.isWhole_empty.addAll segments

/-- There is a batch of links as soon as there is a link. -/
theorem LinksOf.eq_nil_iff {links : List Link} (h : LinksOf layout.cells links groups) :
    groups = [] ↔ links = [] := by
  constructor
  · rintro rfl
    have hcolors : colorsOf linkColor links = [] := List.forall₂_nil_right_iff.mp h
    refine List.eq_nil_iff_forall_not_mem.mpr fun link hlink => ?_
    have hmem : linkColor link ∈ colorsOf linkColor links := mem_colorsOf.mpr ⟨link, hlink, rfl⟩
    rw [hcolors] at hmem
    exact List.not_mem_nil hmem
  · rintro rfl
    exact List.forall₂_nil_left_iff.mp h

/-- The queued links are those of every colour in turn. -/
theorem LinksOf.forall₂_isLinkBatch (h : LinksOf layout.cells layout.links groups)
    (hdrawable : LinksDrawable config layout.links) :
    List.Forall₂ (IsLinkBatch layout) (colorsOf linkColor layout.links)
      (groups.map fun group => (linkSection config.lineChunkVertices group).payloads) := by
  rcases hdrawable with hnil | hlimit
  · rw [h.eq_nil_iff.mpr hnil, hnil]
    exact .nil
  · have hown : ∀ name ∈ colorsOf linkColor layout.links,
        ofColor linkColor name layout.links ≠ [] := by
      intro name hname hnil
      obtain ⟨link, hlink, hcolor⟩ := mem_colorsOf.mp hname
      exact List.filter_eq_nil_iff.mp hnil link hlink (beq_iff_eq.mpr hcolor)
    rw [List.forall₂_map_right_iff]
    refine ((List.forall₂_and_left _ _).mpr ⟨hown, h⟩).imp ?_
    rintro name group ⟨hne, rfl, hholds⟩
    exact isLinkBatch_linkSection hlimit hne hholds

end Staging

end LatticeScene.Staging
