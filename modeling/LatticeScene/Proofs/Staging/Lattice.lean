import LatticeScene.Proofs.Staging.Links
import LatticeScene.Proofs.Staging.Surfaces

/-!
# A lattice layout is grouped by colour

Staging a layout queues one surface for each colour of its cells, and then the links colour by
colour.  It ends early if cells do not fit, if a link refers to a cell that is not there, or if
links cannot be drawn (`LatticeEnding`).  Colours come in the order in which they first appear,
and the cells or links of a colour in the order of the layout.
-/

namespace LatticeScene.Staging

open Shape Schedule

/-- A frame on which the surfaces of cells are queued, and nothing else. -/
def surfacesStaged (surfaces : ColorGroups BoxBatch) : StagedFrame :=
  surfaces.foldl StagedFrame.stageSurface .empty

section Layers

variable {surfaces : ColorGroups BoxBatch} {groups : ColorGroups LineBatch} {limit : Nat}
  {s : StagedFrame}

/-- What is queued with the surfaces is the sections of the surfaces. -/
theorem payloads_surfacesStaged (surfaces : ColorGroups BoxBatch) :
    (surfacesStaged surfaces).payloads = Section.contents (surfaces.map surfaceSection) :=
  payloads_foldl_stageSurface surfaces .empty

/-- The sections of surfaces are on the layer of the lattice. -/
theorem layer_surfaceSections : ∀ part ∈ surfaces.map surfaceSection, part.layer = .lattice := by
  intro part hpart
  obtain ⟨surface, -, rfl⟩ := List.mem_map.mp hpart
  rfl

/-- The sections of links are on the layer of links. -/
theorem layer_linkSections :
    ∀ part ∈ groups.map (linkSection limit), part.layer = .latticeLinks := by
  intro part hpart
  obtain ⟨group, -, rfl⟩ := List.mem_map.mp hpart
  rfl

/-- Surfaces and links are told apart by their layers. -/
theorem onLayer_of_payloads_eq
    (h : s.payloads = Section.contents (surfaces.map surfaceSection) ++
      Section.contents (groups.map (linkSection limit))) :
    s.onLayer .lattice = Section.contents (surfaces.map surfaceSection) ∧
      s.onLayer .latticeLinks = Section.contents (groups.map (linkSection limit)) := by
  rw [← Section.contents_append] at h
  constructor
  · rw [StagedFrame.onLayer, h, Section.filter_layer_contents, List.filter_append,
      Section.filter_layer_eq_self layer_surfaceSections,
      Section.filter_layer_eq_nil layer_linkSections (by decide), List.append_nil]
  · rw [StagedFrame.onLayer, h, Section.filter_layer_contents, List.filter_append,
      Section.filter_layer_eq_nil layer_surfaceSections (by decide),
      Section.filter_layer_eq_self layer_linkSections, List.nil_append]

end Layers

/-! ### Endings -/

/-- How staging a layout can end. -/
inductive LatticeEnding (config : Config) (layout : LatticeLayout) : StagingAttempt → Prop where
  /-- The cells do not fit, and nothing is queued. -/
  | crowded (reason : Refusal) (hcells : ¬CellsFit config layout.cells) :
      LatticeEnding config layout (.stopped (.shape reason) .empty)
  /-- A link refers to a cell that is not there, and only the cells are queued. -/
  | unknown (id : Nat) (surfaces : ColorGroups BoxBatch) (hcells : CellsFit config layout.cells)
      (hsurfaces : SurfacesOf config layout.cells surfaces)
      (hid : LatticeLayout.firstUnknown? layout.cells layout.links = some id) :
      LatticeEnding config layout
        (.stopped (.schedule (.unknownCell id)) (surfacesStaged surfaces))
  /-- Links cannot be drawn. -/
  | undrawn (reason : Refusal) (s : StagedFrame) (hcells : CellsFit config layout.cells)
      (hid : LatticeLayout.firstUnknown? layout.cells layout.links = none)
      (hdrawable : ¬LinksDrawable config layout.links) :
      LatticeEnding config layout (.stopped (.shape reason) s)
  /-- Everything is queued. -/
  | complete (s : StagedFrame) (surfaces : ColorGroups BoxBatch) (groups : ColorGroups LineBatch)
      (hcells : CellsFit config layout.cells)
      (hsurfaces : SurfacesOf config layout.cells surfaces)
      (hid : LatticeLayout.firstUnknown? layout.cells layout.links = none)
      (hgroups : LinksOf layout.cells layout.links groups)
      (hdrawable : LinksDrawable config layout.links)
      (hpayloads : s.payloads = Section.contents (surfaces.map surfaceSection) ++
        Section.contents (groups.map (linkSection config.lineChunkVertices))) :
      LatticeEnding config layout (.done s)

/-- Staging a layout on an empty frame ends in one of the four ways. -/
theorem latticeEnding_stageLattice (config : Config) (layout : LatticeLayout) :
    LatticeEnding config layout (stageLattice config layout .empty) := by
  unfold stageLattice
  -- the cells are taken first, then the links are looked up, and only then are lines cut
  rcases surfaceGroups_cases config layout.cells with
    ⟨hcells, surfaces, hok, hsurfaces⟩ | ⟨hcells, reason, herror⟩
  case inr =>
    rw [herror]
    exact .crowded reason hcells
  rw [hok]
  rcases linkGroups_cases layout with ⟨hid, groups, hlinks, hgroups⟩ | ⟨id, hid, herror⟩
  case inr =>
    rw [herror]
    exact .unknown id surfaces hcells hsurfaces hid
  rw [hlinks]
  by_cases hlimit : 2 ≤ config.lineChunkVertices
  · obtain ⟨t, hdone, hpayloads⟩ :=
      each_stageLinks_of_le hlimit hgroups.isWhole (surfacesStaged surfaces)
    rw [payloads_surfacesStaged] at hpayloads
    refine (congrArg (LatticeEnding config layout) hdone).mpr ?_
    exact .complete t surfaces groups hcells hsurfaces hid hgroups (Or.inr hlimit) hpayloads
  · by_cases hnil : layout.links = []
    · obtain rfl : groups = [] := hgroups.eq_nil_iff.mpr hnil
      refine .complete (surfacesStaged surfaces) surfaces [] hcells hsurfaces hid hgroups
        (Or.inl hnil) ?_
      rw [payloads_surfacesStaged]
      exact (List.append_nil _).symm
    · have hne : groups ≠ [] := mt hgroups.eq_nil_iff.mp hnil
      have herror := each_stageLinks_of_lt (Nat.lt_of_not_le hlimit) hne (surfacesStaged surfaces)
      have hdrawable : ¬LinksDrawable config layout.links := fun h => h.elim hnil hlimit
      refine (congrArg (LatticeEnding config layout) ?_).mpr
        (.undrawn (.invalidChunkSize config.lineChunkVertices)
          (Attempt.each (stageLinks config) (surfacesStaged surfaces) groups).state
          hcells hid hdrawable)
      exact congrArg (Attempt.mk _) herror

/-! ### Results -/

section Results

variable {config : Config} {layout : LatticeLayout}

/-- A layout is staged when its cells fit, its links refer to cells that are there, and the links
can be drawn. -/
theorem LatticeEnding.error?_eq_none_iff {a : StagingAttempt} (h : LatticeEnding config layout a) :
    a.error? = none ↔
      CellsFit config layout.cells ∧
        LatticeLayout.firstUnknown? layout.cells layout.links = none ∧
          LinksDrawable config layout.links := by
  cases h with
  | crowded reason hcells => exact iff_of_false (Option.some_ne_none _) fun h => hcells h.1
  | unknown id surfaces hcells hsurfaces hid =>
    refine iff_of_false (Option.some_ne_none _) fun h => ?_
    rw [hid] at h
    exact Option.some_ne_none _ h.2.1
  | undrawn reason s hcells hid hdrawable =>
    exact iff_of_false (Option.some_ne_none _) fun h => hdrawable h.2.2
  | complete s surfaces groups hcells hsurfaces hid hgroups hdrawable hpayloads =>
    exact iff_of_true rfl ⟨hcells, hid, hdrawable⟩

/-- A number is reported as unknown when the cells fit and it is the first that no cell has. -/
theorem LatticeEnding.error?_eq_unknownCell_iff {a : StagingAttempt}
    (h : LatticeEnding config layout a) (id : Nat) :
    a.error? = some (.schedule (.unknownCell id)) ↔
      CellsFit config layout.cells ∧
        LatticeLayout.firstUnknown? layout.cells layout.links = some id := by
  cases h with
  | crowded reason hcells =>
    exact iff_of_false (fun h => nomatch h) fun h => hcells h.1
  | unknown other surfaces hcells hsurfaces hid =>
    rw [hid]
    constructor
    · rintro ⟨⟩
      exact ⟨hcells, rfl⟩
    · rintro ⟨-, ⟨⟩⟩
      rfl
  | undrawn reason s hcells hid hdrawable =>
    rw [hid]
    exact iff_of_false (fun h => nomatch h) fun h => nomatch h.2
  | complete s surfaces groups hcells hsurfaces hid hgroups hdrawable hpayloads =>
    rw [hid]
    exact iff_of_false (fun h => nomatch h) fun h => nomatch h.2

/-- Every group of cells is one surface, and every group of links one batch. -/
theorem queued_of_stageLattice {s : StagedFrame}
    (h : stageLattice config layout .empty = .done s) :
    List.Forall₂ (IsSurface config layout.cells) (shownColors layout.cells) (s.onLayer .lattice) ∧
      ∃ batches, s.onLayer .latticeLinks = batches.flatten ∧
        List.Forall₂ (IsLinkBatch layout) (colorsOf linkColor layout.links) batches := by
  have hending := latticeEnding_stageLattice config layout
  rw [h] at hending
  obtain ⟨surfaces, groups, hsurfaces, hgroups, hdrawable, hpayloads⟩ :
      ∃ surfaces groups, SurfacesOf config layout.cells surfaces ∧
        LinksOf layout.cells layout.links groups ∧ LinksDrawable config layout.links ∧
          s.payloads = Section.contents (surfaces.map surfaceSection) ++
            Section.contents (groups.map (linkSection config.lineChunkVertices)) := by
    -- only one of the endings is without an error
    generalize hdone : (Attempt.done s : StagingAttempt) = a at hending
    cases hending with
    | crowded reason hcells => exact nomatch congrArg Attempt.error? hdone
    | unknown id surfaces hcells hsurfaces hid => exact nomatch congrArg Attempt.error? hdone
    | undrawn reason s hcells hid hdrawable => exact nomatch congrArg Attempt.error? hdone
    | complete t surfaces groups hcells hsurfaces hid hgroups hdrawable hpayloads =>
      rw [Attempt.done_inj.mp hdone]
      exact ⟨surfaces, groups, hsurfaces, hgroups, hdrawable, hpayloads⟩
  obtain ⟨hlattice, hlinks⟩ := onLayer_of_payloads_eq hpayloads
  rw [hlattice, hlinks]
  have hbatches : Section.contents (groups.map (linkSection config.lineChunkVertices)) =
      (groups.map fun group => (linkSection config.lineChunkVertices group).payloads).flatten := by
    rw [Section.contents, List.flatMap_map]
    rfl
  exact ⟨hsurfaces.forall₂_isSurface, _, hbatches, hgroups.forall₂_isLinkBatch hdrawable⟩

/-- When a link refers to a cell that is not there, the cells are queued, but none of the links. -/
theorem queued_of_unknownCell {id : Nat}
    (h : (stageLattice config layout .empty).error? = some (.schedule (.unknownCell id))) :
    List.Forall₂ (IsSurface config layout.cells) (shownColors layout.cells)
      ((stageLattice config layout .empty).state.onLayer .lattice) ∧
      (stageLattice config layout .empty).state.onLayer .latticeLinks = [] := by
  have hending := latticeEnding_stageLattice config layout
  generalize stageLattice config layout .empty = a at h hending
  cases hending with
  | crowded reason hcells => exact nomatch h
  | unknown other surfaces hcells hsurfaces hid =>
    have hpayloads : (surfacesStaged surfaces).payloads =
        Section.contents (surfaces.map surfaceSection) ++
          Section.contents (([] : ColorGroups LineBatch).map
            (linkSection config.lineChunkVertices)) := by
      rw [payloads_surfacesStaged]
      exact (List.append_nil _).symm
    obtain ⟨hlattice, hlinks⟩ := onLayer_of_payloads_eq hpayloads
    rw [Attempt.state_stopped, hlattice, hlinks]
    exact ⟨hsurfaces.forall₂_isSurface, rfl⟩
  | undrawn reason s hcells hid hdrawable => exact nomatch h
  | complete s surfaces groups hcells hsurfaces hid hgroups hdrawable hpayloads => exact nomatch h

end Results

/-- Staging a layout succeeds if its cells fit, its links refer to cells that are there, and a chunk
of lines can hold a segment if there are links.  Then there is a surface for each colour of cells
with a face to show, in the order in which the colours first appear, with the faces of the cells of
that colour in order, six vertices to a face; and after that come the links of each of their
colours in the same way.  The first reference of a link to a cell that is not there ends the frame
after the surfaces, if the cells fit. -/
theorem stageLattice_groups_by_color (config : Config) (layout : LatticeLayout) :
    (∀ s, stageLattice config layout .empty = .done s →
      List.Forall₂ (IsSurface config layout.cells) (shownColors layout.cells)
        (s.onLayer .lattice) ∧
      total ((s.onLayer .lattice).map Payload.vertexCount) = 6 * Cell.faceTotal layout.cells ∧
      ∃ batches, s.onLayer .latticeLinks = batches.flatten ∧
        List.Forall₂ (IsLinkBatch layout) (colorsOf linkColor layout.links) batches) ∧
    ((stageLattice config layout .empty).error? = none ↔
      CellsFit config layout.cells ∧
        LatticeLayout.firstUnknown? layout.cells layout.links = none ∧
          (layout.links = [] ∨ 2 ≤ config.lineChunkVertices)) ∧
    ∀ id,
      ((stageLattice config layout .empty).error? = some (.schedule (.unknownCell id)) ↔
        CellsFit config layout.cells ∧
          LatticeLayout.firstUnknown? layout.cells layout.links = some id) ∧
      ((stageLattice config layout .empty).error? = some (.schedule (.unknownCell id)) →
        List.Forall₂ (IsSurface config layout.cells) (shownColors layout.cells)
          ((stageLattice config layout .empty).state.onLayer .lattice) ∧
        (stageLattice config layout .empty).state.onLayer .latticeLinks = []) := by
  have hending := latticeEnding_stageLattice config layout
  refine ⟨fun s h => ?_, hending.error?_eq_none_iff, fun id =>
    ⟨hending.error?_eq_unknownCell_iff id, queued_of_unknownCell⟩⟩
  obtain ⟨hsurfaces, hlinks⟩ := queued_of_stageLattice h
  exact ⟨hsurfaces, total_vertexCount_eq hsurfaces, hlinks⟩

/-- Room for one whole cell of each colour, and for one segment in a chunk of lines. -/
def crowdedLayoutConfig : Config :=
  { Config.default with accumulatorCapacity := 36, lineChunkVertices := 3 }

/-- Cells of three colours, one of which shows no face.  Two cells have the same number. -/
def crowdedLayout : LatticeLayout :=
  { cells :=
      [⟨1, ⟨0, 0, 0⟩, "red", none, none⟩, ⟨2, ⟨1, 0, 0⟩, "blue", none, some 65⟩,
        ⟨2, ⟨2, 0, 0⟩, "green", none, some 64⟩, ⟨3, ⟨3, 0, 0⟩, "blue", some 7, some 3⟩]
    links := [⟨1, 2, none⟩, ⟨2, 3, some "red"⟩, ⟨3, 1, some "blue"⟩] }

/-- Nine faces are shown on two surfaces, and with a link to an unknown cell no link is drawn.  The
only face of the first blue cell lies half a unit beyond its centre. -/
theorem stageLattice_groups_by_color_crowded :
    (∃ s, stageLattice crowdedLayoutConfig crowdedLayout .empty = .done s ∧
      (s.onLayer .lattice).map (·.name) = ["lattice-red", "lattice-blue"] ∧
      total ((s.onLayer .lattice).map Payload.vertexCount) = 54 ∧
      (∃ red blue, s.onLayer .lattice = [red, blue] ∧ blue.mesh.positions.toList.take 18 =
        [1.5, 0.5, 0.5, 1.5, -0.5, 0.5, 1.5, 0.5, -0.5,
          1.5, -0.5, 0.5, 1.5, -0.5, -0.5, 1.5, 0.5, -0.5]) ∧
      ∃ blue red, s.onLayer .latticeLinks = blue ++ red ∧ blue ≠ [] ∧ red ≠ [] ∧
        positionsOf red = [2, 0, 0, 3, 0, 0]) ∧
    (stageLattice crowdedLayoutConfig
      { crowdedLayout with links := crowdedLayout.links ++ [⟨3, 9, none⟩] }
        .empty).state.onLayer .latticeLinks = [] := by
  constructor
  · have hdone : stageLattice crowdedLayoutConfig crowdedLayout .empty =
        .done (stageLattice crowdedLayoutConfig crowdedLayout .empty).state :=
      Attempt.eq_done (by decide +kernel)
    obtain ⟨hsurfaces, htotal, batches, hbatches, hlinks⟩ :=
      (stageLattice_groups_by_color crowdedLayoutConfig crowdedLayout).1 _ hdone
    have hshown : shownColors crowdedLayout.cells = ["red", "blue"] := by decide +kernel
    have hcolors : colorsOf linkColor crowdedLayout.links = ["blue", "red"] := by decide +kernel
    rw [hshown] at hsurfaces
    rw [hcolors] at hlinks
    obtain ⟨red, rest, hred, hrest, hboth⟩ := List.forall₂_cons_left_iff.mp hsurfaces
    obtain ⟨blue, others, hblue, hnil, rfl⟩ := List.forall₂_cons_left_iff.mp hrest
    obtain rfl : others = [] := List.forall₂_nil_left_iff.mp hnil
    refine ⟨_, hdone, ?_, htotal, ⟨red, blue, hboth, ?_⟩, ?_⟩
    · rw [hboth, List.map_cons, List.map_cons, hred.name_eq, hblue.name_eq]
      rfl
    · rw [hblue.positions_eq]
      decide +kernel
    · obtain ⟨blue, rest, hblue, hrest, rfl⟩ := List.forall₂_cons_left_iff.mp hlinks
      obtain ⟨red, others, hred, hnil, rfl⟩ := List.forall₂_cons_left_iff.mp hrest
      rw [List.forall₂_nil_left_iff.mp hnil] at hbatches
      refine ⟨blue, red, hbatches.trans (congrArg (blue ++ ·) (List.append_nil red)), hblue.ne_nil,
        hred.ne_nil, ?_⟩
      obtain ⟨segments, hsegments, hpositions⟩ := hred.positions_eq
      have hown : ofColor linkColor "red" crowdedLayout.links = [⟨2, 3, some "red"⟩] := by
        decide +kernel
      rw [hown] at hsegments
      obtain ⟨segment, tail, hjoins, htail, rfl⟩ := List.forall₂_cons_left_iff.mp hsegments
      obtain ⟨source, target, hsource, htarget, rfl⟩ := hjoins
      obtain rfl : ⟨2, ⟨2, 0, 0⟩, "green", none, some 64⟩ = source := Option.some.inj hsource
      obtain rfl : ⟨3, ⟨3, 0, 0⟩, "blue", some 7, some 3⟩ = target := Option.some.inj htarget
      rw [hpositions, List.forall₂_nil_left_iff.mp htail]
      rfl
  · exact (((stageLattice_groups_by_color crowdedLayoutConfig
      { crowdedLayout with links := crowdedLayout.links ++ [⟨3, 9, none⟩] }).2.2 9).2
        (by decide +kernel)).2

end LatticeScene.Staging
