import LatticeScene.Staging.Lattice
import LatticeScene.Proofs.Schedule.Lattice
import LatticeScene.Proofs.Staging.CenteredBoxes
import LatticeScene.Proofs.Staging.ColorGroups
import LatticeScene.Proofs.Staging.Queue
import LatticeScene.Attempt

/-!
# The surfaces of a lattice layout

The cells of one colour are one batch of boxes.  Its vertices are `surfaceVertices`, cell by cell
and face by face.  The cells of a layout are all taken if a batch can be made at all and the faces
of each colour fit into it, `CellsFit`, and otherwise the first cell that does not fit ends the
frame (`surfaceGroups_cases`).
-/

namespace LatticeScene.Staging

open Shape Schedule

/-! ### Cells of one colour -/

/-- The vertices of cells: the triangles of their faces, cell by cell. -/
def surfaceVertices (config : Config) (cells : List Cell) : List (Vec3 Float32) :=
  cells.flatMap fun cell => cell.selectedFaces.flatMap fun face =>
    (face.quad cell.position (Vec3.splat config.pieces.unitSize)).triangles

/-- All cells can be taken: batches can be made, and each colour fits into one. -/
def CellsFit (config : Config) (cells : List Cell) : Prop :=
  (cells = [] ∨ config.accumulatorCapacity ≤ maxBatchVertices) ∧
    ∀ name, 6 * Cell.faceTotal (ofColor Cell.color name cells) ≤ config.accumulatorCapacity

section Vertices

variable (config : Config)

/-- The faces that a cell shows are drawn around its position, with its unit size. -/
theorem triangles_shownFaces (cell : Cell) :
    cell.shownFaces.triangles cell.position (Vec3.splat config.pieces.unitSize) =
      surfaceVertices config [cell] := by
  rw [FaceSet.triangles, Cell.faces_shownFaces, surfaceVertices, List.flatMap_cons,
    List.flatMap_nil, List.append_nil]

/-- The vertices of more cells come after those of the cells in front. -/
theorem surfaceVertices_append (cells others : List Cell) :
    surfaceVertices config (cells ++ others) =
      surfaceVertices config cells ++ surfaceVertices config others := List.flatMap_append

/-- There are six vertices to each face that cells show. -/
theorem length_surfaceVertices (cells : List Cell) :
    (surfaceVertices config cells).length = 6 * Cell.faceTotal cells := by
  induction cells with
  | nil => rfl
  | cons cell cells ih =>
    have hcell : (surfaceVertices config [cell]).length = 6 * cell.selectedFaces.length := by
      rw [← triangles_shownFaces, FaceSet.length_triangles, Cell.faces_shownFaces]
    have hcons : surfaceVertices config (cell :: cells) =
        surfaceVertices config [cell] ++ surfaceVertices config cells :=
      surfaceVertices_append config [cell] cells
    have htotal : Cell.faceTotal (cell :: cells) =
        cell.selectedFaces.length + Cell.faceTotal cells := rfl
    rw [hcons, List.length_append, hcell, ih, htotal]
    omega

end Vertices

/-! ### Taking cells -/

/-- The batches of cells: one for each colour, with the vertices of its cells. -/
def SurfacesOf (config : Config) (cells : List Cell) (surfaces : ColorGroups BoxBatch) : Prop :=
  ColorGroups.Grouped Cell.color (fun batch own =>
    batch.Holds config.accumulatorCapacity (surfaceVertices config own)) cells surfaces

section Cells

variable {config : Config} {cells : List Cell} {surfaces : ColorGroups BoxBatch}

/-- No cells fit in any case. -/
theorem cellsFit_nil : CellsFit config [] :=
  ⟨Or.inl rfl, fun _ => Nat.zero_le _⟩

/-- One more cell fits if the batch of its colour has room for its faces. -/
theorem cellsFit_append_singleton (cell : Cell) :
    CellsFit config (cells ++ [cell]) ↔
      CellsFit config cells ∧ config.accumulatorCapacity ≤ maxBatchVertices ∧
        6 * Cell.faceTotal (ofColor Cell.color cell.color cells) + 6 * cell.selectedFaces.length ≤
          config.accumulatorCapacity := by
  have hself : Cell.faceTotal (ofColor Cell.color cell.color (cells ++ [cell])) =
      Cell.faceTotal (ofColor Cell.color cell.color cells) + cell.selectedFaces.length := by
    rw [ofColor_append_self, Cell.faceTotal, List.map_append, total_append]
    rfl
  constructor
  · rintro ⟨hcapacity, hrooms⟩
    have hmax : config.accumulatorCapacity ≤ maxBatchVertices := by
      rcases hcapacity with hnil | hmax
      · exact absurd hnil (List.append_ne_nil_of_right_ne_nil _ (List.cons_ne_nil _ _))
      · exact hmax
    have hroom := hrooms cell.color
    rw [hself] at hroom
    refine ⟨⟨Or.inr hmax, fun name => ?_⟩, hmax, by omega⟩
    -- only the colour of the new cell takes more room
    by_cases hname : cell.color = name
    · rw [← hname]
      omega
    · have hother := hrooms name
      rwa [ofColor_append_of_ne cells hname] at hother
  · rintro ⟨⟨-, hrooms⟩, hmax, hroom⟩
    refine ⟨Or.inr hmax, fun name => ?_⟩
    by_cases hname : cell.color = name
    · rw [← hname, hself]
      omega
    · rw [ofColor_append_of_ne cells hname]
      exact hrooms name

/-- The batch that a cell is added to. -/
def batchFor (config : Config) (surfaces : ColorGroups BoxBatch) (cell : Cell) :
    Except Failure BoxBatch :=
  match surfaces.content? cell.color with
  | some batch => .ok batch
  | none => newBatch config

/-- Adding a cell takes the batch of its colour, adds the faces of the cell, and puts the batch
back. -/
theorem addCell_eq (config : Config) (surfaces : ColorGroups BoxBatch) (cell : Cell) :
    addCell config surfaces cell =
      (batchFor config surfaces cell >>= fun batch => addFaces batch cell.shownFaces cell.position
        (Vec3.splat config.pieces.unitSize)).map fun batch => surfaces.put cell.color batch := by
  rw [addCell, ColorGroups.change_eq, batchFor]
  cases surfaces.content? cell.color with
  | none => rfl
  | some batch => rfl

/-- A batch holds the cells of the colour that came before. -/
theorem SurfacesOf.exists_batchFor (h : SurfacesOf config cells surfaces)
    (hmax : config.accumulatorCapacity ≤ maxBatchVertices) (cell : Cell) :
    ∃ batch, batchFor config surfaces cell = .ok batch ∧
      batch.Holds config.accumulatorCapacity
        (surfaceVertices config (ofColor Cell.color cell.color cells)) := by
  unfold batchFor
  rcases h.content?_cases cell.color with ⟨hnone, hown⟩ | ⟨batch, hsome, hholds⟩
  · rw [hnone, hown]
    exact exists_newBatch hmax
  · rw [hsome]
    exact ⟨batch, rfl, hholds⟩

/-- Every batch holds the vertices of some of the cells. -/
theorem SurfacesOf.exists_holds (h : SurfacesOf config cells surfaces) {surface : String × BoxBatch}
    (hsurface : surface ∈ surfaces) :
    ∃ own, surface.2.Holds config.accumulatorCapacity (surfaceVertices config own) := by
  obtain ⟨name, hholds⟩ := ColorGroups.Grouped.exists_of_mem h hsurface
  exact ⟨_, hholds⟩

/-- A cell that fits joins the cells of its colour. -/
theorem SurfacesOf.addCell_of_fits (h : SurfacesOf config cells surfaces) {cell : Cell}
    (hfit : CellsFit config (cells ++ [cell])) :
    ∃ next, addCell config surfaces cell = .ok next ∧
      SurfacesOf config (cells ++ [cell]) next := by
  obtain ⟨-, hmax, hroom⟩ := (cellsFit_append_singleton cell).mp hfit
  obtain ⟨batch, hbatch, hholds⟩ := h.exists_batchFor hmax cell
  have hfaces : cell.shownFaces.count * verticesPerFace ≤ config.accumulatorCapacity -
      (surfaceVertices config (ofColor Cell.color cell.color cells)).length := by
    rw [Cell.count_shownFaces, length_surfaceVertices, verticesPerFace]
    omega
  obtain ⟨next, hnext, hadded⟩ :=
    hholds.addBox_of_fits hfaces cell.position (Vec3.splat config.pieces.unitSize)
  refine ⟨surfaces.put cell.color next, ?_, ?_⟩
  · rw [addCell_eq, hbatch]
    simp only [bind, Except.bind, addFaces, hnext]
    rfl
  · rw [triangles_shownFaces, ← surfaceVertices_append] at hadded
    exact ColorGroups.Grouped.put h cell hadded

/-- A cell that does not fit is refused. -/
theorem SurfacesOf.addCell_of_not_fits (h : SurfacesOf config cells surfaces)
    (hcells : CellsFit config cells) {cell : Cell} (hfit : ¬CellsFit config (cells ++ [cell])) :
    ∃ reason, addCell config surfaces cell = .error (.shape reason) := by
  rw [addCell_eq]
  by_cases hmax : config.accumulatorCapacity ≤ maxBatchVertices
  · obtain ⟨batch, hbatch, hholds⟩ := h.exists_batchFor hmax cell
    have hfaces : ¬cell.shownFaces.count * verticesPerFace ≤ config.accumulatorCapacity -
        (surfaceVertices config (ofColor Cell.color cell.color cells)).length := by
      intro hfaces
      refine hfit ((cellsFit_append_singleton cell).mpr ⟨hcells, hmax, ?_⟩)
      have hroom := hcells.2 cell.color
      rw [Cell.count_shownFaces, length_surfaceVertices, verticesPerFace] at hfaces
      omega
    have hrefused := hholds.addBox_eq cell.shownFaces cell.position
      (Vec3.splat config.pieces.unitSize)
    rw [if_neg hfaces] at hrefused
    rw [hbatch]
    simp only [bind, Except.bind, addFaces, hrefused]
    exact ⟨_, rfl⟩
  · -- no batch can be made, so there is none yet
    have hnone : cells = [] := hcells.1.resolve_right hmax
    have hempty : surfaces = [] := by
      subst hnone
      exact List.forall₂_nil_left_iff.mp h
    rw [hempty]
    have hnew : batchFor config [] cell =
        .error (.shape (.invalidCapacity config.accumulatorCapacity)) := by
      exact newBatch_of_lt (Nat.lt_of_not_le hmax)
    rw [hnew]
    exact ⟨_, rfl⟩

end Cells

/-- All cells are taken if they fit.  Otherwise the frame ends with a refusal. -/
theorem surfaceGroups_cases (config : Config) (cells : List Cell) :
    (CellsFit config cells ∧ ∃ surfaces, surfaceGroups config cells = .ok surfaces ∧
      SurfacesOf config cells surfaces) ∨
      (¬CellsFit config cells ∧ ∃ reason, surfaceGroups config cells = .error (.shape reason)) := by
  induction cells using List.reverseRecOn with
  | nil => exact Or.inl ⟨cellsFit_nil, [], rfl, ColorGroups.grouped_nil⟩
  | append_singleton cells cell ih =>
    have hstep : surfaceGroups config (cells ++ [cell]) =
        surfaceGroups config cells >>= fun surfaces => addCell config surfaces cell :=
      foldlM_append_singleton _ _ _ _
    rw [hstep]
    rcases ih with ⟨hcells, surfaces, hok, hsurfaces⟩ | ⟨hcells, reason, herror⟩
    · rw [hok]
      by_cases hfit : CellsFit config (cells ++ [cell])
      · exact Or.inl ⟨hfit, hsurfaces.addCell_of_fits hfit⟩
      · exact Or.inr ⟨hfit, hsurfaces.addCell_of_not_fits hcells hfit⟩
    · rw [herror]
      refine Or.inr ⟨?_, reason, rfl⟩
      exact fun hfit => hcells ((cellsFit_append_singleton cell).mp hfit).1

/-! ### Staging the surfaces -/

/-- The section of the cells of one colour. -/
def surfaceSection (surface : String × BoxBatch) : Section :=
  .ofPayload (batchPayload s!"lattice-{surface.1}" .lattice (.cells surface.1) surface.2)

/-- Surfaces are queued one after the other. -/
theorem payloads_foldl_stageSurface (surfaces : ColorGroups BoxBatch) (s : StagedFrame) :
    (surfaces.foldl StagedFrame.stageSurface s).payloads =
      s.payloads ++ Section.contents (surfaces.map surfaceSection) := by
  induction surfaces generalizing s with
  | nil => exact (List.append_nil _).symm
  | cons surface surfaces ih =>
    have hfirst : (s.stageSurface surface).payloads =
        s.payloads ++ (surfaceSection surface).payloads := by
      rw [StagedFrame.stageSurface, StagedFrame.stageBatch, StagedFrame.payloads_stage,
        StagedFrame.payloads_includeBounds]
      rfl
    rw [List.foldl_cons, ih, hfirst, List.map_cons, Section.contents_cons, List.append_assoc]

/-- The payload of a colour: the faces of all its cells, with every vertex drawn once in order. -/
structure IsSurface (config : Config) (cells : List Cell) (name : String) (p : Payload) : Prop where
  name_eq : p.name = s!"lattice-{name}"
  style_eq : p.style = .cells name
  primitive_eq : p.primitive = .triangles
  positions_eq : p.mesh.positions.toList =
    (surfaceVertices config (ofColor Cell.color name cells)).flatMap Vec3.toList
  indices_eq : p.mesh.indices.toList.map UInt32.toNat =
    List.range (6 * Cell.faceTotal (ofColor Cell.color name cells))

/-- The colours of cells that show a face, in the order of first appearance. -/
def shownColors (cells : List Cell) : List String :=
  (colorsOf Cell.color cells).filter fun name =>
    ∃ cell ∈ cells, cell.color = name ∧ cell.selectedFaces ≠ []

section Payloads

variable {config : Config} {cells : List Cell} {name : String}

/-- Cells show no face only if none of them does. -/
theorem faceTotal_ofColor_eq_zero_iff :
    Cell.faceTotal (ofColor Cell.color name cells) = 0 ↔
      ¬∃ cell ∈ cells, cell.color = name ∧ cell.selectedFaces ≠ [] := by
  rw [Cell.faceTotal, total_eq_zero_iff]
  constructor
  · rintro hzero ⟨cell, hcell, hcolor, hfaces⟩
    have hmem : cell ∈ ofColor Cell.color name cells :=
      List.mem_filter.mpr ⟨hcell, beq_iff_eq.mpr hcolor⟩
    exact hfaces (List.length_eq_zero_iff.mp (hzero _ (List.mem_map_of_mem hmem)))
  · intro hnone n hn
    obtain ⟨cell, hmem, rfl⟩ := List.mem_map.mp hn
    obtain ⟨hcell, hcolor⟩ := List.mem_filter.mp hmem
    by_contra hne
    exact hnone ⟨cell, hcell, beq_iff_eq.mp hcolor, mt List.length_eq_zero_iff.mpr hne⟩

variable {batch : BoxBatch}

/-- The payload of a batch that holds the cells of a colour is the surface of that colour. -/
theorem isSurface_batchPayload (h : batch.Holds config.accumulatorCapacity
    (surfaceVertices config (ofColor Cell.color name cells))) :
    IsSurface config cells name
      (batchPayload s!"lattice-{name}" .lattice (.cells name) batch) where
  name_eq := rfl
  style_eq := rfl
  primitive_eq := rfl
  positions_eq := h.positions_toMesh
  indices_eq := by
    rw [← length_surfaceVertices config]
    exact h.indices_toMesh

/-- A surface has six vertices to each face that its cells show. -/
theorem IsSurface.vertexCount_eq {p : Payload} (h : IsSurface config cells name p) :
    p.vertexCount = 6 * Cell.faceTotal (ofColor Cell.color name cells) := by
  have hsize : p.mesh.positions.size =
      3 * (6 * Cell.faceTotal (ofColor Cell.color name cells)) := by
    rw [← Array.length_toList, h.positions_eq, length_flatMap_toList, length_surfaceVertices]
  rw [Payload.vertexCount, Mesh.vertexCount, hsize]
  omega

/-- A surface is empty when its cells show no face. -/
theorem IsSurface.isEmpty_iff {p : Payload} (h : IsSurface config cells name p) :
    p.mesh.isEmpty = true ↔ Cell.faceTotal (ofColor Cell.color name cells) = 0 := by
  have hlength : p.mesh.positions.toList.length =
      3 * (6 * Cell.faceTotal (ofColor Cell.color name cells)) := by
    rw [h.positions_eq, length_flatMap_toList, length_surfaceVertices]
  rw [Mesh.isEmpty, Array.isEmpty_iff_size_eq_zero, ← Array.length_toList, hlength]
  omega

end Payloads

section Queue

variable {config : Config} {cells : List Cell}

/-- The queued surfaces are those of the colours that show a face. -/
theorem SurfacesOf.forall₂_isSurface {surfaces : ColorGroups BoxBatch}
    (h : SurfacesOf config cells surfaces) :
    List.Forall₂ (IsSurface config cells) (shownColors cells)
      (Section.contents (surfaces.map surfaceSection)) := by
  unfold SurfacesOf ColorGroups.Grouped at h
  unfold shownColors
  -- only the colours shrink in the induction, and the cells stay
  generalize colorsOf Cell.color cells = names at h ⊢
  induction h with
  | nil => exact .nil
  | @cons name surface names surfaces hfirst hrest ih =>
    obtain ⟨rfl, hholds⟩ := hfirst
    have hsurface := isSurface_batchPayload hholds
    rw [List.map_cons, Section.contents_cons]
    by_cases hshown : ∃ cell ∈ cells, cell.color = surface.1 ∧ cell.selectedFaces ≠ []
    · have hqueued : (surfaceSection surface).payloads =
          [batchPayload s!"lattice-{surface.1}" .lattice (.cells surface.1) surface.2] := by
        refine if_neg ?_
        rw [hsurface.isEmpty_iff, faceTotal_ofColor_eq_zero_iff, not_not]
        exact hshown
      rw [List.filter_cons_of_pos (by simpa using hshown), hqueued]
      exact .cons hsurface ih
    · have hqueued : (surfaceSection surface).payloads = [] := by
        refine if_pos ?_
        rw [hsurface.isEmpty_iff, faceTotal_ofColor_eq_zero_iff]
        exact hshown
      rw [List.filter_cons_of_neg (by simpa using hshown), hqueued]
      exact ih

/-- Surfaces have six vertices to each face that the cells of their colours show. -/
theorem map_vertexCount_eq {names : List String} {ps : List Payload}
    (h : List.Forall₂ (IsSurface config cells) names ps) :
    ps.map Payload.vertexCount =
      names.map fun name => 6 * Cell.faceTotal (ofColor Cell.color name cells) := by
  induction h with
  | nil => rfl
  | cons hfirst _ ih => rw [List.map_cons, List.map_cons, ih, hfirst.vertexCount_eq]

/-- Six vertices are queued for every face that is shown. -/
theorem total_vertexCount_eq {ps : List Payload}
    (h : List.Forall₂ (IsSurface config cells) (shownColors cells) ps) :
    total (ps.map Payload.vertexCount) = 6 * Cell.faceTotal cells := by
  have hshown : total ((shownColors cells).map fun name =>
        6 * Cell.faceTotal (ofColor Cell.color name cells)) =
      total ((colorsOf Cell.color cells).map fun name =>
        6 * Cell.faceTotal (ofColor Cell.color name cells)) := by
    refine total_map_filter fun name _ hnone => ?_
    rw [faceTotal_ofColor_eq_zero_iff.mpr (of_decide_eq_false hnone)]
  rw [map_vertexCount_eq h, hshown, total_map_mul]
  exact congrArg (6 * ·) (total_map_ofColor _ cells)

end Queue

end LatticeScene.Staging
