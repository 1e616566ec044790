import LatticeScene.Staging.StagedFrame
import LatticeScene.Proofs.Shape.LineBatch
import Mathlib.Data.List.Nodup

/-!
# What staging appends

Staging a payload appends it to the queue, unless it has no positions (`payloads_stage`).  Staging a
batch of lines is refused when the limit does not permit a segment, and otherwise appends the
payloads of all its chunks (`stageLines_of_le`).

Of the payloads of a batch of lines, those of any one of its strokes have the positions of the
batch, in order (`positionsOf_filter_linePayloads`), whatever the chunks are.  So a batch that is
drawn in several strokes is drawn whole in each of them.
-/

namespace LatticeScene.Staging

open Shape

/-! ### Queueing -/

/-- A payload as it is queued: not at all when it has no positions. -/
def queued (p : Payload) : List Payload := if p.mesh.isEmpty then [] else [p]

/-- What is queued of a payload is the payload itself, if its mesh is not empty. -/
theorem mem_queued_iff {p q : Payload} : q ∈ queued p ↔ p.mesh.isEmpty = false ∧ q = p := by
  unfold queued
  by_cases hempty : p.mesh.isEmpty = true
  · rw [if_pos hempty, hempty]
    exact iff_of_false List.not_mem_nil fun h => nomatch h.1
  · rw [if_neg hempty, List.mem_singleton]
    exact ⟨fun h => ⟨Bool.eq_false_iff.mpr hempty, h⟩, fun h => h.2⟩

/-- Nothing but the payload itself is queued. -/
theorem mem_queued {p q : Payload} (h : q ∈ queued p) : q = p := (mem_queued_iff.mp h).2

/-- A payload is queued once at most. -/
theorem length_queued_le (p : Payload) : (queued p).length ≤ 1 := by
  unfold queued
  split
  · exact Nat.zero_le 1
  · exact Nat.le_refl 1

namespace StagedFrame

/-- Staging a payload appends it as it is queued, and changes nothing else. -/
theorem stage_eq (s : StagedFrame) (p : Payload) :
    s.stage p = { s with payloads := s.payloads ++ queued p } := by
  rw [stage, queued]
  split
  · rw [List.append_nil]
  · rfl

/-- Staged payloads come after those that were there. -/
theorem payloads_stage (s : StagedFrame) (p : Payload) :
    (s.stage p).payloads = s.payloads ++ queued p := by
  rw [stage_eq]

/-- Staging a payload leaves the bounds alone. -/
@[simp] theorem bounds_stage (s : StagedFrame) (p : Payload) : (s.stage p).bounds = s.bounds := by
  rw [stage_eq]

/-- Including bounds leaves the payloads alone. -/
@[simp] theorem payloads_includeBounds (s : StagedFrame) (bounds : Envelope) :
    (s.includeBounds bounds).payloads = s.payloads := rfl

/-- Payloads are queued in order. -/
theorem stageAll_eq_queued (s : StagedFrame) (ps : List Payload) :
    s.stageAll ps = { s with payloads := s.payloads ++ ps.flatMap queued } := by
  induction ps generalizing s with
  | nil => rw [List.flatMap_nil, List.append_nil]; rfl
  | cons p ps ih =>
    have hcons : s.stageAll (p :: ps) = (s.stage p).stageAll ps := rfl
    rw [hcons, ih, stage_eq, List.flatMap_cons, List.append_assoc]

/-- Staging payloads leaves the bounds alone. -/
@[simp] theorem bounds_stageAll (s : StagedFrame) (ps : List Payload) :
    (s.stageAll ps).bounds = s.bounds := by
  rw [stageAll_eq_queued]

/-- Payloads that have positions are all queued. -/
theorem stageAll_eq (s : StagedFrame) {ps : List Payload}
    (h : ∀ p ∈ ps, p.mesh.isEmpty = false) :
    s.stageAll ps = { s with payloads := s.payloads ++ ps } := by
  have hqueued : ∀ p ∈ ps, queued p = [p] := by
    intro p hp
    rw [queued, h p hp, if_neg Bool.false_ne_true]
  rw [stageAll_eq_queued, List.flatMap_congr hqueued, List.flatMap_singleton']

end StagedFrame

/-! ### Payloads of lines -/

/-- The positions of payloads, one after the other. -/
def positionsOf (ps : List Payload) : List Float32 := ps.flatMap (·.mesh.positions.toList)

/-- Only positions that are not there are not queued. -/
theorem positionsOf_queued (p : Payload) : positionsOf (queued p) = p.mesh.positions.toList := by
  unfold queued
  by_cases hempty : p.mesh.isEmpty = true
  · have hnone : p.mesh.positions = #[] := Array.isEmpty_iff.mp hempty
    rw [if_pos hempty, hnone]
    rfl
  · rw [if_neg hempty]
    exact List.append_nil _

/-- The style in which a stroke is painted. -/
def Stroke.style (stroke : Stroke) : Style := .line stroke.color stroke.width

/-- Different strokes are painted in different styles. -/
theorem Stroke.style_inj {stroke other : Stroke} : stroke.style = other.style ↔ stroke = other := by
  constructor
  · intro h
    obtain ⟨color, width⟩ := stroke
    obtain ⟨color', width'⟩ := other
    simp only [Stroke.style, Style.line, Style.mk.injEq, true_and] at h
    rw [h.1, h.2]
  · intro h
    rw [h]

/-- The payloads that draw the chunk with number `i`, one for each stroke. -/
def passes (name : String) (layer : Layer) (strokes : List Stroke) (chunk : Mesh) (i first : Nat) :
    List Payload :=
  (strokes.zipIdx first).map fun (stroke, pass) =>
    Payload.ofMesh s!"{name}-{i}-{pass}" layer .lines chunk (.line stroke.color stroke.width)

/-- The payloads of lines are those of the chunks, one chunk after the other. -/
theorem linePayloads_eq_flatMap (name : String) (layer : Layer) (strokes : List Stroke)
    (chunks : List Mesh) :
    linePayloads name layer strokes chunks =
      chunks.zipIdx.flatMap fun (chunk, i) => passes name layer strokes chunk i 0 := rfl

section Passes

variable {name : String} {layer : Layer} {strokes : List Stroke} {chunk : Mesh}

/-- Lines are drawn as pairs of vertices without normals. -/
theorem primitive_of_mem_passes {i first : Nat} {p : Payload}
    (h : p ∈ passes name layer strokes chunk i first) :
    p.primitive = .lines ∧ p.normals = none := by
  obtain ⟨numbered, -, rfl⟩ := List.mem_map.mp h
  exact ⟨rfl, rfl⟩

/-- A payload that draws a chunk is on the given layer, in one of the strokes, and named after the
batch. -/
theorem of_mem_passes {i first : Nat} {p : Payload}
    (h : p ∈ passes name layer strokes chunk i first) :
    p.layer = layer ∧ (∃ stroke ∈ strokes, p.style = stroke.style) ∧ p.mesh = chunk ∧
      name.toList ++ ['-'] <+: p.name.toList := by
  obtain ⟨⟨stroke, pass⟩, hstroke, rfl⟩ := List.mem_map.mp h
  refine ⟨rfl, ⟨stroke, List.fst_mem_of_mem_zipIdx hstroke, rfl⟩, rfl, ?_⟩
  refine ⟨(toString i ++ "-" ++ toString pass).toList, ?_⟩
  simp [Payload.ofMesh, String.toList_append, toString]

/-- A chunk is drawn once in each stroke. -/
theorem positionsOf_filter_passes (hnodup : strokes.Nodup) {stroke : Stroke}
    (hmem : stroke ∈ strokes) (i first : Nat) :
    positionsOf ((passes name layer strokes chunk i first).filter (·.style == stroke.style)) =
      chunk.positions.toList := by
  induction strokes generalizing first with
  | nil => exact absurd hmem List.not_mem_nil
  | cons other strokes ih =>
    rw [List.nodup_cons] at hnodup
    have hcons : passes name layer (other :: strokes) chunk i first =
        .ofMesh s!"{name}-{i}-{first}" layer .lines chunk other.style ::
          passes name layer strokes chunk i (first + 1) := rfl
    rw [hcons]
    by_cases hother : other = stroke
    -- strokes are all different, so that no later pass is in this style
    · have hrest : (passes name layer strokes chunk i (first + 1)).filter
          (·.style == stroke.style) = [] := by
        refine List.filter_eq_nil_iff.mpr fun p hp => ?_
        obtain ⟨-, ⟨drawn, hdrawn, hstyle⟩, -, -⟩ := of_mem_passes hp
        rw [hstyle, beq_iff_eq, Stroke.style_inj]
        rintro rfl
        exact hnodup.1 (hother ▸ hdrawn)
      rw [List.filter_cons_of_pos (by rw [hother]; exact beq_self_eq_true _), hrest]
      exact List.append_nil _
    · have hne : ¬(other.style == stroke.style) = true := by
        rw [beq_iff_eq, Stroke.style_inj]
        exact hother
      refine (congrArg positionsOf (List.filter_cons_of_neg hne)).trans ?_
      exact ih hnodup.2 ((List.mem_cons.mp hmem).resolve_left (Ne.symm hother)) (first + 1)

end Passes

section Payloads

variable {name : String} {layer : Layer} {strokes : List Stroke} {chunks : List Mesh}

/-- Every payload of a batch of lines is on its layer, in one of its strokes, and has a name that
begins with that of the batch and a dash. -/
theorem of_mem_linePayloads {p : Payload} (h : p ∈ linePayloads name layer strokes chunks) :
    p.layer = layer ∧ (∃ stroke ∈ strokes, p.style = stroke.style) ∧ p.mesh ∈ chunks ∧
      name.toList ++ ['-'] <+: p.name.toList := by
  obtain ⟨⟨chunk, i⟩, hchunk, hp⟩ := List.mem_flatMap.mp h
  obtain ⟨hlayer, hstyle, hmesh, hname⟩ := of_mem_passes hp
  refine ⟨hlayer, hstyle, ?_, hname⟩
  rw [hmesh]
  exact List.fst_mem_of_mem_zipIdx hchunk

/-- Payloads of lines are drawn as lines, without normals. -/
theorem primitive_of_mem_linePayloads {p : Payload}
    (h : p ∈ linePayloads name layer strokes chunks) : p.primitive = .lines ∧ p.normals = none := by
  obtain ⟨numbered, -, hp⟩ := List.mem_flatMap.mp h
  exact primitive_of_mem_passes hp

/-- In each of its strokes a batch of lines is drawn whole. -/
theorem positionsOf_filter_linePayloads (hnodup : strokes.Nodup) {stroke : Stroke}
    (hmem : stroke ∈ strokes) :
    positionsOf ((linePayloads name layer strokes chunks).filter (·.style == stroke.style)) =
      chunks.flatMap (·.positions.toList) := by
  calc positionsOf ((linePayloads name layer strokes chunks).filter (·.style == stroke.style))
    _ = chunks.zipIdx.flatMap fun numbered =>
          positionsOf ((passes name layer strokes numbered.1 numbered.2 0).filter
            (·.style == stroke.style)) := by
        rw [linePayloads_eq_flatMap, positionsOf, List.filter_flatMap, List.flatMap_assoc]
        rfl
    _ = chunks.zipIdx.flatMap fun numbered => numbered.1.positions.toList :=
        List.flatMap_congr fun numbered _ => positionsOf_filter_passes hnodup hmem numbered.2 0
    _ = (chunks.zipIdx.map Prod.fst).flatMap (·.positions.toList) := by rw [List.flatMap_map]
    _ = chunks.flatMap (·.positions.toList) := by rw [List.zipIdx_map_fst]

/-- A batch of lines in one stroke is drawn once. -/
theorem map_mesh_linePayloads_singleton (stroke : Stroke) :
    (linePayloads name layer [stroke] chunks).map (·.mesh) = chunks := by
  rw [linePayloads_eq_flatMap, List.map_flatMap]
  have hpass : (fun numbered : Mesh × Nat =>
      (passes name layer [stroke] numbered.1 numbered.2 0).map (·.mesh)) =
        fun numbered => [numbered.1] := rfl
  rw [hpass, ← List.map_eq_flatMap, List.zipIdx_map_fst]

/-- In a single stroke the positions of each chunk are drawn once. -/
theorem positionsOf_linePayloads_singleton (stroke : Stroke) :
    positionsOf (linePayloads name layer [stroke] chunks) =
      chunks.flatMap (·.positions.toList) := by
  have hmeshes : positionsOf (linePayloads name layer [stroke] chunks) =
      ((linePayloads name layer [stroke] chunks).map (·.mesh)).flatMap (·.positions.toList) := by
    rw [List.flatMap_map]
    rfl
  rw [hmeshes, map_mesh_linePayloads_singleton]

end Payloads

/-! ### Staging lines -/

section StageLines

variable {config : Config} (name : String) (layer : Layer) (strokes : List Stroke)
  (batch : LineBatch) (s : StagedFrame)

/-- A limit that does not permit a segment is refused. -/
theorem stageLines_of_lt (h : config.lineChunkVertices < 2) :
    stageLines config name layer strokes batch s =
      .stopped (.shape (.invalidChunkSize config.lineChunkVertices)) s := by
  rw [stageLines, LineBatch.intoChunks_of_lt h]
  rfl

/-- Under any other limit the payloads of all chunks are queued. -/
theorem stageLines_of_le (h : 2 ≤ config.lineChunkVertices) (hbatch : batch.IsWhole) :
    stageLines config name layer strokes batch s =
      .done { s with
        payloads := s.payloads ++
          linePayloads name layer strokes (batch.drawn config.lineChunkVertices) } := by
  have hmeshes : ∀ p ∈ linePayloads name layer strokes (batch.drawn config.lineChunkVertices),
      p.mesh.isEmpty = false := by
    intro p hp
    obtain ⟨-, -, hmem, -⟩ := of_mem_linePayloads hp
    exact LineBatch.isEmpty_of_mem_drawn h hbatch hmem
  rw [stageLines, LineBatch.intoChunks_of_le h, ← s.stageAll_eq hmeshes]
  rfl

end StageLines

/-!
## Sections of a queue

A builder queues its payloads in sections.  The payloads of a `Section` are on one layer, and their
names begin with one stem.  Selecting a layer from a queue selects the sections on that layer
(`filter_layer_contents`).  Selecting a stem selects the sections of that stem, provided that no
other stem begins with it or is the beginning of it (`filter_stem_contents`).
-/

/-- Whether the name of a payload begins with a stem. -/
def Payload.hasStem (stem : String) (p : Payload) : Bool := stem.toList.isPrefixOf p.name.toList

/-- Consecutive payloads on one layer, with names that have one stem. -/
structure Section where
  layer : Layer
  stem : String
  payloads : List Payload
  layer_eq : ∀ p ∈ payloads, p.layer = layer
  hasStem : ∀ p ∈ payloads, p.hasStem stem = true

/-- Neither stem is the beginning of the other. -/
def Apart (stem other : String) : Prop :=
  ¬stem.toList <+: other.toList ∧ ¬other.toList <+: stem.toList

instance (stem other : String) : Decidable (Apart stem other) :=
  inferInstanceAs (Decidable (¬stem.toList <+: other.toList ∧ ¬other.toList <+: stem.toList))

/-- Stems that are apart are different. -/
theorem Apart.ne {stem other : String} (h : Apart stem other) : other ≠ stem := by
  rintro rfl
  exact h.1 List.prefix_rfl

/-- Stems that are apart stay so when one of them goes on. -/
theorem Apart.extend {stem other longer : String} (h : Apart stem other)
    (hlonger : stem.toList <+: longer.toList) : Apart longer other := by
  constructor
  · intro hprefix
    exact h.1 (hlonger.trans hprefix)
  · intro hprefix
    rcases List.prefix_or_prefix_of_prefix hlonger hprefix with hfirst | hsecond
    · exact h.1 hfirst
    · exact h.2 hsecond

namespace Section

/-- The payloads of sections, one section after the other. -/
def contents (sections : List Section) : List Payload := sections.flatMap (·.payloads)

@[simp] theorem contents_nil : contents [] = [] := rfl

@[simp] theorem contents_cons (part : Section) (sections : List Section) :
    contents (part :: sections) = part.payloads ++ contents sections := rfl

/-- The payloads of more sections come after those of the sections in front. -/
@[simp] theorem contents_append (sections others : List Section) :
    contents (sections ++ others) = contents sections ++ contents others := List.flatMap_append

/-- A selection that each section passes as a whole, or not at all, selects sections. -/
theorem filter_contents {keep : Payload → Bool} {select : Section → Bool}
    {sections : List Section}
    (h : ∀ part ∈ sections, ∀ p ∈ part.payloads, keep p = select part) :
    (contents sections).filter keep = contents (sections.filter select) := by
  induction sections with
  | nil => rfl
  | cons part sections ih =>
    have hpart : ∀ p ∈ part.payloads, keep p = select part := h part List.mem_cons_self
    have hrest := ih fun other hother => h other (List.mem_cons_of_mem part hother)
    rw [contents_cons, List.filter_append, hrest]
    by_cases hselect : select part = true
    · have hkeep : part.payloads.filter keep = part.payloads :=
        List.filter_eq_self.mpr fun p hp => (hpart p hp).trans hselect
      rw [hkeep, List.filter_cons_of_pos hselect, contents_cons]
    · have hkeep : part.payloads.filter keep = [] :=
        List.filter_eq_nil_iff.mpr fun p hp => by rwa [hpart p hp]
      rw [hkeep, List.filter_cons_of_neg hselect, List.nil_append]

/-- The payloads on a layer are those of the sections on that layer. -/
theorem filter_layer_contents (layer : Layer) (sections : List Section) :
    (contents sections).filter (·.layer == layer) =
      contents (sections.filter (·.layer == layer)) :=
  filter_contents fun part _ p hp => by rw [part.layer_eq p hp]

/-- Sections that are all on one layer are all kept. -/
theorem filter_layer_eq_self {layer : Layer} {sections : List Section}
    (h : ∀ part ∈ sections, part.layer = layer) :
    sections.filter (·.layer == layer) = sections := by
  refine List.filter_eq_self.mpr fun part hpart => ?_
  rw [h part hpart, beq_iff_eq]

/-- No section on another layer is selected. -/
theorem filter_layer_eq_nil {layer other : Layer} {sections : List Section}
    (h : ∀ part ∈ sections, part.layer = other) (hne : other ≠ layer) :
    sections.filter (·.layer == layer) = [] := by
  refine List.filter_eq_nil_iff.mpr fun part hpart => ?_
  rw [h part hpart, beq_iff_eq]
  exact hne

/-- No section with a stem that is apart is selected. -/
theorem filter_stem_eq_nil {stem : String} {sections : List Section}
    (h : ∀ part ∈ sections, Apart stem part.stem) :
    sections.filter (·.stem == stem) = [] := by
  refine List.filter_eq_nil_iff.mpr fun part hpart => ?_
  rw [beq_iff_eq]
  exact (h part hpart).ne

/-- Names with stems that are apart do not share a beginning. -/
theorem not_hasStem_of_apart {stem other : String} (h : Apart stem other) {p : Payload}
    (hp : p.hasStem other = true) : ¬p.hasStem stem = true := by
  intro hstem
  unfold Payload.hasStem at hp hstem
  rw [List.isPrefixOf_iff_prefix] at hp hstem
  rcases List.prefix_or_prefix_of_prefix hstem hp with hfirst | hsecond
  · exact h.1 hfirst
  · exact h.2 hsecond

/-- The payloads with a stem are those of the sections with that stem, if all others are apart from
it. -/
theorem filter_stem_contents {stem : String} {sections : List Section}
    (h : ∀ part ∈ sections, part.stem = stem ∨ Apart stem part.stem) :
    (contents sections).filter (·.hasStem stem) =
      contents (sections.filter (·.stem == stem)) := by
  refine filter_contents fun part hpart p hp => ?_
  have hown : p.hasStem part.stem = true := part.hasStem p hp
  rcases h part hpart with heq | hapart
  · rw [← heq, hown, beq_self_eq_true]
  · rw [beq_false_of_ne hapart.ne, Bool.eq_false_iff]
    exact not_hasStem_of_apart hapart hown

/-- The payloads that draw the chunks of a batch of lines. -/
def ofLines (name : String) (layer : Layer) (strokes : List Stroke) (chunks : List Shape.Mesh) :
    Section where
  layer := layer
  stem := name ++ "-"
  payloads := linePayloads name layer strokes chunks
  layer_eq _ hp := (of_mem_linePayloads hp).1
  hasStem p hp := by
    obtain ⟨-, -, -, hname⟩ := of_mem_linePayloads hp
    rw [Payload.hasStem, List.isPrefixOf_iff_prefix, String.toList_append]
    exact hname

/-- A payload on its own, if it is queued at all. -/
def ofPayload (p : Payload) : Section where
  layer := p.layer
  stem := p.name
  payloads := queued p
  layer_eq q hq := by rw [mem_queued hq]
  hasStem q hq := by
    rw [mem_queued hq]
    exact List.isPrefixOf_iff_prefix.mpr List.prefix_rfl

end Section

end LatticeScene.Staging
