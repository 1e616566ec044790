import LatticeScene.Shape.Batch
import LatticeScene.Proofs.Shape.Envelope
import LatticeScene.Proofs.Shape.Mesh

/-!
# What a batch of boxes holds

A `BoxBatch` keeps three things in step: the components of its vertices, their indices, and their
envelope.  `BoxBatch.Holds b capacity vertices` says that all three are those of one list of
vertices.  It holds of a new batch and the empty list, and a vertex for which there is room is
appended to the list (`Holds.addVertex`).

Whether a box is taken is decided before its first vertex: `Holds.addBox_eq` describes `addBox` as a
test for room followed by appending all vertices, none of which can fail.  Faces of a box that are
added one at a time make the same batch as faces that are added together
(`Holds.addEach_eq_addBox`).
-/

namespace LatticeScene

namespace BoundedBuffer

variable {α : Type}

/-- Elements that fit are appended. -/
theorem append_of_le {b : BoundedBuffer α} {xs : List α} (h : xs.length ≤ b.remaining) :
    b.append xs = .done (b.appendFitting xs h) := dif_pos h

/-- A buffer has as many live elements as its list. -/
theorem size_eq_of_toList {b : BoundedBuffer α} {xs : List α} (h : b.toList = xs) :
    b.size = xs.length := by
  rw [← h, length_toList]

end BoundedBuffer

namespace Shape

namespace BoxBatch

/-- A batch of the given capacity that is still open and holds exactly the given vertices. -/
structure Holds (b : BoxBatch) (capacity : Nat) (vertices : List (Vec3 Float32)) : Prop where
  /-- The components of the vertices stand one after the other. -/
  positions_eq : b.positions.toList = vertices.flatMap Vec3.toList
  /-- Every vertex is indexed by its place. -/
  indices_eq : b.indices.toList.map UInt32.toNat = List.range vertices.length
  /-- The envelope is that of the vertices. -/
  bounds_eq : b.bounds = .ofPoints vertices
  positions_capacity : b.positions.capacity = 3 * capacity
  indices_capacity : b.indices.capacity = capacity
  /-- Every place can be written as an index. -/
  capacity_le : capacity ≤ maxBatchVertices
  unfinished : b.finished = false

namespace Holds

variable {b : BoxBatch} {capacity : Nat} {vertices : List (Vec3 Float32)}

/-- A batch has an index for each of its vertices. -/
theorem size_indices (h : b.Holds capacity vertices) : b.indices.size = vertices.length := by
  have hlength := congrArg List.length h.indices_eq
  rwa [List.length_map, List.length_range, BoundedBuffer.length_toList] at hlength

/-- A batch has three numbers for each of its vertices. -/
theorem size_positions (h : b.Holds capacity vertices) :
    b.positions.size = 3 * vertices.length := by
  rw [BoundedBuffer.size_eq_of_toList h.positions_eq, length_flatMap_toList]

/-- A batch has no more vertices than its capacity. -/
theorem length_le (h : b.Holds capacity vertices) : vertices.length ≤ capacity := by
  have hle := b.indices.size_le_capacity
  rwa [h.size_indices, h.indices_capacity] at hle

/-- The capacity of a batch stays the one it was made with. -/
theorem capacity_eq (h : b.Holds capacity vertices) : b.capacity = capacity :=
  h.indices_capacity

/-- The room left in a batch is what its vertices leave of the capacity. -/
theorem remaining_eq (h : b.Holds capacity vertices) :
    b.remaining = capacity - vertices.length := by
  rw [remaining, BoundedBuffer.remaining, h.indices_capacity, h.size_indices]

/-! The mesh of a batch has its vertices in order. -/

/-- The mesh of a batch has the positions of its vertices. -/
theorem positions_toMesh (h : b.Holds capacity vertices) :
    b.toMesh.positions.toList = vertices.flatMap Vec3.toList := by
  rw [← h.positions_eq]
  exact BoundedBuffer.toList_toArray b.positions

/-- The mesh of a batch has the indices of its vertices. -/
theorem indices_toMesh (h : b.Holds capacity vertices) :
    b.toMesh.indices.toList.map UInt32.toNat = List.range vertices.length := by
  rw [← h.indices_eq]
  exact congrArg (List.map UInt32.toNat) (BoundedBuffer.toList_toArray b.indices)

/-- The mesh of a batch has three numbers for each vertex. -/
theorem size_positions_toMesh (h : b.Holds capacity vertices) :
    b.toMesh.positions.size = 3 * vertices.length := by
  rw [← Array.length_toList, h.positions_toMesh, length_flatMap_toList]

/-- The mesh of a batch has as many vertices as the batch. -/
theorem vertexCount_toMesh (h : b.Holds capacity vertices) :
    b.toMesh.vertexCount = vertices.length := by
  rw [Mesh.vertexCount, h.size_positions_toMesh]
  exact Nat.mul_div_cancel_left _ (by decide)

/-- The mesh of a batch is empty when the batch has no vertices. -/
theorem isEmpty_toMesh_iff (h : b.Holds capacity vertices) :
    b.toMesh.isEmpty = true ↔ vertices = [] := by
  rw [Mesh.isEmpty, Array.isEmpty_iff_size_eq_zero, h.size_positions_toMesh,
    ← List.length_eq_zero_iff]
  omega

end Holds

/-- A new batch holds nothing. -/
theorem exists_ofCapacity {capacity : Nat} (h : capacity ≤ maxBatchVertices) :
    ∃ new, ofCapacity capacity = .ok new ∧ new.Holds capacity [] := by
  refine ⟨_, if_pos h, ?_⟩
  exact ⟨rfl, rfl, rfl, rfl, rfl, h, rfl⟩

/-- A new batch holds no vertices. -/
theorem holds_of_ofCapacity {capacity : Nat} {new : BoxBatch}
    (h : ofCapacity capacity = .ok new) : new.Holds capacity [] := by
  by_cases hle : capacity ≤ maxBatchVertices
  · obtain ⟨other, hother, hholds⟩ := exists_ofCapacity hle
    rw [h, Except.ok.injEq] at hother
    rwa [hother]
  · rw [ofCapacity, if_neg hle] at h
    cases h

/-! ### Vertices -/

/-- A vertex for which both buffers have room is appended to them. -/
theorem addVertex_of_le {b : BoxBatch} (vertex : Vec3 Float32)
    (hpositions : vertex.toList.length ≤ b.positions.remaining)
    (hindices : [b.indices.size.toUInt32].length ≤ b.indices.remaining) :
    b.addVertex vertex =
      .done { positions := b.positions.appendFitting vertex.toList hpositions
              indices := b.indices.appendFitting [b.indices.size.toUInt32] hindices
              bounds := b.bounds.insert vertex
              finished := b.finished } := by
  obtain ⟨positions, indices, bounds, finished⟩ := b
  simp only [addVertex, addComponents, BoundedBuffer.append_of_le hpositions, Attempt.mapError,
    Attempt.within, Attempt.done, Option.map_none, Attempt.andThen, addIndex, BoundedBuffer.push,
    BoundedBuffer.append_of_le hindices]

/-- Where there is a place for a vertex, both buffers have room for their part of it. -/
theorem Holds.room {b : BoxBatch} {capacity : Nat} {vertices : List (Vec3 Float32)}
    (h : b.Holds capacity vertices) (hroom : vertices.length < capacity) (vertex : Vec3 Float32) :
    vertex.toList.length ≤ b.positions.remaining ∧
      [b.indices.size.toUInt32].length ≤ b.indices.remaining := by
  have hthree : vertex.toList.length = 3 := rfl
  have hone : [b.indices.size.toUInt32].length = 1 := rfl
  constructor
  · rw [BoundedBuffer.remaining, h.positions_capacity, h.size_positions, hthree]
    omega
  · rw [hone, BoundedBuffer.remaining, h.indices_capacity, h.size_indices]
    omega

/-- A vertex for which there is room comes after those that the batch holds. -/
theorem Holds.addVertex {b : BoxBatch} {capacity : Nat} {vertices : List (Vec3 Float32)}
    (h : b.Holds capacity vertices) (hroom : vertices.length < capacity) (vertex : Vec3 Float32) :
    ∃ next, b.addVertex vertex = .done next ∧ next.Holds capacity (vertices ++ [vertex]) := by
  obtain ⟨hpositions, hindices⟩ := h.room hroom vertex
  -- the place of the vertex is below the capacity, so that writing it as an index loses nothing
  have hindex : b.indices.size.toUInt32.toNat = vertices.length := by
    rw [h.size_indices]
    refine UInt32.toNat_ofNat_of_lt' (Nat.lt_of_lt_of_le hroom ?_)
    have hle := h.capacity_le
    simp only [maxBatchVertices] at hle
    omega
  refine ⟨_, addVertex_of_le vertex hpositions hindices, ?_⟩
  constructor
  · rw [BoundedBuffer.toList_appendFitting, h.positions_eq, List.flatMap_append,
      List.flatMap_cons, List.flatMap_nil, List.append_nil]
  · rw [BoundedBuffer.toList_appendFitting, List.map_append, h.indices_eq, List.map_cons,
      List.map_nil, hindex, List.length_append, List.length_cons, List.length_nil,
      List.range_succ]
  · rw [h.bounds_eq, Envelope.ofPoints_append_singleton]
  · exact h.positions_capacity
  · exact h.indices_capacity
  · exact h.capacity_le
  · exact h.unfinished

/-- Several vertices for which there is room come after those that the batch holds. -/
theorem Holds.addVertices {b : BoxBatch} {capacity : Nat} {vertices : List (Vec3 Float32)}
    (h : b.Holds capacity vertices) (new : List (Vec3 Float32))
    (hroom : vertices.length + new.length ≤ capacity) :
    ∃ next, Attempt.each BoxBatch.addVertex b new = .done next ∧
      next.Holds capacity (vertices ++ new) := by
  induction new generalizing b vertices with
  | nil => exact ⟨b, rfl, by rwa [List.append_nil]⟩
  | cons vertex new ih =>
    rw [List.length_cons] at hroom
    obtain ⟨c, hc, hholds⟩ := h.addVertex (by omega) vertex
    have hlength : (vertices ++ [vertex]).length = vertices.length + 1 := List.length_append
    obtain ⟨next, hnext, hrest⟩ := ih hholds (by omega)
    refine ⟨next, ?_, ?_⟩
    · rw [Attempt.each_cons, hc, Attempt.done_andThen, hnext]
    · rwa [List.append_cons]

/-! ### Boxes -/

section Boxes

variable {b : BoxBatch} {capacity : Nat} {vertices : List (Vec3 Float32)}

/-- A box is refused when its faces do not fit, and otherwise all its vertices are appended. -/
theorem Holds.addBox_eq (h : b.Holds capacity vertices) (faces : FaceSet)
    (center dimensions : Vec3 Float32) :
    b.addBox faces center dimensions =
      if faces.count * verticesPerFace ≤ capacity - vertices.length then
        Attempt.each BoxBatch.addVertex b (faces.triangles center dimensions)
      else
        .stopped (.capacityExceeded (faces.count * verticesPerFace) (capacity - vertices.length)
          capacity) b := by
  rw [addBox, h.remaining_eq, h.capacity_eq, h.unfinished, if_neg Bool.false_ne_true]
  by_cases hempty : faces.isEmpty = true
  · have htriangles : faces.triangles center dimensions = [] := by
      rw [FaceSet.triangles, FaceSet.faces_of_isEmpty hempty, List.flatMap_nil]
    rw [if_pos hempty, FaceSet.count_of_isEmpty hempty, Nat.zero_mul, if_pos (Nat.zero_le _),
      htriangles, Attempt.each_nil]
  · rw [if_neg hempty]
    by_cases hfits : faces.count * verticesPerFace ≤ capacity - vertices.length
    · rw [if_neg (Nat.not_lt.mpr hfits), if_pos hfits]
    · rw [if_pos (Nat.lt_of_not_le hfits), if_neg hfits]

/-- Faces whose bits fit have vertices that fit. -/
theorem Holds.length_triangles_le (h : b.Holds capacity vertices) {faces : FaceSet}
    (hfits : faces.count * verticesPerFace ≤ capacity - vertices.length)
    (center dimensions : Vec3 Float32) :
    vertices.length + (faces.triangles center dimensions).length ≤ capacity := by
  have hle := h.length_le
  have hcount := faces.length_faces_le_count
  have hmul : faces.faces.length * 6 ≤ faces.count * 6 := Nat.mul_le_mul_right 6 hcount
  rw [verticesPerFace] at hfits
  rw [FaceSet.length_triangles]
  omega

/-- A box whose faces fit is taken whole. -/
theorem Holds.addBox_of_fits (h : b.Holds capacity vertices) {faces : FaceSet}
    (hfits : faces.count * verticesPerFace ≤ capacity - vertices.length)
    (center dimensions : Vec3 Float32) :
    ∃ next, b.addBox faces center dimensions = .done next ∧
      next.Holds capacity (vertices ++ faces.triangles center dimensions) := by
  rw [h.addBox_eq, if_pos hfits]
  exact h.addVertices _ (h.length_triangles_le hfits center dimensions)

/-- A box is accepted exactly when its faces fit. -/
theorem Holds.error?_addBox_eq_none_iff (h : b.Holds capacity vertices) (faces : FaceSet)
    (center dimensions : Vec3 Float32) :
    (b.addBox faces center dimensions).error? = none ↔
      faces.count * verticesPerFace ≤ capacity - vertices.length := by
  by_cases hfits : faces.count * verticesPerFace ≤ capacity - vertices.length
  · obtain ⟨next, hnext, -⟩ := h.addBox_of_fits hfits center dimensions
    rw [hnext]
    exact iff_of_true rfl hfits
  · rw [h.addBox_eq, if_neg hfits]
    exact iff_of_false (Option.some_ne_none _) hfits

/-- A refused box changes nothing. -/
theorem Holds.state_addBox_of_error (h : b.Holds capacity vertices) {faces : FaceSet}
    {center dimensions : Vec3 Float32}
    (herror : (b.addBox faces center dimensions).error? ≠ none) :
    (b.addBox faces center dimensions).state = b := by
  rw [Ne, h.error?_addBox_eq_none_iff] at herror
  rw [h.addBox_eq, if_neg herror]
  rfl

end Boxes

/-! ### Faces one at a time -/

section OneAtATime

variable {b : BoxBatch} {capacity : Nat} {vertices : List (Vec3 Float32)}

/-- Add faces of a box as boxes with one face each. -/
def addEach (b : BoxBatch) (faces : List Face) (center dimensions : Vec3 Float32) :
    Attempt Refusal BoxBatch :=
  Attempt.each (fun b face => b.addBox (.single face) center dimensions) b faces

/-- Faces that fit are added one at a time with the same result as together. -/
theorem Holds.addEach_of_fits (h : b.Holds capacity vertices) (faces : List Face)
    (center dimensions : Vec3 Float32)
    (hfits : faces.length * verticesPerFace ≤ capacity - vertices.length) :
    b.addEach faces center dimensions =
      Attempt.each BoxBatch.addVertex b
        (faces.flatMap fun face => (FaceSet.single face).triangles center dimensions) := by
  induction faces generalizing b vertices with
  | nil => rfl
  | cons face faces ih =>
    have hcount : (FaceSet.single face).count = 1 := by cases face <;> decide
    rw [verticesPerFace, List.length_cons] at hfits
    have hface : (FaceSet.single face).count * verticesPerFace ≤ capacity - vertices.length := by
      rw [hcount, verticesPerFace]
      omega
    obtain ⟨next, hnext, hholds⟩ := h.addBox_of_fits hface center dimensions
    have hvertices : Attempt.each BoxBatch.addVertex b
        ((FaceSet.single face).triangles center dimensions) = .done next := by
      rw [← hnext, h.addBox_eq, if_pos hface]
    have hlength : ((FaceSet.single face).triangles center dimensions).length = 6 := by
      rw [FaceSet.length_triangles, FaceSet.faces_single]
      rfl
    have hrest := ih hholds (by
      rw [verticesPerFace, List.length_append, hlength]
      omega)
    rw [addEach] at hrest
    rw [addEach, Attempt.each_cons, hnext, Attempt.done_andThen, hrest, List.flatMap_cons,
      Attempt.each_append, hvertices, Attempt.done_andThen]

/-- Faces that are all accepted one at a time fit together. -/
theorem Holds.fits_of_addEach (h : b.Holds capacity vertices) {faces : List Face}
    {center dimensions : Vec3 Float32}
    (haccepted : (b.addEach faces center dimensions).error? = none) :
    faces.length * verticesPerFace ≤ capacity - vertices.length := by
  induction faces generalizing b vertices with
  | nil => exact Nat.zero_le _
  | cons face faces ih =>
    have hcount : (FaceSet.single face).count = 1 := by cases face <;> decide
    by_cases hface : (FaceSet.single face).count * verticesPerFace ≤ capacity - vertices.length
    · obtain ⟨next, hnext, hholds⟩ := h.addBox_of_fits hface center dimensions
      rw [addEach, Attempt.each_cons, hnext, Attempt.done_andThen] at haccepted
      have hrest := ih hholds haccepted
      rw [List.length_append, FaceSet.length_triangles, FaceSet.faces_single] at hrest
      rw [hcount] at hface
      simp only [verticesPerFace, List.length_cons, List.length_nil] at hrest hface ⊢
      omega
    · rw [addEach, Attempt.each_cons, h.addBox_eq, if_neg hface] at haccepted
      exact absurd haccepted (Option.some_ne_none _)

/-- Adding several faces at once is adding them one at a time in the order of their bits, when they
are accepted in either way.  A set with stray bits asks for more room than its faces need; for such
a set it has to be accepted as a whole. -/
theorem Holds.addEach_eq_addBox (h : b.Holds capacity vertices) {faces : FaceSet}
    {center dimensions : Vec3 Float32}
    (haccepted : (b.addBox faces center dimensions).error? = none ∨
      faces.bits < 64 ∧ (b.addEach faces.faces center dimensions).error? = none) :
    b.addEach faces.faces center dimensions = b.addBox faces center dimensions := by
  have hfits : faces.count * verticesPerFace ≤ capacity - vertices.length := by
    rcases haccepted with hbox | ⟨hbits, heach⟩
    · exact (h.error?_addBox_eq_none_iff faces center dimensions).mp hbox
    · rw [FaceSet.count_eq_length_faces hbits]
      exact h.fits_of_addEach heach
  have hfaces : faces.faces.length * verticesPerFace ≤ capacity - vertices.length :=
    Nat.le_trans (Nat.mul_le_mul_right _ faces.length_faces_le_count) hfits
  rw [h.addEach_of_fits faces.faces center dimensions hfaces, h.addBox_eq, if_pos hfits,
    FaceSet.triangles_eq_flatMap_single]

end OneAtATime

end BoxBatch

end Shape

end LatticeScene

namespace LatticeScene.Shape

/-!
## A batch is the concatenation of its boxes

A `BoxCall` is a call that adds a box to a batch, and `BoxBatch.callAll` makes a series of them.  A
call that is accepted appends the vertices of its box (`Holds.call_of_accepted`), and a call that is
refused changes nothing (`Holds.call_of_refused`).  By induction a batch holds after any calls what
it held before and the boxes of the calls that were accepted (`Holds.callAll`).

Handing the buffers out gives these vertices as a mesh and leaves a batch that refuses everything
(`HandedOut`).
-/

/-- A call that adds a box to a batch. -/
inductive BoxCall where
  /-- Add faces of a box around a centre. -/
  | addBox (faces : FaceSet) (center dimensions : Vec3 Float32)
  /-- Add faces of a box that is given by its corner. -/
  | addCornerBox (faces : FaceSet) (box : CornerBox Float32)
deriving DecidableEq

namespace BoxCall

/-- The faces that a call adds. -/
def faces : BoxCall → FaceSet
  | addBox faces _ _ => faces
  | addCornerBox faces _ => faces

/-- The centre of the box. -/
def center : BoxCall → Vec3 Float32
  | addBox _ center _ => center
  | addCornerBox _ box => box.center

/-- The extents of the box. -/
def dimensions : BoxCall → Vec3 Float32
  | addBox _ _ dimensions => dimensions
  | addCornerBox _ box => box.dimensions

/-- The corners of the triangles that a call adds. -/
def vertices (call : BoxCall) : List (Vec3 Float32) :=
  call.faces.triangles call.center call.dimensions

/-- They come face by face, in the order of the bits that are set. -/
theorem vertices_eq_flatMap_filter (call : BoxCall) :
    call.vertices =
      (Face.all.filter fun face => call.faces.bits.toNat.testBit face.slot).flatMap fun face =>
        (face.quad call.center call.dimensions).triangles := by
  rw [vertices, FaceSet.triangles, FaceSet.faces_eq_filter_testBit]

end BoxCall

namespace BoxBatch

/-- Make a call. -/
def call (b : BoxBatch) : BoxCall → Attempt Refusal BoxBatch
  | .addBox faces center dimensions => b.addBox faces center dimensions
  | .addCornerBox faces box => b.addCornerBox faces box

/-- The batch after a series of calls, of which some may be refused. -/
def callAll (b : BoxBatch) (calls : List BoxCall) : BoxBatch :=
  calls.foldl (fun b call => (b.call call).state) b

/-- The calls of a series that are accepted. -/
def accepted (b : BoxBatch) : List BoxCall → List BoxCall
  | [] => []
  | call :: calls =>
    if (b.call call).error? = none then call :: (b.call call).state.accepted calls
    else (b.call call).state.accepted calls

/-- Every call adds faces of a box around a centre. -/
theorem call_eq_addBox (b : BoxBatch) (call : BoxCall) :
    b.call call = b.addBox call.faces call.center call.dimensions := by
  cases call <;> rfl

section Calls

variable {b : BoxBatch} {capacity : Nat} {vertices : List (Vec3 Float32)}

/-- An accepted call appends the vertices of its box. -/
theorem Holds.call_of_accepted (h : b.Holds capacity vertices) {call : BoxCall}
    (haccepted : (b.call call).error? = none) :
    (b.call call).state.Holds capacity (vertices ++ call.vertices) := by
  rw [call_eq_addBox] at haccepted ⊢
  have hfits := (h.error?_addBox_eq_none_iff _ _ _).mp haccepted
  obtain ⟨next, hnext, hholds⟩ := h.addBox_of_fits hfits call.center call.dimensions
  rw [hnext]
  exact hholds

/-- A refused call leaves the batch as it was. -/
theorem Holds.call_of_refused (h : b.Holds capacity vertices) {call : BoxCall}
    (hrefused : (b.call call).error? ≠ none) : (b.call call).state = b := by
  rw [call_eq_addBox] at hrefused ⊢
  exact h.state_addBox_of_error hrefused

/-- After any calls a batch holds the boxes of those that were accepted. -/
theorem Holds.callAll (h : b.Holds capacity vertices) (calls : List BoxCall) :
    (b.callAll calls).Holds capacity
      (vertices ++ (b.accepted calls).flatMap BoxCall.vertices) := by
  induction calls generalizing b vertices with
  | nil => rwa [accepted, List.flatMap_nil, List.append_nil]
  | cons call calls ih =>
    rw [BoxBatch.callAll, List.foldl_cons, accepted]
    by_cases hcall : (b.call call).error? = none
    · rw [if_pos hcall, List.flatMap_cons, ← List.append_assoc]
      exact ih (h.call_of_accepted hcall)
    · rw [if_neg hcall, h.call_of_refused hcall]
      exact ih h

/-- A batch is handed out as the mesh of its vertices. -/
theorem Holds.toMesh_eq (h : b.Holds capacity vertices) :
    b.toMesh = ⟨(vertices.flatMap Vec3.toList).toArray,
      ((List.range vertices.length).map Nat.toUInt32).toArray⟩ := by
  have hindices : b.indices.toList = (List.range vertices.length).map Nat.toUInt32 := by
    rw [← h.indices_eq, List.map_map]
    refine (List.map_id _).symm.trans (List.map_congr_left fun i _ => ?_)
    exact UInt32.ofNat_toNat.symm
  rw [← h.positions_eq, ← hindices, ← BoundedBuffer.toList_toArray, ← BoundedBuffer.toList_toArray]
  rfl

end Calls

/-- What is left of a batch when its buffers have been handed out. -/
structure HandedOut (b left : BoxBatch) : Prop where
  /-- Every further box is refused, and changes nothing. -/
  call_eq : ∀ call, left.call call = .stopped .useAfterFinalize left
  /-- Handing the buffers out again is refused. -/
  finish_eq : left.finish = (.error .useAfterFinalize, left)
  /-- There are no vertices, and no places for any. -/
  vertexCount_eq : left.vertexCount = 0
  isEmpty_eq : left.isEmpty = true
  capacity_eq : left.capacity = 0
  remaining_eq : left.remaining = 0
  toMesh_eq : left.toMesh = ⟨#[], #[]⟩
  /-- The envelope is kept. -/
  bounds_eq : left.bounds = b.bounds

/-- An open batch hands its mesh out. -/
theorem finish_of_unfinished {b : BoxBatch} (h : b.finished = false) :
    b.finish.1 = .ok b.toMesh ∧ b.HandedOut b.finish.2 := by
  have hfinish : b.finish =
      (.ok b.toMesh,
        { b with positions := .ofCapacity 0, indices := .ofCapacity 0, finished := true }) := by
    rw [finish, h]
    rfl
  rw [hfinish]
  refine ⟨rfl, ?_⟩
  constructor
  · intro call
    rw [call_eq_addBox]
    rfl
  all_goals rfl

/-- A batch of any permitted capacity is, after any calls, the concatenation of the boxes that were
accepted: in the order of the calls, and for each box in the order of the bits of its faces, the
triangles of the face.  Its indices count the vertices, and its envelope is theirs.  The capacity
matters only to which boxes are accepted, and several faces are added at once as they would be one
at a time.  The mesh that is handed out is that of these vertices, and nothing is left in the
batch. -/
theorem callAll_concatenates_accepted_boxes {capacity : Nat}
    (hcapacity : capacity ≤ maxBatchVertices) :
    ∃ new, ofCapacity capacity = .ok new ∧ ∀ calls : List BoxCall,
      let b := new.callAll calls
      let vertices := (new.accepted calls).flatMap fun call =>
        (Face.all.filter fun face => call.faces.bits.toNat.testBit face.slot).flatMap fun face =>
          (face.quad call.center call.dimensions).triangles
      (b.positions.toList = vertices.flatMap Vec3.toList ∧
        b.positions.size = 3 * vertices.length ∧
        b.indices.toList.map UInt32.toNat = List.range vertices.length ∧
        b.bounds = .ofPoints vertices ∧
        b.capacity = capacity ∧
        b.remaining = capacity - vertices.length) ∧
      (∀ capacity' new' calls', ofCapacity capacity' = .ok new' →
        new'.accepted calls' = new.accepted calls →
          (new'.callAll calls').toMesh = b.toMesh ∧ (new'.callAll calls').bounds = b.bounds) ∧
      (∀ faces center dimensions,
        (b.addBox faces center dimensions).error? = none ∨
            faces.bits < 64 ∧ (b.addEach faces.faces center dimensions).error? = none →
          b.addEach faces.faces center dimensions = b.addBox faces center dimensions) ∧
      b.toMesh = ⟨b.positions.toArray, b.indices.toArray⟩ ∧
      b.finish.1 = .ok b.toMesh ∧
      b.HandedOut b.finish.2 := by
  obtain ⟨new, hnew, hempty⟩ := exists_ofCapacity hcapacity
  refine ⟨new, hnew, fun calls => ?_⟩
  intro b vertices
  have hvertices : vertices = (new.accepted calls).flatMap BoxCall.vertices := by
    rw [funext BoxCall.vertices_eq_flatMap_filter]
  have hb : b.Holds capacity vertices := by
    rw [hvertices]
    exact hempty.callAll calls
  obtain ⟨hfinish, hleft⟩ := finish_of_unfinished hb.unfinished
  refine ⟨⟨hb.positions_eq, hb.size_positions, hb.indices_eq, hb.bounds_eq, hb.capacity_eq,
    hb.remaining_eq⟩, ?_, ?_, rfl, hfinish, hleft⟩
  · intro capacity' new' calls' hnew' haccepted
    have hb' := (holds_of_ofCapacity hnew').callAll calls'
    rw [haccepted, List.nil_append, ← hvertices] at hb'
    exact ⟨hb'.toMesh_eq.trans hb.toMesh_eq.symm, hb'.bounds_eq.trans hb.bounds_eq.symm⟩
  · intro faces center dimensions haccepted
    exact hb.addEach_eq_addBox haccepted

/-- Three boxes of which the second one does not fit. -/
def crowdedCalls : List BoxCall :=
  [.addBox .all ⟨0, 0, 0⟩ ⟨2, 2, 2⟩, .addBox .all ⟨4, 0, 0⟩ ⟨2, 2, 2⟩,
    .addCornerBox (.single .negY) ⟨⟨8, 0, 0⟩, ⟨2, 2, 2⟩⟩]

/-- In a batch for forty-two vertices the first box and the face of the third fill all places. -/
theorem callAll_concatenates_accepted_boxes_crowded :
    42 ≤ maxBatchVertices ∧ ∃ new, ofCapacity 42 = .ok new ∧
      new.accepted crowdedCalls = crowdedCalls.take 1 ++ crowdedCalls.drop 2 ∧
      (new.callAll crowdedCalls).positions.size = 126 ∧
      (new.callAll crowdedCalls).remaining = 0 ∧
      (new.callAll crowdedCalls).indices.toList.map UInt32.toNat = List.range 42 ∧
      (new.callAll crowdedCalls).finish.1 = .ok (new.callAll crowdedCalls).toMesh := by
  have hcapacity : 42 ≤ maxBatchVertices := by decide
  obtain ⟨new, hnew, h⟩ := callAll_concatenates_accepted_boxes hcapacity
  obtain ⟨⟨-, hsize, hindices, -, -, hremaining⟩, -, -, -, hfinish, -⟩ := h crowdedCalls
  have haccepted : new.accepted crowdedCalls = crowdedCalls.take 1 ++ crowdedCalls.drop 2 := by
    have heq : new = ⟨.ofCapacity 126, .ofCapacity 42, .empty, false⟩ := (Except.ok.inj hnew).symm
    rw [heq]
    decide +kernel
  rw [haccepted] at hsize hindices hremaining
  exact ⟨hcapacity, new, hnew, haccepted, hsize, hremaining, hindices, hfinish⟩

end BoxBatch

end LatticeScene.Shape
