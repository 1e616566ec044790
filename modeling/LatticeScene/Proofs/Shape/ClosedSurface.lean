import LatticeScene.Proofs.Shape.Envelope
import LatticeScene.Proofs.Shape.Mesh
import LatticeScene.Proofs.Shape.Grid

/-!
# The surface of a box

With rational numbers the vertices of a box are exact.  Every box is then the image of the one whose
corners are one away from the origin along every axis: its axes are stretched and its centre is
moved (`Face.halves_eq_map`).  What is said here about the faces of a box is checked for that one
and carried over, a closed surface by `ClosesAround.map` and the cross products of edges by
`get_edgeCross_stretch`.

The triangles of all six faces close up (`closesAround_boxSurface`): every edge is run through once
in each direction.  They face outward when the dimensions are positive (`Face.facesOutward`), and
what they enclose has the volume of the box, which is negative where an odd number of dimensions are
(`signedVolume_boxSurface`).
-/

namespace LatticeScene.Shape

/-! ### Stretched boxes -/

/-- The point of a box that stands for a point of the box with corners one away from the origin. -/
def stretch (center dimensions v : Vec3 Rat) : Vec3 Rat :=
  ⟨center.x + dimensions.x / 2 * v.x, center.y + dimensions.y / 2 * v.y,
    center.z + dimensions.z / 2 * v.z⟩

/-- The corners of the box with corners one away from the origin. -/
def unitCorners : List (Vec3 Rat) :=
  [1, -1].flatMap fun x => [1, -1].flatMap fun y => [1, -1].map fun z => ⟨x, y, z⟩

/-- The eight corners of a box. -/
def boxCorners (center dimensions : Vec3 Rat) : List (Vec3 Rat) :=
  unitCorners.map (stretch center dimensions)

/-- The cross product of the two edges of a triangle that start at its first corner. -/
def edgeCross (t : Vec3 (Vec3 Rat)) : Vec3 Rat := (t.y - t.x).cross (t.z - t.x)

/-- The product of the two dimensions of a box that are not along an axis. -/
def crossSection (dimensions : Vec3 Rat) : Axis → Rat
  | .x => dimensions.y * dimensions.z
  | .y => dimensions.x * dimensions.z
  | .z => dimensions.x * dimensions.y

/-! Along an axis the operations on vectors are those on numbers. -/

section Components

variable (v w : Vec3 Rat) (axis : Axis) (s : Rat)

/-- Points are subtracted component by component. -/
theorem Vec3.sub_eq : v - w = ⟨v.x - w.x, v.y - w.y, v.z - w.z⟩ := rfl

/-- A component of a difference is the difference of the components. -/
theorem Vec3.get_sub : (v - w).get axis = v.get axis - w.get axis := by
  cases axis <;> rfl

/-- Scaling a vector along an axis scales its one component. -/
theorem Vec3.scale_set_zero (c : Rat) :
    (Vec3.zero.set axis s : Vec3 Rat).scale c = Vec3.zero.set axis (s * c) := by
  have hzero : (Scalar.ofNat 0 : Rat) = 0 := rfl
  cases axis <;> simp only [Vec3.scale, Vec3.map, Vec3.set, Vec3.zero, Vec3.splat, hzero, zero_mul]

/-- The dot product with a vector along an axis picks out the component on that axis. -/
theorem Vec3.dot_set_zero : (Vec3.zero.set axis s : Vec3 Rat).dot w = s * w.get axis := by
  have hzero : (Scalar.ofNat 0 : Rat) = 0 := rfl
  cases axis <;>
    simp only [Vec3.dot, Vec3.set, Vec3.get, Vec3.zero, Vec3.splat, hzero, zero_mul, add_zero,
      zero_add]

/-- A vector along an axis is a multiple of the unit vector of that axis. -/
theorem Axis.scale_unit : (axis.unit : Vec3 Rat).scale s = Vec3.zero.set axis s := by
  have hone : (Scalar.ofNat 1 : Rat) = 1 := rfl
  rw [Axis.unit, Vec3.scale_set_zero, hone, one_mul]

/-- The triple product of the corners of a triangle is found from its edges, too. -/
theorem dot_cross_eq (t : Vec3 (Vec3 Rat)) : t.x.dot (t.y.cross t.z) = (edgeCross t).dot t.x := by
  simp only [edgeCross, Vec3.dot, Vec3.cross, Vec3.sub_eq]
  ring

end Components

section Stretch

variable {center dimensions : Vec3 Rat}

/-- A stretched point is stretched along each axis by itself. -/
theorem get_stretch (center dimensions v : Vec3 Rat) (axis : Axis) :
    (stretch center dimensions v).get axis =
      center.get axis + dimensions.get axis / 2 * v.get axis := by
  cases axis <;> rfl

/-- Along every axis a cross product is stretched as the other two axes are. -/
theorem get_edgeCross_stretch (center dimensions : Vec3 Rat) (t : Vec3 (Vec3 Rat)) (axis : Axis) :
    (edgeCross (t.map (stretch center dimensions))).get axis =
      crossSection dimensions axis / 4 * (edgeCross t).get axis := by
  simp only [edgeCross, Vec3.cross, Vec3.sub_eq, Vec3.map, stretch]
  cases axis with
  | x =>
    simp only [Vec3.get, crossSection]
    ring
  | y =>
    simp only [Vec3.get, crossSection]
    ring
  | z =>
    simp only [Vec3.get, crossSection]
    ring

/-- No two points become one, unless an axis is stretched by zero. -/
theorem stretch_injective (h : ∀ axis, dimensions.get axis ≠ 0) :
    Function.Injective (stretch center dimensions) := by
  intro v w heq
  refine Vec3.eq_of_get fun axis => ?_
  have hget := congrArg (Vec3.get · axis) heq
  simp only [get_stretch] at hget
  have hhalf : dimensions.get axis / 2 ≠ 0 := div_ne_zero (h axis) two_ne_zero
  exact mul_left_cancel₀ hhalf (add_left_cancel hget)

/-- A box has three cross sections and one volume. -/
theorem mul_crossSection (dimensions : Vec3 Rat) (axis : Axis) :
    dimensions.get axis * crossSection dimensions axis =
      dimensions.x * dimensions.y * dimensions.z := by
  cases axis with
  | x =>
    simp only [Vec3.get, crossSection]
    ring
  | y =>
    simp only [Vec3.get, crossSection]
    ring
  | z =>
    simp only [Vec3.get, crossSection]
    ring

/-- A box with positive dimensions has a positive cross section along each axis. -/
theorem crossSection_pos (h : ∀ axis, 0 < dimensions.get axis) (axis : Axis) :
    0 < crossSection dimensions axis := by
  cases axis with
  | x => exact mul_pos (h .y) (h .z)
  | y => exact mul_pos (h .x) (h .z)
  | z => exact mul_pos (h .x) (h .y)

end Stretch

/-! ### One face -/

namespace Face

/-- The axis along which a face stands off from the centre. -/
def axis : Face → Axis
  | posX | negX => .x
  | posY | negY => .y
  | posZ | negZ => .z

/-- The side on which a face stands off from the centre. -/
def sign : Face → Rat
  | posX | posY | posZ => 1
  | negX | negY | negZ => -1

/-- The corner of a face in a column and a row. -/
def corner (face : Face) (center dimensions : Vec3 Rat) (column row : Nat) : Vec3 Rat :=
  let extents := face.extents dimensions
  face.grid.point center extents (Scalar.ofNat column * extents.width)
    (Scalar.ofNat row * extents.height)

/-- The triangles of a face. -/
def halves (face : Face) (center dimensions : Vec3 Rat) : List (Vec3 (Vec3 Rat)) :=
  triples (face.quad center dimensions).triangles

/-- How a face lies in space, whatever the signs of the dimensions are. -/
structure LiesFlat (face : Face) (center dimensions : Vec3 Rat) : Prop where
  length_halves : (face.halves center dimensions).length = 2
  /-- Both triangles have the same cross product of edges. -/
  edgeCross_eq : ∀ t ∈ face.halves center dimensions,
    edgeCross t = Vec3.zero.set face.axis (face.sign * crossSection dimensions face.axis)
  /-- All corners have the same distance from the centre along the axis of the face. -/
  get_eq : ∀ t ∈ face.halves center dimensions, ∀ v ∈ t.toList,
    v.get face.axis = center.get face.axis + face.sign * (dimensions.get face.axis / 2)

/-- What it means that a face is seen from outside. -/
structure FacesOutward (face : Face) (center dimensions : Vec3 Rat) : Prop where
  /-- The cross products of edges have the direction of the normal. -/
  exists_scale : ∀ t ∈ face.halves center dimensions,
    ∃ c, 0 < c ∧ edgeCross t = (face.quad center dimensions).normal.scale c
  /-- They point away from the centre. -/
  dot_pos : ∀ t ∈ face.halves center dimensions, ∀ v ∈ t.toList,
    0 < (edgeCross t).dot (v - center)

section Faces

variable {center dimensions : Vec3 Rat}

/-- The triangles of a face have its corners as those of a cell. -/
theorem halves_eq (face : Face) (center dimensions : Vec3 Rat) :
    face.halves center dimensions =
      (cellPoints 0 0).map
        (Vec3.map fun point => face.corner center dimensions point.1 point.2) := rfl

/-- The corners of a face are those of the face of the box with corners one away from the origin,
stretched. -/
theorem corner_eq (face : Face) (center dimensions : Vec3 Rat) (column row : Nat) :
    face.corner center dimensions column row =
      stretch center dimensions (face.corner Vec3.zero (Vec3.splat 2) column row) := by
  have hzero : (Scalar.ofNat 0 : Rat) = 0 := rfl
  have hone : (Scalar.ofNat 1 : Rat) = 1 := rfl
  have htwo : (Scalar.ofNat 2 : Rat) = 2 := rfl
  cases face <;>
    simp only [corner, FaceGrid.point, grid, extents, Vec3.set, Vec3.get, stretch, Vec3.splat,
      Vec3.zero, hzero, hone, htwo] <;>
    rw [Vec3.mk.injEq] <;>
    refine ⟨?_, ?_, ?_⟩ <;> ring

/-- The triangles of a face are those of the box with corners one away from the origin. -/
theorem halves_eq_map (face : Face) (center dimensions : Vec3 Rat) :
    face.halves center dimensions =
      (face.halves Vec3.zero (Vec3.splat 2)).map (Vec3.map (stretch center dimensions)) := by
  have hcorner : (fun point : Nat × Nat => face.corner center dimensions point.1 point.2) =
      stretch center dimensions ∘ fun point =>
        face.corner Vec3.zero (Vec3.splat 2) point.1 point.2 :=
    funext fun point => face.corner_eq center dimensions point.1 point.2
  rw [halves_eq, halves_eq, List.map_map, hcorner]
  rfl

/-- A face stands off on one side only, so that its sign cancels itself. -/
theorem mul_sign_self (face : Face) : face.sign * face.sign = 1 := by
  cases face <;> norm_num [sign]

/-- Every face of a box lies in a plane across its axis. -/
theorem liesFlat (face : Face) (center dimensions : Vec3 Rat) :
    face.LiesFlat center dimensions := by
  -- the same for the box with corners one away from the origin
  have hcross : ∀ t ∈ face.halves Vec3.zero (Vec3.splat 2), ∀ axis ∈ Axis.all,
      (edgeCross t).get axis = (Vec3.zero.set face.axis (4 * face.sign) : Vec3 Rat).get axis := by
    cases face <;> decide +kernel
  have hplane : ∀ t ∈ face.halves Vec3.zero (Vec3.splat 2), ∀ v ∈ t.toList,
      v.get face.axis = face.sign := by
    cases face <;> decide +kernel
  constructor
  case length_halves => rfl
  case edgeCross_eq =>
    intro t ht
    rw [halves_eq_map] at ht
    obtain ⟨unit, hunit, rfl⟩ := List.mem_map.mp ht
    refine Vec3.eq_of_get fun axis => ?_
    have hmem : axis ∈ Axis.all := by cases axis <;> decide
    rw [get_edgeCross_stretch, hcross unit hunit axis hmem]
    by_cases haxis : face.axis = axis
    · rw [← haxis, Vec3.get_set_self, Vec3.get_set_self]
      ring
    · rw [Vec3.get_set_of_ne _ haxis, Vec3.get_set_of_ne _ haxis]
      have hzero : (Vec3.zero : Vec3 Rat).get axis = 0 := by cases axis <;> rfl
      rw [hzero, mul_zero]
  case get_eq =>
    intro t ht v hv
    rw [halves_eq_map] at ht
    obtain ⟨unit, hunit, rfl⟩ := List.mem_map.mp ht
    obtain ⟨w, hw, rfl⟩ : ∃ w ∈ unit.toList, stretch center dimensions w = v :=
      List.mem_map.mp hv
    rw [get_stretch, hplane unit hunit w hw, mul_comm face.sign]

/-- A face stands off on the positive side or on the negative one. -/
theorem sign_eq_or (face : Face) : face.sign = 1 ∨ face.sign = -1 := by
  cases face <;> decide

/-- The third axis of the grid of a face is the axis along which the face stands off. -/
theorem axis_grid (face : Face) : (face.grid : FaceGrid Rat).w = face.axis := by
  cases face <;> rfl

/-- The depth of a face is the dimension along its axis, on its own side. -/
theorem depth_extents (face : Face) (dimensions : Vec3 Rat) :
    (face.extents dimensions).depth = face.sign * dimensions.get face.axis := by
  cases face <;> simp [extents, sign, axis, Vec3.get]

/-- The normal of a face points to its side, when the box has a positive dimension there. -/
theorem normal_quad {face : Face} (h : 0 < dimensions.get face.axis) :
    (face.quad center dimensions).normal = Vec3.zero.set face.axis face.sign := by
  have hnormal : (face.quad center dimensions).normal =
      (face.grid : FaceGrid Rat).normal (face.extents dimensions).depth := rfl
  rw [hnormal, FaceGrid.normal, axis_grid, depth_extents, Axis.scale_unit]
  rcases face.sign_eq_or with hsign | hsign
  · have hpos : (Scalar.ofNat 0 : Rat) < 1 * dimensions.get face.axis := by
      rw [one_mul]
      exact h
    rw [hsign, if_pos hpos]
    rfl
  · have hneg : ¬(Scalar.ofNat 0 : Rat) < -1 * dimensions.get face.axis := by
      rw [neg_one_mul, not_lt]
      exact neg_nonpos.mpr h.le
    rw [hsign, if_neg hneg]
    rfl

/-- A face of a box with positive dimensions is seen from outside. -/
theorem facesOutward (face : Face) (h : ∀ axis, 0 < dimensions.get axis) :
    face.FacesOutward center dimensions := by
  have hflat := face.liesFlat center dimensions
  have hsection : 0 < crossSection dimensions face.axis := crossSection_pos h face.axis
  constructor
  case exists_scale =>
    intro t ht
    refine ⟨_, hsection, ?_⟩
    rw [hflat.edgeCross_eq t ht, normal_quad (h face.axis), Vec3.scale_set_zero]
  case dot_pos =>
    intro t ht v hv
    have hdistance : (v - center).get face.axis = face.sign * (dimensions.get face.axis / 2) := by
      rw [Vec3.get_sub, hflat.get_eq t ht v hv, add_sub_cancel_left]
    have hdot : (edgeCross t).dot (v - center) =
        face.sign * face.sign * (crossSection dimensions face.axis *
          (dimensions.get face.axis / 2)) := by
      rw [hflat.edgeCross_eq t ht, Vec3.dot_set_zero, hdistance]
      ring
    rw [hdot, mul_sign_self, one_mul]
    exact mul_pos hsection (half_pos (h face.axis))

end Faces

end Face

/-! ### All faces -/

/-- The triangles of all faces of a box. -/
def boxSurface (center dimensions : Vec3 Rat) : List (Vec3 (Vec3 Rat)) :=
  triples (FaceSet.all.triangles center dimensions)

/-- The volume that triangles enclose, counted negative where they are seen from inside. -/
def signedVolume (surface : List (Vec3 (Vec3 Rat))) : Rat :=
  (surface.map fun t => t.x.dot (t.y.cross t.z)).sum / 6

/-- What it means that triangles are a closed surface with the given corners. -/
structure ClosesAround (surface : List (Vec3 (Vec3 Rat))) (corners : List (Vec3 Rat)) : Prop where
  length_surface : surface.length = 12
  length_corners : corners.length = 8
  nodup_corners : corners.Nodup
  /-- The triangles have these corners and no others. -/
  mem_corners_iff : ∀ v, v ∈ corners ↔ ∃ t ∈ surface, v ∈ t.toList
  /-- An edge is run through once in each direction. -/
  count_edges : ∀ e ∈ edges surface, (edges surface).count e = 1 ∧ (edges surface).count e.swap = 1

section Surface

variable {center dimensions : Vec3 Rat}

/-- The surface of a box is made of the triangles of its six faces, one face after the other. -/
theorem boxSurface_eq_flatMap (center dimensions : Vec3 Rat) :
    boxSurface center dimensions = Face.all.flatMap fun face => face.halves center dimensions := rfl

/-- The surface of a box is that of the box with corners one away from the origin. -/
theorem boxSurface_eq_map (center dimensions : Vec3 Rat) :
    boxSurface center dimensions =
      (boxSurface Vec3.zero (Vec3.splat 2)).map (Vec3.map (stretch center dimensions)) := by
  rw [boxSurface_eq_flatMap, boxSurface_eq_flatMap, List.map_flatMap]
  exact List.flatMap_congr fun face _ => face.halves_eq_map center dimensions

/-- A closed surface stays one when its points are moved and no two of them become one. -/
theorem ClosesAround.map {surface : List (Vec3 (Vec3 Rat))} {corners : List (Vec3 Rat)}
    (h : ClosesAround surface corners) {f : Vec3 Rat → Vec3 Rat} (hf : Function.Injective f) :
    ClosesAround (surface.map (Vec3.map f)) (corners.map f) := by
  constructor
  case length_surface => rw [List.length_map, h.length_surface]
  case length_corners => rw [List.length_map, h.length_corners]
  case nodup_corners => exact h.nodup_corners.map hf
  case mem_corners_iff =>
    intro v
    constructor
    · intro hv
      obtain ⟨w, hw, rfl⟩ := List.mem_map.mp hv
      obtain ⟨t, ht, hmem⟩ := (h.mem_corners_iff w).mp hw
      exact ⟨t.map f, List.mem_map_of_mem ht, List.mem_map_of_mem hmem⟩
    · rintro ⟨moved, hmoved, hv⟩
      obtain ⟨t, ht, rfl⟩ := List.mem_map.mp hmoved
      obtain ⟨w, hw, rfl⟩ : ∃ w ∈ t.toList, f w = v := List.mem_map.mp hv
      exact List.mem_map_of_mem ((h.mem_corners_iff w).mpr ⟨t, ht, hw⟩)
  -- an injective map brings no two edges together
  case count_edges =>
    intro moved hmoved
    rw [edges_map] at hmoved ⊢
    obtain ⟨e, he, rfl⟩ := List.mem_map.mp hmoved
    have hinjective : Function.Injective (Prod.map f f) := hf.prodMap hf
    have hswap : (Prod.map f f e).swap = Prod.map f f e.swap := rfl
    rw [hswap, List.count_map_of_injective _ _ hinjective,
      List.count_map_of_injective _ _ hinjective]
    exact h.count_edges e he

/-- The box with corners one away from the origin has a closed surface. -/
theorem closesAround_unitCorners :
    ClosesAround (boxSurface Vec3.zero (Vec3.splat 2)) unitCorners := by
  have hused : ∀ v ∈ unitCorners,
      ∃ t ∈ boxSurface Vec3.zero (Vec3.splat 2), v ∈ t.toList := by decide +kernel
  have hmem : ∀ t ∈ boxSurface Vec3.zero (Vec3.splat 2), ∀ v ∈ t.toList,
      v ∈ unitCorners := by decide +kernel
  constructor
  case length_surface => rfl
  case length_corners => rfl
  case nodup_corners => decide +kernel
  case mem_corners_iff => exact fun v => ⟨hused v, fun ⟨t, ht, hv⟩ => hmem t ht v hv⟩
  case count_edges => decide +kernel

/-- The surface of a box is closed, unless the box is flat. -/
theorem closesAround_boxSurface (h : ∀ axis, dimensions.get axis ≠ 0) :
    ClosesAround (boxSurface center dimensions) (boxCorners center dimensions) := by
  rw [boxSurface_eq_map]
  exact closesAround_unitCorners.map (stretch_injective h)

/-- A face contributes its share of the volume, and what depends on where the centre is. -/
theorem sum_dot_cross_halves (face : Face) (center dimensions : Vec3 Rat) :
    ((face.halves center dimensions).map fun t => t.x.dot (t.y.cross t.z)).sum =
      dimensions.x * dimensions.y * dimensions.z +
        face.sign * (2 * center.get face.axis * crossSection dimensions face.axis) := by
  have hflat := face.liesFlat center dimensions
  have hhalf : ∀ t ∈ face.halves center dimensions,
      t.x.dot (t.y.cross t.z) = face.sign * crossSection dimensions face.axis *
        (center.get face.axis + face.sign * (dimensions.get face.axis / 2)) := by
    intro t ht
    rw [dot_cross_eq, hflat.edgeCross_eq t ht, Vec3.dot_set_zero,
      hflat.get_eq t ht t.x List.mem_cons_self]
  obtain ⟨a, b, hab⟩ : ∃ a b, face.halves center dimensions = [a, b] := ⟨_, _, rfl⟩
  rw [hab] at hhalf ⊢
  have ha := hhalf a List.mem_cons_self
  have hb := hhalf b (List.mem_cons_of_mem a List.mem_cons_self)
  rw [List.map_cons, List.map_cons, List.map_nil, List.sum_cons, List.sum_cons, List.sum_nil, ha,
    hb, ← mul_crossSection dimensions face.axis]
  linear_combination
    dimensions.get face.axis * crossSection dimensions face.axis * face.mul_sign_self

/-- The triangles of a box enclose the product of its dimensions. -/
theorem signedVolume_boxSurface (center dimensions : Vec3 Rat) :
    signedVolume (boxSurface center dimensions) =
      dimensions.x * dimensions.y * dimensions.z := by
  rw [signedVolume, boxSurface_eq_flatMap]
  simp only [Face.all, List.flatMap_cons, List.flatMap_nil, List.map_append, List.sum_append,
    sum_dot_cross_halves, Face.sign, Face.axis, List.map_nil, List.sum_nil]
  ring

end Surface

/-- The surface of a box.  Whatever the signs of its dimensions are, every face lies across its axis
at half a dimension from the centre, on the side that its name says, its two triangles have the same
cross product of edges, and all triangles together enclose the product of the dimensions.  Unless
the box is flat they are a closed surface around its eight corners, and with positive dimensions all
faces are seen from outside. -/
theorem boxSurface_closed_outward (center dimensions : Vec3 Rat) :
    (∀ face : Face, face.LiesFlat center dimensions) ∧
    ((∀ axis, 0 < dimensions.get axis) → ∀ face : Face, face.FacesOutward center dimensions) ∧
    ((∀ axis, dimensions.get axis ≠ 0) →
      ClosesAround (boxSurface center dimensions) (boxCorners center dimensions)) ∧
    signedVolume (boxSurface center dimensions) = dimensions.x * dimensions.y * dimensions.z :=
  ⟨fun face => face.liesFlat center dimensions, fun h face => face.facesOutward h,
    closesAround_boxSurface, signedVolume_boxSurface center dimensions⟩

/-- A box with three different dimensions, away from the origin. -/
theorem boxSurface_closed_outward_uneven :
    (∀ face : Face, face.FacesOutward ⟨5, -1, 0⟩ ⟨1, 2, 1 / 3⟩) ∧
      ClosesAround (boxSurface ⟨5, -1, 0⟩ ⟨1, 2, 1 / 3⟩) (boxCorners ⟨5, -1, 0⟩ ⟨1, 2, 1 / 3⟩) ∧
      signedVolume (boxSurface ⟨5, -1, 0⟩ ⟨1, 2, 1 / 3⟩) = 2 / 3 := by
  have hpos : ∀ axis, 0 < (⟨1, 2, 1 / 3⟩ : Vec3 Rat).get axis := by
    intro axis
    cases axis <;> norm_num [Vec3.get]
  obtain ⟨-, houtward, hcloses, hvolume⟩ := boxSurface_closed_outward ⟨5, -1, 0⟩ ⟨1, 2, 1 / 3⟩
  refine ⟨houtward hpos, hcloses fun axis => (hpos axis).ne', ?_⟩
  rw [hvolume]
  norm_num

end LatticeScene.Shape
