import LatticeScene.Proofs.Binary32.Finite
import LatticeScene.Proofs.Shape.Envelope
import LatticeScene.Shape.Face

/-!
# The vertices of finite boxes

A box with a finite corner and finite extents has vertices without NaN
(`isNumber_of_mem_triangles`).  Its centre and its vertices may be infinite.  But half of an extent
is finite, and so is its distance from any edge, so that it is never an infinity that is added to
the centre.
-/

namespace LatticeScene.Shape

open Binary32

/-- A point with finite coordinates. -/
def Vec3.IsFinite (v : Vec3 Float32) : Prop := ∀ axis, (v.get axis).isFinite = true

instance (v : Vec3 Float32) : Decidable v.IsFinite := decidable_of_iff' _ Axis.forall_iff

/-- A vector without NaN stays so when a component is set to a number. -/
theorem Vec3.IsNumber.set {v : Vec3 Float32} (h : v.IsNumber) (axis : Axis) {a : Float32}
    (ha : a.isNaN = false) : (v.set axis a).IsNumber := by
  intro other
  by_cases heq : axis = other
  · rw [heq, Vec3.get_set_self]
    exact ha
  · rw [Vec3.get_set_of_ne v heq]
    exact h other

/-- The origin is without NaN. -/
theorem Vec3.isNumber_zero : (Vec3.zero : Vec3 Float32).IsNumber := by decide +kernel

/-- A corner box without infinities and NaN. -/
def CornerBox.IsFinite (box : CornerBox Float32) : Prop :=
  box.position.IsFinite ∧ box.dimensions.IsFinite

instance (box : CornerBox Float32) : Decidable box.IsFinite :=
  inferInstanceAs (Decidable (box.position.IsFinite ∧ box.dimensions.IsFinite))

/-- The centre of a finite box may be infinite, but it is not NaN. -/
theorem CornerBox.IsFinite.isNumber_center {box : CornerBox Float32} (h : box.IsFinite) :
    box.center.IsNumber := by
  obtain ⟨hposition, hdimensions⟩ := h
  intro axis
  obtain ⟨s, hcorner⟩ := exists_signed_of_isFinite (hposition axis)
  obtain ⟨t, hextent⟩ := exists_signed_of_isFinite (hdimensions axis)
  have hfinite : (0.5 : Float32).isFinite = true := by decide +kernel
  obtain ⟨u, hhalf⟩ := exists_signed_of_isFinite hfinite
  have hget : box.center.get axis =
      box.position.get axis + box.dimensions.get axis * 0.5 := by
    cases axis <;> rfl
  rw [hget]
  exact hcorner.isNaN_add (hextent.isNaN_mul hhalf)

section Face

variable {origin : Float32}

/-- The coordinates of the corners of a face along one of its edges. -/
theorem isNaN_along_edge {extent sign : Float32} {i : Nat} (hextent : extent.isFinite = true)
    (hi : i = 0 ∨ i = 1) (hsign : sign = Float32.ofNat 1 ∨ sign = -Float32.ofNat 1)
    (horigin : origin.isNaN = false) :
    ((Scalar.ofNat i * extent - extent / Scalar.ofNat 2) * sign + origin).isNaN = false := by
  obtain ⟨s, hsigned⟩ := exists_signed_of_isFinite hextent
  have hcorner : Signed s (Scalar.ofNat i * extent) := by
    rcases hi with rfl | rfl
    · exact hsigned.zero_mul
    · exact hsigned.one_mul
  obtain ⟨t, hdistance⟩ := hcorner.exists_signed_sub hsigned.half
  obtain ⟨u, hturned⟩ := hdistance.exists_signed_mul hsign
  exact hturned.isNaN_add horigin

/-- The coordinate of a face along its normal. -/
theorem isNaN_along_normal {depth : Float32} {s : Float.Model.UnpackedFloat.Sign}
    (hdepth : Signed s depth) (horigin : origin.isNaN = false) :
    (depth / Scalar.ofNat 2 + origin).isNaN = false :=
  hdepth.half.isNaN_add horigin

end Face

/-- The directions of a face are one or minus one. -/
theorem Face.signs_grid (face : Face) :
    ((face.grid : FaceGrid Float32).uSign = Float32.ofNat 1 ∨
      (face.grid : FaceGrid Float32).uSign = -Float32.ofNat 1) ∧
    ((face.grid : FaceGrid Float32).vSign = Float32.ofNat 1 ∨
      (face.grid : FaceGrid Float32).vSign = -Float32.ofNat 1) := by
  cases face
  · exact ⟨Or.inr rfl, Or.inr rfl⟩
  · exact ⟨Or.inl rfl, Or.inr rfl⟩
  · exact ⟨Or.inl rfl, Or.inl rfl⟩
  · exact ⟨Or.inl rfl, Or.inr rfl⟩
  · exact ⟨Or.inl rfl, Or.inr rfl⟩
  · exact ⟨Or.inr rfl, Or.inr rfl⟩

/-- The extents of a face of a finite box are finite. -/
theorem Face.finite_extents {dimensions : Vec3 Float32} (h : dimensions.IsFinite) (face : Face) :
    (face.extents dimensions).width.isFinite = true ∧
      (face.extents dimensions).height.isFinite = true ∧
      ∃ s, Signed s (face.extents dimensions).depth := by
  have hnear : ∀ axis, ∃ s, Signed s (dimensions.get axis) := fun axis =>
    exists_signed_of_isFinite (h axis)
  have hfar : ∀ axis, ∃ s, Signed s (-dimensions.get axis) := by
    intro axis
    obtain ⟨s, hsigned⟩ := hnear axis
    exact ⟨-s, hsigned.neg⟩
  cases face
  · exact ⟨h .z, h .y, hnear .x⟩
  · exact ⟨h .z, h .y, hfar .x⟩
  · exact ⟨h .x, h .z, hnear .y⟩
  · exact ⟨h .x, h .z, hfar .y⟩
  · exact ⟨h .x, h .y, hnear .z⟩
  · exact ⟨h .x, h .y, hfar .z⟩

section Corners

variable {origin dimensions : Vec3 Float32}

/-- The corners of the faces of a finite box are not NaN. -/
theorem isNumber_corner (horigin : origin.IsNumber) (hdimensions : dimensions.IsFinite)
    (face : Face) {ix iy : Nat} (hx : ix = 0 ∨ ix = 1) (hy : iy = 0 ∨ iy = 1) :
    (face.grid.point origin (face.extents dimensions)
      (Scalar.ofNat ix * (face.extents dimensions).width)
      (Scalar.ofNat iy * (face.extents dimensions).height)).IsNumber := by
  obtain ⟨hwidth, hheight, s, hdepth⟩ := face.finite_extents hdimensions
  obtain ⟨hu, hv⟩ := face.signs_grid
  refine Vec3.IsNumber.set (Vec3.IsNumber.set (Vec3.isNumber_zero.set _ ?_) _ ?_) _ ?_
  · exact isNaN_along_edge hwidth hx hu (horigin face.grid.u)
  · exact isNaN_along_edge hheight hy hv (horigin face.grid.v)
  · exact isNaN_along_normal hdepth (horigin face.grid.w)

/-- The vertices of a finite box around a point without NaN are without NaN. -/
theorem isNumber_of_mem_triangles (horigin : origin.IsNumber) (hdimensions : dimensions.IsFinite)
    {face : Face} {vertex : Vec3 Float32}
    (h : vertex ∈ (face.quad origin dimensions).triangles) : vertex.IsNumber := by
  obtain ⟨t, -, hcorner⟩ := List.mem_flatMap.mp h
  obtain ⟨i, -, hi⟩ := List.mem_filterMap.mp hcorner
  have hmem : vertex ∈ (face.quad origin dimensions).corners := Vector.mem_of_getElem? hi
  simp only [Face.quad, FaceGrid.quad, Vector.mem_mk, List.mem_toArray, List.mem_cons,
    List.not_mem_nil, or_false] at hmem
  rcases hmem with rfl | rfl | rfl | rfl
  · exact isNumber_corner horigin hdimensions face (Or.inl rfl) (Or.inl rfl)
  · exact isNumber_corner horigin hdimensions face (Or.inr rfl) (Or.inl rfl)
  · exact isNumber_corner horigin hdimensions face (Or.inl rfl) (Or.inr rfl)
  · exact isNumber_corner horigin hdimensions face (Or.inr rfl) (Or.inr rfl)

end Corners

end LatticeScene.Shape
