import LatticeScene.Proofs.Shape.Envelope

/-!
# Envelopes and the order of points

The envelope of points without NaN is a pair of numbers on every axis that depends on the set of the
points alone (`sameNumbers_of_subset`).  It may differ in the sign of a zero, which is that of the
last zero among the extreme coordinates.  Apart from that, envelopes can be compared bit for bit:
uniting two of them gives the envelope of both lists of points, one after the other
(`union_ofPoints`).

With NaN an envelope remembers less, namely the coordinates behind the last NaN
(`get_ofPoints_of_number`).
-/

namespace LatticeScene.Shape.Envelope

open Binary32

/-- Envelopes that are equal as numbers, where a zero is equal to zero whatever its sign. -/
def SameNumbers (e other : Envelope) : Prop :=
  ∀ axis, (e.min.get axis == other.min.get axis) = true ∧
    (e.max.get axis == other.max.get axis) = true

section Points

variable {points others : List (Vec3 Float32)}

/-- More points do not make an envelope smaller. -/
theorem place_get_ofPoints_le (h : ∀ p ∈ points, p.IsNumber) (hsubset : others ⊆ points)
    (axis : Axis) :
    place ((ofPoints points).min.get axis) ≤ place ((ofPoints others).min.get axis) ∧
      place ((ofPoints others).max.get axis) ≤ place ((ofPoints points).max.get axis) := by
  have hothers : ∀ p ∈ others, p.IsNumber := fun p hp => h p (hsubset hp)
  have hcoordinates : coordinates others axis ⊆ coordinates points axis :=
    List.map_subset _ hsubset
  rw [(get_ofPoints h axis).1, (get_ofPoints h axis).2, (get_ofPoints hothers axis).1,
    (get_ofPoints hothers axis).2]
  refine ⟨key_pickAll_le_of_subset place infinity hcoordinates, ?_⟩
  exact Int.neg_le_neg_iff.mp
    (key_pickAll_le_of_subset (fun x => -place x) negInfinity hcoordinates)

/-- Points that are the same but for order and repetition have the same envelope. -/
theorem sameNumbers_of_subset (h : ∀ p ∈ points, p.IsNumber) (hsubset : others ⊆ points)
    (hsubset' : points ⊆ others) : (ofPoints others).SameNumbers (ofPoints points) := by
  have hothers : ∀ p ∈ others, p.IsNumber := fun p hp => h p (hsubset hp)
  intro axis
  obtain ⟨hmin, hmax⟩ := isNaN_get_ofPoints h axis
  obtain ⟨hmin', hmax'⟩ := isNaN_get_ofPoints hothers axis
  obtain ⟨hlow, hhigh⟩ := place_get_ofPoints_le h hsubset axis
  obtain ⟨hlow', hhigh'⟩ := place_get_ofPoints_le hothers hsubset' axis
  rw [beq_iff_place_eq hmin' hmin, beq_iff_place_eq hmax' hmax]
  exact ⟨Int.le_antisymm hlow' hlow, Int.le_antisymm hhigh hhigh'⟩

/-- A point that an envelope has been grown around does not make it grow again. -/
theorem sameNumbers_insert_of_mem (h : ∀ p ∈ points, p.IsNumber) {p : Vec3 Float32}
    (hp : p ∈ points) : ((ofPoints points).insert p).SameNumbers (ofPoints points) := by
  rw [← ofPoints_append_singleton]
  refine sameNumbers_of_subset h ?_ (List.subset_append_left points [p])
  exact List.append_subset.mpr ⟨List.Subset.refl points, fun q hq => List.mem_singleton.mp hq ▸ hp⟩

end Points

/-- What an envelope says about any points, and what it says about points without NaN.  On an axis
on which the last point is NaN it says nothing but that; otherwise it has the least and the greatest
of the coordinates behind the last NaN.  Without NaN it contains all points, depends as a pair of
numbers on nothing but which points there are, and is united with others as the lists of points
are. -/
theorem ofPoints_exact :
    (∀ points : List (Vec3 Float32),
      ((ofPoints points).isEmpty = true ↔ points = []) ∧
        ∀ before last, points = before ++ [last] → ∀ axis,
          ((last.get axis).isNaN = true →
            ((ofPoints points).min.get axis).isNaN = true ∧
              ((ofPoints points).max.get axis).isNaN = true) ∧
          ((last.get axis).isNaN = false →
            IsLeast {x | x ∈ numbersAtEnd (coordinates points axis)}
                ((ofPoints points).min.get axis) ∧
              IsGreatest {x | x ∈ numbersAtEnd (coordinates points axis)}
                ((ofPoints points).max.get axis))) ∧
      ∀ points : List (Vec3 Float32), (∀ p ∈ points, p.IsNumber) →
        (∀ p ∈ points, (ofPoints points).contains p = true ∧
          ((ofPoints points).insert p).SameNumbers (ofPoints points)) ∧
        (∀ others : List (Vec3 Float32), (∀ p, p ∈ others ↔ p ∈ points) →
          (ofPoints others).SameNumbers (ofPoints points)) ∧
        empty.union (ofPoints points) = ofPoints points ∧
        (ofPoints points).union empty = ofPoints points ∧
        ∀ others : List (Vec3 Float32), (∀ p ∈ others, p.IsNumber) →
          (ofPoints points).union (ofPoints others) = ofPoints (points ++ others) ∧
            ∀ more : List (Vec3 Float32), (∀ p ∈ more, p.IsNumber) →
              ((ofPoints points).union (ofPoints others)).union (ofPoints more) =
                (ofPoints points).union ((ofPoints others).union (ofPoints more)) := by
  refine ⟨fun points => ⟨isEmpty_ofPoints_iff, ?_⟩, fun points hpoints => ?_⟩
  · rintro before last rfl axis
    constructor
    · intro hnan
      obtain ⟨hmin, hmax⟩ := get_ofPoints_of_nan before hnan
      rw [hmin, hmax]
      exact ⟨hnan, hnan⟩
    · intro hnumber
      exact get_ofPoints_of_number before hnumber
  · have hnil : ∀ p ∈ ([] : List (Vec3 Float32)), p.IsNumber := fun p hp =>
      absurd hp List.not_mem_nil
    -- the empty envelope is that of no points, so that its laws are those of appending
    have hunion : ∀ xs ys : List (Vec3 Float32), (∀ p ∈ xs, p.IsNumber) → (∀ p ∈ ys, p.IsNumber) →
        (ofPoints xs).union (ofPoints ys) = ofPoints (xs ++ ys) := fun xs ys hxs hys =>
      union_ofPoints (List.forall_mem_append.mpr ⟨hxs, hys⟩)
    have hempty : ofPoints [] = empty := rfl
    refine ⟨fun p hp => ⟨contains_ofPoints hpoints hp, sameNumbers_insert_of_mem hpoints hp⟩,
      fun others hsame => ?_, ?_, ?_, fun others hothers => ⟨hunion _ _ hpoints hothers, ?_⟩⟩
    · exact sameNumbers_of_subset hpoints (fun p hp => (hsame p).mp hp)
        fun p hp => (hsame p).mpr hp
    · rw [← hempty, hunion _ _ hnil hpoints, List.nil_append]
    · rw [← hempty, hunion _ _ hpoints hnil, List.append_nil]
    · intro more hmore
      have hleft := List.forall_mem_append.mpr ⟨hpoints, hothers⟩
      have hright := List.forall_mem_append.mpr ⟨hothers, hmore⟩
      rw [hunion _ _ hpoints hothers, hunion _ _ hleft hmore, hunion _ _ hothers hmore,
        hunion _ _ hpoints hright, List.append_assoc]

/-- Four points with a NaN in the second one, and zeros of both signs. -/
def interrupted : List (Vec3 Float32) :=
  [⟨1, 0, 5⟩, ⟨.ofBits 0x7FC00000, -0, 4⟩, ⟨3, 2, -1⟩, ⟨2, -0, .ofBits 0x7FC00000⟩]

/-- Two zeros. -/
def zeros : List (Vec3 Float32) := [⟨0, 0, 0⟩, ⟨-0, 0, 0⟩]

/-- On the first axis the coordinates before NaN are forgotten, and on the last axis all are.
Points in another order have another envelope, in which only the sign of a zero is different. -/
theorem ofPoints_exact_interrupted :
    (IsLeast {x | x ∈ numbersAtEnd (coordinates interrupted .x)}
        ((ofPoints interrupted).min.get .x) ∧
      numbersAtEnd (coordinates interrupted .x) = [3, 2] ∧
      (ofPoints interrupted).min.get .x = 2 ∧
      ((ofPoints interrupted).max.get .z).isNaN = true) ∧
    (∀ p ∈ zeros, p.IsNumber) ∧ (ofPoints zeros.reverse).SameNumbers (ofPoints zeros) ∧
      ofPoints zeros.reverse ≠ ofPoints zeros := by
  obtain ⟨hany, hnumbers⟩ := ofPoints_exact
  obtain ⟨-, hlast⟩ := hany interrupted
  have hsplit : interrupted = interrupted.dropLast ++ [⟨2, -0, .ofBits 0x7FC00000⟩] := rfl
  have hzeros : ∀ p ∈ zeros, p.IsNumber := by decide +kernel
  obtain ⟨-, hsame, -⟩ := hnumbers zeros hzeros
  refine ⟨⟨((hlast _ _ hsplit .x).2 (by decide +kernel)).1, by decide +kernel, by decide +kernel,
    ((hlast _ _ hsplit .z).1 (by decide +kernel)).2⟩, hzeros,
    hsame zeros.reverse fun p => List.mem_reverse, by decide +kernel⟩

end LatticeScene.Shape.Envelope
