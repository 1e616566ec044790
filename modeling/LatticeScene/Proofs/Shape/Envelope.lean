import LatticeScene.Proofs.Binary32.Order
import LatticeScene.Shape.Space
import Mathlib.Data.List.Induction

/-!
# What an envelope encloses

Of two numbers an envelope keeps the one that comes first, or last, in the order of their places,
and the second one if they have the same place.  Numbers are `pick`ed in this way in any grouping
with the same result (`pick_assoc`), so that envelopes may be grown part by part
(`union_ofPoints`, `union_assoc`), as long as no coordinate is NaN.  The envelope of some points
contains them all (`contains_ofPoints`), and it is empty only if there are none
(`isEmpty_ofPoints_iff`).
-/

namespace LatticeScene.Shape

open Binary32

/-! ### Picking numbers -/

section Picking

variable (key : Float32 → Int)

/-- The number with the lesser key, the second one if the keys are equal. -/
def pick (a b : Float32) : Float32 := if key a < key b then a else b

/-- Which of three numbers is picked does not depend on how they are paired. -/
theorem pick_assoc (a b c : Float32) : pick key (pick key a b) c = pick key a (pick key b c) := by
  unfold pick
  by_cases hab : key a < key b
  · by_cases hbc : key b < key c
    · have hac : key a < key c := Int.lt_trans hab hbc
      rw [if_pos hab, if_pos hbc, if_pos hac, if_pos hab]
    · rw [if_pos hab, if_neg hbc]
  · by_cases hbc : key b < key c
    · rw [if_neg hab, if_pos hbc, if_neg hab]
    · have hac : ¬key a < key c := by omega
      rw [if_neg hab, if_neg hbc, if_neg hac]

/-- What is picked is one of the two numbers. -/
theorem pick_cases (a b : Float32) : pick key a b = a ∨ pick key a b = b := by
  unfold pick
  split
  · exact Or.inl rfl
  · exact Or.inr rfl

/-- What is picked has the lesser key. -/
theorem key_pick_le (a b : Float32) :
    key (pick key a b) ≤ key a ∧ key (pick key a b) ≤ key b := by
  unfold pick
  split <;> omega

/-- The number that is picked from several, or the one to start with if there are none. -/
def pickAll (start : Float32) (xs : List Float32) : Float32 := xs.foldl (pick key) start

/-- The last number is picked or what was picked from those before it. -/
theorem pickAll_append_singleton (start : Float32) (xs : List Float32) (x : Float32) :
    pickAll key start (xs ++ [x]) = pick key (pickAll key start xs) x := List.foldl_append

variable {key}

/-- If every number is picked over the start, picking from a first number on is picking between that
number and what is picked from the others. -/
theorem pickAll_eq_pick {start : Float32} (hstart : ∀ a, pick key a start = a) (a : Float32)
    (xs : List Float32) : pickAll key a xs = pick key a (pickAll key start xs) := by
  induction xs using List.reverseRecOn with
  | nil => exact (hstart a).symm
  | append_singleton xs x ih =>
    rw [pickAll_append_singleton, pickAll_append_singleton, ih, pick_assoc]

/-- Picking from two lists one after the other is picking from what each of them gives. -/
theorem pickAll_append {start : Float32} (hstart : ∀ a, pick key a start = a)
    (xs ys : List Float32) :
    pickAll key start (xs ++ ys) = pick key (pickAll key start xs) (pickAll key start ys) := by
  have happend : pickAll key start (xs ++ ys) = pickAll key (pickAll key start xs) ys :=
    List.foldl_append
  rw [happend, pickAll_eq_pick hstart]

variable (key) in
/-- What is picked has no greater key than what picking started with. -/
theorem key_pickAll_le_start (start : Float32) (xs : List Float32) :
    key (pickAll key start xs) ≤ key start := by
  induction xs using List.reverseRecOn with
  | nil => exact Int.le_refl _
  | append_singleton xs last ih =>
    rw [pickAll_append_singleton]
    exact Int.le_trans (key_pick_le key _ last).1 ih

variable (key) in
/-- What is picked has no greater key than any of the numbers. -/
theorem key_pickAll_le (start : Float32) {xs : List Float32} {x : Float32} (hx : x ∈ xs) :
    key (pickAll key start xs) ≤ key x := by
  induction xs using List.reverseRecOn with
  | nil => exact absurd hx List.not_mem_nil
  | append_singleton xs last ih =>
    have hle := key_pick_le key (pickAll key start xs) last
    rw [pickAll_append_singleton]
    rcases List.mem_append.mp hx with hold | hnew
    · exact Int.le_trans hle.1 (ih hold)
    · rw [List.mem_singleton.mp hnew]
      exact hle.2

variable (key) in
/-- What is picked is one of the numbers, or what picking started with. -/
theorem pickAll_mem (start : Float32) (xs : List Float32) :
    pickAll key start xs = start ∨ pickAll key start xs ∈ xs := by
  induction xs using List.reverseRecOn with
  | nil => exact Or.inl rfl
  | append_singleton xs last ih =>
    rw [pickAll_append_singleton, List.mem_append, List.mem_singleton]
    rcases pick_cases key (pickAll key start xs) last with hfirst | hsecond
    · rw [hfirst]
      rcases ih with hstart | hmem
      · exact Or.inl hstart
      · exact Or.inr (Or.inl hmem)
    · exact Or.inr (Or.inr hsecond)

variable (key) in
/-- Of more numbers none with a greater key is picked. -/
theorem key_pickAll_le_of_subset (start : Float32) {xs ys : List Float32} (h : ys ⊆ xs) :
    key (pickAll key start xs) ≤ key (pickAll key start ys) := by
  rcases pickAll_mem key start ys with hstart | hmem
  · rw [hstart]
    exact key_pickAll_le_start key start xs
  · exact key_pickAll_le key start (h hmem)

end Picking

/-! ### Choosing with NaN -/

/-- The numbers behind the last NaN of a list. -/
def numbersAtEnd (xs : List Float32) : List Float32 := xs.rtakeWhile fun x => !x.isNaN

/-- A number at the end of a list is one of the numbers at the end. -/
theorem numbersAtEnd_append_number (xs : List Float32) {x : Float32} (h : x.isNaN = false) :
    numbersAtEnd (xs ++ [x]) = numbersAtEnd xs ++ [x] :=
  List.rtakeWhile_concat_pos _ xs x (by rw [h]; rfl)

/-- Behind a NaN at the end of a list there are no numbers. -/
theorem numbersAtEnd_append_nan (xs : List Float32) {x : Float32} (h : x.isNaN = true) :
    numbersAtEnd (xs ++ [x]) = [] :=
  List.rtakeWhile_concat_neg _ xs x (by rw [h]; exact Bool.false_ne_true)

/-- The numbers at the end of a list are numbers. -/
theorem isNaN_of_mem_numbersAtEnd {xs : List Float32} {x : Float32} (h : x ∈ numbersAtEnd xs) :
    x.isNaN = false := by
  have hnumber : (!x.isNaN) = true :=
    List.mem_rtakeWhile_imp (p := fun x : Float32 => !x.isNaN) h
  rwa [Bool.not_eq_true'] at hnumber

/-- A list without NaN consists of the numbers at its end. -/
theorem numbersAtEnd_eq_self {xs : List Float32} (h : ∀ x ∈ xs, x.isNaN = false) :
    numbersAtEnd xs = xs :=
  List.rtakeWhile_eq_self_iff.mpr fun x hx => by rw [h x hx]; rfl

/-- A way to choose one of two numbers: the one with the lesser key, and always the second one if
NaN is among them.  There is a number to start with that is never chosen over another one. -/
structure ChoosesBy (choose : Float32 → Float32 → Float32) (key : Float32 → Int)
    (start : Float32) : Prop where
  eq_pick : ∀ {a b}, a.isNaN = false → b.isNaN = false → choose a b = pick key a b
  eq_second : ∀ {a b}, a.isNaN = true ∨ b.isNaN = true → choose a b = b
  isNaN_start : start.isNaN = false
  key_le_start : ∀ a, key a ≤ key start

namespace ChoosesBy

variable {choose : Float32 → Float32 → Float32} {key : Float32 → Int} {start : Float32}

/-- Every number is picked over the one to start with. -/
theorem pick_start (h : ChoosesBy choose key start) (a : Float32) : pick key start a = a :=
  if_neg (Int.not_lt.mpr (h.key_le_start a))

/-- The number to start with gives way to any other. -/
theorem choose_start_left (h : ChoosesBy choose key start) (a : Float32) : choose start a = a := by
  cases ha : a.isNaN with
  | true => exact h.eq_second (Or.inr ha)
  | false => rw [h.eq_pick h.isNaN_start ha, h.pick_start]

/-- Numbers are chosen in any grouping with the same result. -/
theorem assoc (h : ChoosesBy choose key start) {a b c : Float32} (ha : a.isNaN = false)
    (hb : b.isNaN = false) (hc : c.isNaN = false) :
    choose (choose a b) c = choose a (choose b c) := by
  have hpick : ∀ {x y : Float32}, x.isNaN = false → y.isNaN = false →
      (pick key x y).isNaN = false := by
    intro x y hx hy
    rcases pick_cases key x y with hfirst | hsecond
    · rwa [hfirst]
    · rwa [hsecond]
  rw [h.eq_pick ha hb, h.eq_pick hb hc, h.eq_pick (hpick ha hb) hc, h.eq_pick ha (hpick hb hc),
    pick_assoc]

/-- What is picked from numbers is a number. -/
theorem isNaN_pickAll (h : ChoosesBy choose key start) {xs : List Float32}
    (hxs : ∀ x ∈ xs, x.isNaN = false) : (pickAll key start xs).isNaN = false := by
  rcases pickAll_mem key start xs with heq | hmem
  · rw [heq]
    exact h.isNaN_start
  · exact hxs _ hmem

/-- NaN is kept only until the next number. -/
theorem foldl_cases (h : ChoosesBy choose key start) (xs : List Float32) :
    xs.foldl choose start = pickAll key start (numbersAtEnd xs) ∨
      numbersAtEnd xs = [] ∧ (xs.foldl choose start).isNaN = true := by
  induction xs using List.reverseRecOn with
  | nil => exact Or.inl rfl
  | append_singleton xs x ih =>
    rw [List.foldl_append, List.foldl_cons, List.foldl_nil]
    cases hx : x.isNaN with
    | true =>
      rw [numbersAtEnd_append_nan xs hx, h.eq_second (Or.inr hx)]
      exact Or.inr ⟨rfl, hx⟩
    | false =>
      refine Or.inl ?_
      rw [numbersAtEnd_append_number xs hx, pickAll_append_singleton]
      rcases ih with hpick | ⟨hend, hnan⟩
      · rw [hpick]
        exact h.eq_pick (h.isNaN_pickAll fun _ => isNaN_of_mem_numbersAtEnd) hx
      · rw [hend, h.eq_second (Or.inl hnan)]
        exact (h.pick_start x).symm

/-- A NaN at the end is kept. -/
theorem foldl_of_nan (h : ChoosesBy choose key start) (xs : List Float32) {x : Float32}
    (hx : x.isNaN = true) : (xs ++ [x]).foldl choose start = x := by
  rw [List.foldl_append, List.foldl_cons, List.foldl_nil, h.eq_second (Or.inr hx)]

/-- Otherwise one of the numbers behind the last NaN is chosen, and none of them has a lesser
key. -/
theorem foldl_of_number (h : ChoosesBy choose key start) (xs : List Float32) {x : Float32}
    (hx : x.isNaN = false) :
    (xs ++ [x]).foldl choose start ∈ numbersAtEnd (xs ++ [x]) ∧
      ∀ y ∈ numbersAtEnd (xs ++ [x]), key ((xs ++ [x]).foldl choose start) ≤ key y := by
  have hend := numbersAtEnd_append_number xs hx
  have hpick : (xs ++ [x]).foldl choose start = pickAll key start (numbersAtEnd (xs ++ [x])) := by
    rcases h.foldl_cases (xs ++ [x]) with hpick | ⟨hnone, -⟩
    · exact hpick
    · rw [hend] at hnone
      exact absurd hnone (List.append_ne_nil_of_right_ne_nil _ (List.cons_ne_nil x []))
  rw [hpick]
  refine ⟨?_, fun y hy => key_pickAll_le key start hy⟩
  -- the number to start with gives way to the first of the others
  cases hnumbers : numbersAtEnd (xs ++ [x]) with
  | nil =>
    rw [hend] at hnumbers
    exact absurd hnumbers (List.append_ne_nil_of_right_ne_nil _ (List.cons_ne_nil x []))
  | cons y ys =>
    have hfirst : pickAll key start (y :: ys) = pickAll key y ys := by
      rw [pickAll, List.foldl_cons, h.pick_start]
      rfl
    rw [hfirst, List.mem_cons]
    exact pickAll_mem key y ys

/-- On numbers, choosing one after the other is picking. -/
theorem foldl_eq_pickAll (h : ChoosesBy choose key start) {xs : List Float32}
    (hxs : ∀ x ∈ xs, x.isNaN = false) : xs.foldl choose start = pickAll key start xs := by
  rcases h.foldl_cases xs with hpick | ⟨hnone, -⟩
  · rwa [numbersAtEnd_eq_self hxs] at hpick
  · rw [numbersAtEnd_eq_self hxs] at hnone
    rw [hnone]
    rfl

end ChoosesBy

/-! ### Least and greatest coordinates -/

/-- There are three axes. -/
theorem Axis.forall_iff {P : Axis → Prop} : (∀ axis, P axis) ↔ P .x ∧ P .y ∧ P .z := by
  constructor
  · intro h
    exact ⟨h .x, h .y, h .z⟩
  · rintro ⟨hx, hy, hz⟩ axis
    cases axis
    · exact hx
    · exact hy
    · exact hz

/-- A point is known by its coordinates. -/
theorem Vec3.eq_of_get {α : Type} {v w : Vec3 α} (h : ∀ axis, v.get axis = w.get axis) :
    v = w := by
  obtain ⟨hx, hy, hz⟩ := Axis.forall_iff.mp h
  obtain ⟨x, y, z⟩ := v
  obtain rfl : x = w.x := hx
  obtain rfl : y = w.y := hy
  obtain rfl : z = w.z := hz
  rfl

/-- A point without NaN. -/
def Vec3.IsNumber (v : Vec3 Float32) : Prop := ∀ axis, (v.get axis).isNaN = false

instance (v : Vec3 Float32) : Decidable v.IsNumber := decidable_of_iff' _ Axis.forall_iff

section Extremes

variable {a b : Float32}

/-- Of two numbers the lesser one is the one with the lesser place. -/
theorem lesser_eq_pick (ha : a.isNaN = false) (hb : b.isNaN = false) :
    lesser a b = pick place a b := by
  unfold lesser pick
  simp only [lt_iff_place_lt ha hb]

/-- Of two numbers the greater one is the one with the greater place. -/
theorem greater_eq_pick (ha : a.isNaN = false) (hb : b.isNaN = false) :
    greater a b = pick (fun x => -place x) a b := by
  unfold greater pick
  simp only [lt_iff_place_lt hb ha, Int.neg_lt_neg_iff]

/-- The lesser of two numbers is chosen by its place, and infinity is never chosen over another
number. -/
theorem choosesBy_lesser : ChoosesBy lesser place infinity where
  eq_pick ha hb := lesser_eq_pick ha hb
  eq_second := by
    intro a b h
    refine if_neg fun hlt => ?_
    obtain ⟨ha, hb⟩ := isNaN_eq_false_of_lt hlt
    rw [ha, hb] at h
    exact h.elim Bool.false_ne_true Bool.false_ne_true
  isNaN_start := isNaN_infinity
  key_le_start := by
    intro a
    by_contra hlt
    have ha : a = infinity := eq_infinity_of_place_le (Int.le_of_lt (Int.not_le.mp hlt))
    exact hlt (Int.le_of_eq (congrArg place ha))

/-- The greater of two numbers is chosen by its place, and negative infinity is never chosen over
another number. -/
theorem choosesBy_greater : ChoosesBy greater (fun x => -place x) negInfinity where
  eq_pick ha hb := greater_eq_pick ha hb
  eq_second := by
    intro a b h
    refine if_neg fun hlt => ?_
    obtain ⟨hb, ha⟩ := isNaN_eq_false_of_lt hlt
    rw [ha, hb] at h
    exact h.elim Bool.false_ne_true Bool.false_ne_true
  isNaN_start := isNaN_negInfinity
  key_le_start := by
    intro a
    rw [Int.neg_le_neg_iff]
    by_contra hlt
    have ha : a = negInfinity := eq_negInfinity_of_place_le (Int.le_of_lt (Int.not_le.mp hlt))
    exact hlt (Int.le_of_eq (congrArg place ha).symm)

/-- No number has a place above that of infinity. -/
theorem pick_place_infinity (a : Float32) : pick place a infinity = a := by
  unfold pick
  split
  · rfl
  · next h => exact (eq_infinity_of_place_le (Int.not_lt.mp h)).symm

/-- No number has a place below that of negative infinity. -/
theorem pick_neg_place_negInfinity (a : Float32) :
    pick (fun x => -place x) a negInfinity = a := by
  unfold pick
  split
  · rfl
  · next h =>
    rw [Int.neg_lt_neg_iff] at h
    exact (eq_negInfinity_of_place_le (Int.not_lt.mp h)).symm

end Extremes

/-! ### Envelopes of points -/

namespace Envelope

section Components

variable (e other : Envelope) (axis : Axis)

/-- The least corner of a union has the lesser of the least coordinates. -/
theorem get_min_union :
    (e.union other).min.get axis = lesser (e.min.get axis) (other.min.get axis) := by
  cases axis <;> rfl

/-- The greatest corner of a union has the greater of the greatest coordinates. -/
theorem get_max_union :
    (e.union other).max.get axis = greater (e.max.get axis) (other.max.get axis) := by
  cases axis <;> rfl

/-- The least corner of the empty envelope is infinite on every axis. -/
theorem get_min_empty : empty.min.get axis = infinity := by
  cases axis <;> rfl

/-- The greatest corner of the empty envelope is negatively infinite on every axis. -/
theorem get_max_empty : empty.max.get axis = negInfinity := by
  cases axis <;> rfl

variable {e other} in
/-- Two envelopes with the same coordinates on every axis are the same. -/
theorem eq_of_get (hmin : ∀ axis, e.min.get axis = other.min.get axis)
    (hmax : ∀ axis, e.max.get axis = other.max.get axis) : e = other := by
  obtain ⟨low, high⟩ := e
  obtain rfl : low = other.min := Vec3.eq_of_get hmin
  obtain rfl : high = other.max := Vec3.eq_of_get hmax
  rfl

variable {e} in
/-- An envelope contains a point that is between its corners on every axis. -/
theorem contains_iff {point : Vec3 Float32} :
    e.contains point = true ↔
      ∀ axis, e.min.get axis ≤ point.get axis ∧ point.get axis ≤ e.max.get axis := by
  simp only [Axis.forall_iff, contains, Vec3.all₂, Bool.and_eq_true, decide_eq_true_eq]
  constructor
  · rintro ⟨⟨⟨hx, hy⟩, hz⟩, ⟨hx', hy'⟩, hz'⟩
    exact ⟨⟨hx, hx'⟩, ⟨hy, hy'⟩, hz, hz'⟩
  · rintro ⟨⟨hx, hx'⟩, ⟨hy, hy'⟩, hz, hz'⟩
    exact ⟨⟨⟨hx, hy⟩, hz⟩, ⟨hx', hy'⟩, hz'⟩

variable {e} in
/-- An envelope is empty when its corners are the wrong way round on some axis. -/
theorem isEmpty_iff : e.isEmpty = true ↔ ∃ axis, e.max.get axis < e.min.get axis := by
  simp only [isEmpty, Bool.or_eq_true, decide_eq_true_eq]
  constructor
  · rintro ((hx | hy) | hz)
    · exact ⟨.x, hx⟩
    · exact ⟨.y, hy⟩
    · exact ⟨.z, hz⟩
  · rintro ⟨axis, h⟩
    cases axis
    · exact Or.inl (Or.inl h)
    · exact Or.inl (Or.inr h)
    · exact Or.inr h

end Components

/-- Nothing lies in the envelope of no points. -/
theorem contains_empty (point : Vec3 Float32) : empty.contains point = false := by
  refine Bool.eq_false_iff.mpr fun hcontains => ?_
  obtain ⟨hmin, hmax⟩ := contains_iff.mp hcontains .x
  rw [get_min_empty] at hmin
  rw [get_max_empty] at hmax
  have hpoint := isNaN_eq_false_of_le hmin
  rw [le_iff_place_le isNaN_infinity hpoint, place_infinity] at hmin
  rw [le_iff_place_le hpoint isNaN_negInfinity, place_negInfinity] at hmax
  omega

/-- Growing an envelope around one more point. -/
theorem ofPoints_append_singleton (points : List (Vec3 Float32)) (point : Vec3 Float32) :
    ofPoints (points ++ [point]) = (ofPoints points).insert point := by
  rw [ofPoints, ofPoints, List.foldl_append, List.foldl_cons, List.foldl_nil]

/-- The coordinates of points along an axis. -/
def coordinates (points : List (Vec3 Float32)) (axis : Axis) : List Float32 :=
  points.map (·.get axis)

/-- On every axis the coordinates are taken in turn. -/
theorem get_foldl_insert (points : List (Vec3 Float32)) (e : Envelope) (axis : Axis) :
    (points.foldl insert e).min.get axis =
        (coordinates points axis).foldl lesser (e.min.get axis) ∧
      (points.foldl insert e).max.get axis =
        (coordinates points axis).foldl greater (e.max.get axis) := by
  induction points generalizing e with
  | nil => exact ⟨rfl, rfl⟩
  | cons point points ih =>
    obtain ⟨hmin, hmax⟩ := ih (e.insert point)
    rw [insert, get_min_union] at hmin
    rw [insert, get_max_union] at hmax
    exact ⟨hmin, hmax⟩

/-- The least corner around points is found by taking the lesser coordinate, one point after the
other. -/
theorem get_min_ofPoints (points : List (Vec3 Float32)) (axis : Axis) :
    (ofPoints points).min.get axis = (coordinates points axis).foldl lesser infinity := by
  rw [ofPoints, (get_foldl_insert points empty axis).1, get_min_empty]

/-- The greatest corner around points is found by taking the greater coordinate, one point after the
other. -/
theorem get_max_ofPoints (points : List (Vec3 Float32)) (axis : Axis) :
    (ofPoints points).max.get axis = (coordinates points axis).foldl greater negInfinity := by
  rw [ofPoints, (get_foldl_insert points empty axis).2, get_max_empty]

section Points

variable {points : List (Vec3 Float32)}

/-- Points without NaN have no NaN among their coordinates. -/
theorem isNaN_of_mem_coordinates (h : ∀ p ∈ points, p.IsNumber) (axis : Axis) :
    ∀ x ∈ coordinates points axis, x.isNaN = false := by
  intro x hx
  obtain ⟨p, hp, rfl⟩ := List.mem_map.mp hx
  exact h p hp axis

/-- On every axis the envelope of points has the first and the last of their coordinates. -/
theorem get_ofPoints (h : ∀ p ∈ points, p.IsNumber) (axis : Axis) :
    (ofPoints points).min.get axis = pickAll place infinity (coordinates points axis) ∧
      (ofPoints points).max.get axis =
        pickAll (fun x => -place x) negInfinity (coordinates points axis) := by
  have hcoordinates := isNaN_of_mem_coordinates h axis
  rw [get_min_ofPoints, get_max_ofPoints]
  exact ⟨choosesBy_lesser.foldl_eq_pickAll hcoordinates,
    choosesBy_greater.foldl_eq_pickAll hcoordinates⟩

/-- The corners of the envelope of points without NaN are without NaN. -/
theorem isNaN_get_ofPoints (h : ∀ p ∈ points, p.IsNumber) (axis : Axis) :
    ((ofPoints points).min.get axis).isNaN = false ∧
      ((ofPoints points).max.get axis).isNaN = false := by
  have hcoordinates := isNaN_of_mem_coordinates h axis
  rw [(get_ofPoints h axis).1, (get_ofPoints h axis).2]
  exact ⟨choosesBy_lesser.isNaN_pickAll hcoordinates,
    choosesBy_greater.isNaN_pickAll hcoordinates⟩

/-- Envelopes are united as the points are. -/
theorem union_ofPoints {others : List (Vec3 Float32)} (h : ∀ p ∈ points ++ others, p.IsNumber) :
    (ofPoints points).union (ofPoints others) = ofPoints (points ++ others) := by
  have hpoints : ∀ p ∈ points, p.IsNumber := fun p hp => h p (List.mem_append_left _ hp)
  have hothers : ∀ p ∈ others, p.IsNumber := fun p hp => h p (List.mem_append_right _ hp)
  have hcoordinates : ∀ axis, coordinates (points ++ others) axis =
      coordinates points axis ++ coordinates others axis := fun _ => List.map_append
  apply eq_of_get
  · intro axis
    rw [get_min_union, lesser_eq_pick (isNaN_get_ofPoints hpoints axis).1
      (isNaN_get_ofPoints hothers axis).1, (get_ofPoints hpoints axis).1,
      (get_ofPoints hothers axis).1, (get_ofPoints h axis).1, hcoordinates,
      pickAll_append pick_place_infinity]
  · intro axis
    rw [get_max_union, greater_eq_pick (isNaN_get_ofPoints hpoints axis).2
      (isNaN_get_ofPoints hothers axis).2, (get_ofPoints hpoints axis).2,
      (get_ofPoints hothers axis).2, (get_ofPoints h axis).2, hcoordinates,
      pickAll_append pick_neg_place_negInfinity]

/-- The envelope of points contains them. -/
theorem contains_ofPoints (h : ∀ p ∈ points, p.IsNumber) {p : Vec3 Float32} (hp : p ∈ points) :
    (ofPoints points).contains p = true := by
  refine contains_iff.mpr fun axis => ?_
  have hmem : p.get axis ∈ coordinates points axis := List.mem_map_of_mem hp
  obtain ⟨hmin, hmax⟩ := isNaN_get_ofPoints h axis
  rw [le_iff_place_le hmin (h p hp axis), le_iff_place_le (h p hp axis) hmax,
    (get_ofPoints h axis).1, (get_ofPoints h axis).2]
  constructor
  · exact key_pickAll_le place infinity hmem
  · have hle := key_pickAll_le (fun x => -place x) negInfinity hmem
    omega

end Points

section LastPoint

variable (points : List (Vec3 Float32)) {last : Vec3 Float32} {axis : Axis}

/-- The coordinates of a last point come last. -/
theorem coordinates_append_singleton :
    coordinates (points ++ [last]) axis = coordinates points axis ++ [last.get axis] :=
  List.map_append

/-- A NaN of the last point is kept. -/
theorem get_ofPoints_of_nan (h : (last.get axis).isNaN = true) :
    (ofPoints (points ++ [last])).min.get axis = last.get axis ∧
      (ofPoints (points ++ [last])).max.get axis = last.get axis := by
  rw [get_min_ofPoints, get_max_ofPoints, coordinates_append_singleton]
  exact ⟨choosesBy_lesser.foldl_of_nan _ h, choosesBy_greater.foldl_of_nan _ h⟩

/-- Otherwise an envelope has the least and the greatest of the coordinates behind the last NaN. -/
theorem get_ofPoints_of_number (h : (last.get axis).isNaN = false) :
    IsLeast {x | x ∈ numbersAtEnd (coordinates (points ++ [last]) axis)}
        ((ofPoints (points ++ [last])).min.get axis) ∧
      IsGreatest {x | x ∈ numbersAtEnd (coordinates (points ++ [last]) axis)}
        ((ofPoints (points ++ [last])).max.get axis) := by
  rw [get_min_ofPoints, get_max_ofPoints, coordinates_append_singleton]
  obtain ⟨hmin, hleast⟩ := choosesBy_lesser.foldl_of_number (coordinates points axis) h
  obtain ⟨hmax, hgreatest⟩ := choosesBy_greater.foldl_of_number (coordinates points axis) h
  refine ⟨⟨hmin, fun x hx => ?_⟩, hmax, fun x hx => ?_⟩
  · rw [le_iff_place_le (isNaN_of_mem_numbersAtEnd hmin) (isNaN_of_mem_numbersAtEnd hx)]
    exact hleast x hx
  · rw [le_iff_place_le (isNaN_of_mem_numbersAtEnd hx) (isNaN_of_mem_numbersAtEnd hmax)]
    exact Int.neg_le_neg_iff.mp (hgreatest x hx)

end LastPoint

/-- The envelope of points is empty only if there are none. -/
theorem isEmpty_ofPoints_iff {points : List (Vec3 Float32)} :
    (ofPoints points).isEmpty = true ↔ points = [] := by
  constructor
  · intro hempty
    obtain ⟨axis, hlt⟩ := isEmpty_iff.mp hempty
    obtain ⟨hmax, hmin⟩ := isNaN_eq_false_of_lt hlt
    cases points using List.reverseRecOn with
    | nil => rfl
    | append_singleton points last =>
      cases hlast : (last.get axis).isNaN with
      | true =>
        rw [(get_ofPoints_of_nan points hlast).1, hlast] at hmin
        cases hmin
      | false =>
        -- the least coordinate is one of those that are not above the greatest
        obtain ⟨hleast, hgreatest⟩ := get_ofPoints_of_number points hlast
        have hle := hgreatest.2 hleast.1
        rw [le_iff_place_le hmin hmax] at hle
        rw [lt_iff_place_lt hmax hmin] at hlt
        omega
  · rintro rfl
    exact isEmpty_iff.mpr ⟨.x, by decide +kernel⟩

/-! ### Uniting envelopes -/

/-- An envelope without NaN. -/
def IsNumber (e : Envelope) : Prop := e.min.IsNumber ∧ e.max.IsNumber

instance (e : Envelope) : Decidable e.IsNumber :=
  inferInstanceAs (Decidable (e.min.IsNumber ∧ e.max.IsNumber))

/-- The envelope of points without NaN is without NaN, even if there are no points. -/
theorem isNumber_ofPoints {points : List (Vec3 Float32)} (h : ∀ p ∈ points, p.IsNumber) :
    (ofPoints points).IsNumber :=
  ⟨fun axis => (isNaN_get_ofPoints h axis).1, fun axis => (isNaN_get_ofPoints h axis).2⟩

/-- The envelope of no points grows to any other. -/
theorem empty_union (e : Envelope) : empty.union e = e := by
  apply eq_of_get
  · intro axis
    rw [get_min_union, get_min_empty, choosesBy_lesser.choose_start_left]
  · intro axis
    rw [get_max_union, get_max_empty, choosesBy_greater.choose_start_left]

/-- An envelope does not grow around no points. -/
theorem union_empty {e : Envelope} (h : e.IsNumber) : e.union empty = e := by
  apply eq_of_get
  · intro axis
    rw [get_min_union, get_min_empty, lesser_eq_pick (h.1 axis) isNaN_infinity,
      pick_place_infinity]
  · intro axis
    rw [get_max_union, get_max_empty, greater_eq_pick (h.2 axis) isNaN_negInfinity,
      pick_neg_place_negInfinity]

/-- Envelopes are united in any grouping with the same result. -/
theorem union_assoc {e f g : Envelope} (he : e.IsNumber) (hf : f.IsNumber) (hg : g.IsNumber) :
    (e.union f).union g = e.union (f.union g) := by
  apply eq_of_get
  · intro axis
    simp only [get_min_union]
    exact choosesBy_lesser.assoc (he.1 axis) (hf.1 axis) (hg.1 axis)
  · intro axis
    simp only [get_max_union]
    exact choosesBy_greater.assoc (he.2 axis) (hf.2 axis) (hg.2 axis)

end Envelope

end LatticeScene.Shape
