import LatticeScene.Binary32

/-!
# Space

Points and vectors in space, boxes along its axes, and the envelopes of points.
-/

namespace LatticeScene.Shape

/-!
## Scalars

The vertex formulas of boxes and faces are written once for every kind of number that can be
added, subtracted, multiplied, divided and compared.  Scenes are built with binary32 numbers,
whose operations round; with rational numbers the same formulas are exact.
-/

/-- A kind of number in which coordinates are computed. -/
class Scalar (α : Type) extends Add α, Sub α, Mul α, Div α, Neg α, LT α where
  /-- The number nearest to a natural number. -/
  ofNat : Nat → α
  /-- Numbers can be compared. -/
  decLt : (a b : α) → Decidable (a < b)

instance Scalar.decidableLt {α : Type} [Scalar α] (a b : α) : Decidable (a < b) :=
  Scalar.decLt a b

instance : Scalar Float32 where
  ofNat := Float32.ofNat
  decLt := Float32.decLt

instance : Scalar Rat where
  ofNat := fun (n : Nat) => (n : Rat)
  decLt := fun a b => inferInstanceAs (Decidable (a < b))

/-!
## Axes and vectors

Points, sizes and directions in space have three components of one kind.  `Vec3.get` and
`Vec3.set` reach a component by its axis.
-/

/-- One of the three coordinate axes. -/
inductive Axis where
  | x
  | y
  | z
deriving DecidableEq, Repr

namespace Axis

/-- All axes, in the order of components. -/
def all : List Axis := [x, y, z]

/-- The place of an axis in that order. -/
def index : Axis → Nat
  | x => 0
  | y => 1
  | z => 2

/-- The name of an axis. -/
def name : Axis → String
  | x => "X"
  | y => "Y"
  | z => "Z"

end Axis

/-- Three components of one kind. -/
structure Vec3 (α : Type) where
  x : α
  y : α
  z : α
deriving DecidableEq, Repr

namespace Vec3

variable {α β γ : Type}

/-- The same component three times. -/
def splat (a : α) : Vec3 α := ⟨a, a, a⟩

/-- The components in order. -/
def toList (v : Vec3 α) : List α := [v.x, v.y, v.z]

/-- The component along an axis. -/
def get (v : Vec3 α) : Axis → α
  | .x => v.x
  | .y => v.y
  | .z => v.z

/-- Replace the component along an axis. -/
def set (v : Vec3 α) (axis : Axis) (a : α) : Vec3 α :=
  match axis with
  | .x => { v with x := a }
  | .y => { v with y := a }
  | .z => { v with z := a }

/-- Apply a function to every component. -/
def map (f : α → β) (v : Vec3 α) : Vec3 β := ⟨f v.x, f v.y, f v.z⟩

/-- Combine two vectors component by component. -/
def map₂ (f : α → β → γ) (v : Vec3 α) (w : Vec3 β) : Vec3 γ := ⟨f v.x w.x, f v.y w.y, f v.z w.z⟩

/-- Whether a relation holds for every pair of components. -/
def all₂ (p : α → β → Bool) (v : Vec3 α) (w : Vec3 β) : Bool := p v.x w.x && p v.y w.y && p v.z w.z

/-- The component that was set is the one that is read. -/
@[simp] theorem get_set_self (v : Vec3 α) (axis : Axis) (a : α) : (v.set axis a).get axis = a := by
  cases axis <;> rfl

/-- Setting one component leaves the others alone. -/
theorem get_set_of_ne (v : Vec3 α) {i j : Axis} (h : i ≠ j) (a : α) :
    (v.set i a).get j = v.get j := by
  cases i <;> cases j <;> first | rfl | exact absurd rfl h

section Arithmetic

variable [Scalar α]

instance : Add (Vec3 α) := ⟨map₂ (· + ·)⟩

instance : Sub (Vec3 α) := ⟨map₂ (· - ·)⟩

/-- The vector with all components zero. -/
def zero : Vec3 α := splat (Scalar.ofNat 0)

/-- Multiply every component by a number. -/
def scale (v : Vec3 α) (s : α) : Vec3 α := v.map (· * s)

/-- The dot product, summed from the left. -/
def dot (v w : Vec3 α) : α := v.x * w.x + v.y * w.y + v.z * w.z

/-- The cross product. -/
def cross (v w : Vec3 α) : Vec3 α :=
  ⟨v.y * w.z - w.y * v.z, v.z * w.x - w.z * v.x, v.x * w.y - w.x * v.y⟩

end Arithmetic

/-- The vector with the same direction and length one.  A vector whose length has no finite
inverse gives the zero vector. -/
def normalized (v : Vec3 Float32) : Vec3 Float32 :=
  let inverse := 1 / (v.dot v).sqrt
  if inverse.isFinite && 0 < inverse then v.scale inverse else zero

end Vec3

/-- The vector of length one along an axis. -/
def Axis.unit {α : Type} [Scalar α] (axis : Axis) : Vec3 α :=
  Vec3.zero.set axis (Scalar.ofNat 1)

/-!
## Boxes and envelopes

A `CornerBox` is an axis-aligned box given by a corner and its extents, which may be negative.

An `Envelope` grows around the points put into it, each axis on its own: on every axis it keeps
the least and the greatest coordinate.  Of two coordinates that compare as equal, or that do not
compare at all, the one put in last is kept.
-/

/-- A box with one corner at `position`. -/
structure CornerBox (α : Type) where
  /-- The minimum corner. -/
  position : Vec3 α
  /-- Width, height and depth. -/
  dimensions : Vec3 α
deriving DecidableEq, Repr

namespace CornerBox

variable {α : Type} [Scalar α]

/-- The centre of a box. -/
def center (b : CornerBox Float32) : Vec3 Float32 := b.position + b.dimensions.scale 0.5

/-- The corner opposite to `position`. -/
def max (b : CornerBox α) : Vec3 α := b.position + b.dimensions

end CornerBox

/-- The lesser of two numbers, the second one unless the first is strictly less. -/
def lesser (a b : Float32) : Float32 := if a < b then a else b

/-- The greater of two numbers, the second one unless the first is strictly greater. -/
def greater (a b : Float32) : Float32 := if b < a then a else b

/-- The least and greatest coordinates of a set of points on every axis. -/
structure Envelope where
  min : Vec3 Float32
  max : Vec3 Float32
deriving DecidableEq

namespace Envelope

/-- The envelope of no points. -/
def empty : Envelope := ⟨Vec3.splat Binary32.infinity, Vec3.splat Binary32.negInfinity⟩

/-- Grow an envelope around another one. -/
def union (e other : Envelope) : Envelope :=
  ⟨Vec3.map₂ lesser e.min other.min, Vec3.map₂ greater e.max other.max⟩

/-- Grow an envelope around a point. -/
def insert (e : Envelope) (point : Vec3 Float32) : Envelope := e.union ⟨point, point⟩

/-- The envelope of a list of points. -/
def ofPoints (points : List (Vec3 Float32)) : Envelope := points.foldl insert empty

/-- Whether no point lies in an envelope: on some axis the least coordinate passes the greatest. -/
def isEmpty (e : Envelope) : Bool :=
  e.max.x < e.min.x || e.max.y < e.min.y || e.max.z < e.min.z

/-- The extents of an envelope. -/
def size (e : Envelope) : Vec3 Float32 := e.max - e.min

/-- The centre of an envelope. -/
def center (e : Envelope) : Vec3 Float32 := (e.min + e.max).scale 0.5

/-- Whether a point lies in an envelope. -/
def contains (e : Envelope) (point : Vec3 Float32) : Bool :=
  Vec3.all₂ (fun p m => decide (m ≤ p)) point e.min
    && Vec3.all₂ (fun p m => decide (p ≤ m)) point e.max

/-- The box that an envelope encloses, none when it is empty. -/
def toBox? (e : Envelope) : Option (CornerBox Float32) :=
  if e.isEmpty then none else some ⟨e.min, e.size⟩

end Envelope

end LatticeScene.Shape
