import LatticeScene.Attempt

/-!
# Buffers and accounts

What is drawn is collected in buffers whose size is fixed in advance, and it is counted in vertices
and in bytes.
-/

namespace LatticeScene

/-!
## Bounded buffers

A `BoundedBuffer` holds at most `capacity` elements.  Appending is all or nothing: elements that
do not fit together are all refused and the buffer stays as it is.

The live elements are the first `size` cells of the storage.  Clearing a buffer only forgets how
many there are, so that cells behind the live ones may still hold elements of earlier days, which
later appends overwrite.  `BoundedBuffer.toList` is the view that shows live elements only: to it
an append adds its elements at the end (`BoundedBuffer.toList_appendFitting`) and a clear leaves
nothing (`BoundedBuffer.toList_clear`).
-/

/-- The refusal of elements that do not fit into a buffer. -/
structure BufferFull where
  /-- How many elements were to be appended. -/
  requested : Nat
  /-- How many places were free. -/
  remaining : Nat
  /-- How many places there are. -/
  capacity : Nat
deriving DecidableEq, Repr

/-- The text of a refusal. -/
def BufferFull.message (e : BufferFull) : String :=
  s!"buffer full: {e.requested} requested, {e.remaining} of {e.capacity} free"

/-- A buffer with a fixed number of places. -/
structure BoundedBuffer (α : Type) where
  /-- How many elements the buffer can hold. -/
  capacity : Nat
  /-- The cells that have been written since the storage was laid out. -/
  cells : Array α
  /-- How many of the cells are live. -/
  size : Nat
  size_le_cells : size ≤ cells.size
  cells_le_capacity : cells.size ≤ capacity

namespace BoundedBuffer

variable {α : Type}

/-- A buffer without elements. -/
def ofCapacity (capacity : Nat) : BoundedBuffer α where
  capacity := capacity
  cells := #[]
  size := 0
  size_le_cells := Nat.le_refl 0
  cells_le_capacity := Nat.zero_le capacity

/-- The live elements. -/
def toArray (b : BoundedBuffer α) : Array α := b.cells.extract 0 b.size

/-- The live elements in a list. -/
def toList (b : BoundedBuffer α) : List α := b.cells.toList.take b.size

/-- How many more elements fit. -/
def remaining (b : BoundedBuffer α) : Nat := b.capacity - b.size

/-- Whether there is no live element. -/
def isEmpty (b : BoundedBuffer α) : Bool := b.size == 0

/-- No more cells are filled than there are. -/
theorem size_le_capacity (b : BoundedBuffer α) : b.size ≤ b.capacity :=
  Nat.le_trans b.size_le_cells b.cells_le_capacity

/-- Refuse `count` more elements unless they fit. -/
def checkFits (b : BoundedBuffer α) (count : Nat) : Except BufferFull Unit :=
  if count ≤ b.remaining then .ok () else .error ⟨count, b.remaining, b.capacity⟩

/-- Write the cells from place `i` on, over what they hold. -/
def writeCells (cells : Array α) (i : Nat) : List α → Array α
  | [] => cells
  | x :: xs =>
    if h : i < cells.size then writeCells (cells.set i x) (i + 1) xs
    else writeCells (cells.push x) (i + 1) xs

/-- Writing over the end of an array makes it longer, and writing inside it does not. -/
theorem size_writeCells (cells : Array α) (i : Nat) (xs : List α) (h : i ≤ cells.size) :
    (writeCells cells i xs).size = max cells.size (i + xs.length) := by
  induction xs generalizing cells i with
  | nil => simp [writeCells]; omega
  | cons x xs ih =>
    unfold writeCells
    split
    · next hi =>
      rw [ih _ _ (by simp only [Array.size_set]; omega)]
      simp only [Array.size_set, List.length_cons]
      omega
    · next hi =>
      rw [ih _ _ (by simp only [Array.size_push]; omega)]
      simp only [Array.size_push, List.length_cons]
      omega

/-- Cells in front of the first one that is written stay, and those written follow. -/
theorem take_writeCells (cells : Array α) (i : Nat) (xs : List α) (h : i ≤ cells.size) :
    (writeCells cells i xs).toList.take (i + xs.length) = cells.toList.take i ++ xs := by
  induction xs generalizing cells i with
  | nil => simp [writeCells]
  | cons x xs ih =>
    have hlen : i + (x :: xs).length = i + 1 + xs.length := by simp only [List.length_cons]; omega
    unfold writeCells
    split
    · next hi =>
      rw [hlen, ih _ _ (by simp only [Array.size_set]; omega), Array.toList_set]
      rw [List.take_add_one, List.take_set_of_le (Nat.le_refl i)]
      simp [hi]
    · next hi =>
      have hi : i = cells.size := by omega
      subst hi
      rw [hlen, ih _ _ (by simp only [Array.size_push]; omega), Array.toList_push]
      simp [List.take_of_length_le]

/-- Append elements that fit. -/
def appendFitting (b : BoundedBuffer α) (xs : List α) (h : xs.length ≤ b.remaining) :
    BoundedBuffer α where
  capacity := b.capacity
  cells := writeCells b.cells b.size xs
  size := b.size + xs.length
  size_le_cells := by
    rw [size_writeCells _ _ _ b.size_le_cells]
    exact Nat.le_max_right _ _
  cells_le_capacity := by
    rw [size_writeCells _ _ _ b.size_le_cells]
    have h₁ := b.size_le_capacity
    have h₂ := b.cells_le_capacity
    simp only [remaining] at h
    omega

/-- Append elements, all or none. -/
def append (b : BoundedBuffer α) (xs : List α) : Attempt BufferFull (BoundedBuffer α) :=
  if h : xs.length ≤ b.remaining then .done (b.appendFitting xs h)
  else .stopped ⟨xs.length, b.remaining, b.capacity⟩ b

/-- Append one element. -/
def push (b : BoundedBuffer α) (x : α) : Attempt BufferFull (BoundedBuffer α) := b.append [x]

/-- Forget the live elements and keep the storage. -/
def clear (b : BoundedBuffer α) : BoundedBuffer α :=
  { b with size := 0, size_le_cells := Nat.zero_le _ }

/-- Hand the live elements out and give the storage up.  What is left has no places. -/
def take (b : BoundedBuffer α) : Array α × BoundedBuffer α := (b.toArray, ofCapacity 0)

/-- A new buffer holds nothing. -/
@[simp] theorem toList_ofCapacity (capacity : Nat) :
    (ofCapacity capacity : BoundedBuffer α).toList = [] := rfl

/-- What a buffer hands out is what it holds. -/
@[simp] theorem toList_toArray (b : BoundedBuffer α) : b.toArray.toList = b.toList := by
  simp [toArray, toList]

/-- The size of a buffer is the number of elements it holds. -/
@[simp] theorem length_toList (b : BoundedBuffer α) : b.toList.length = b.size := by
  simp [toList, b.size_le_cells]

/-- Elements that fit are put behind those a buffer holds. -/
@[simp] theorem toList_appendFitting (b : BoundedBuffer α) (xs : List α)
    (h : xs.length ≤ b.remaining) : (b.appendFitting xs h).toList = b.toList ++ xs :=
  take_writeCells b.cells b.size xs b.size_le_cells

@[simp] theorem toList_clear (b : BoundedBuffer α) : b.clear.toList = [] := rfl

/-- A description of a buffer for people. -/
def description (b : BoundedBuffer α) : String :=
  s!"BoundedBuffer \x7b len: {b.size}, capacity: {b.capacity} \x7d"

end BoundedBuffer

/-!
## Totals

Vertices and bytes are counted over lists of meshes.  `total` adds natural numbers up with the
addition of natural numbers itself, so that it says the same whichever additive structures are
around.
-/

/-- The sum of a list of numbers. -/
def total (numbers : List Nat) : Nat := numbers.foldr (· + ·) 0

@[simp] theorem total_nil : total [] = 0 := rfl

@[simp] theorem total_cons (n : Nat) (numbers : List Nat) :
    total (n :: numbers) = n + total numbers := rfl

/-- The total of two lists one after the other is the sum of their totals. -/
@[simp] theorem total_append (numbers others : List Nat) :
    total (numbers ++ others) = total numbers + total others := by
  induction numbers with
  | nil => exact (Nat.zero_add _).symm
  | cons n numbers ih => rw [List.cons_append, total_cons, total_cons, ih, Nat.add_assoc]

/-- Numbers add up to nothing only when each of them is zero. -/
theorem total_eq_zero_iff {numbers : List Nat} : total numbers = 0 ↔ ∀ n ∈ numbers, n = 0 := by
  induction numbers with
  | nil => exact iff_of_true rfl fun n hn => absurd hn List.not_mem_nil
  | cons n numbers ih => rw [total_cons, Nat.add_eq_zero_iff, ih, List.forall_mem_cons]

/-- A factor of all numbers is a factor of their sum. -/
theorem total_map_mul {α : Type} (k : Nat) (f : α → Nat) (xs : List α) :
    total (xs.map fun x => k * f x) = k * total (xs.map f) := by
  induction xs with
  | nil => rfl
  | cons x xs ih => rw [List.map_cons, List.map_cons, total_cons, total_cons, ih, Nat.mul_add]

/-- Numbers that are zero may be left out. -/
theorem total_map_filter {α : Type} {keep : α → Bool} {f : α → Nat} {xs : List α}
    (h : ∀ x ∈ xs, keep x = false → f x = 0) :
    total ((xs.filter keep).map f) = total (xs.map f) := by
  induction xs with
  | nil => rfl
  | cons x xs ih =>
    have hrest := ih fun y hy => h y (List.mem_cons_of_mem x hy)
    cases hkeep : keep x with
    | true =>
      rw [List.filter_cons_of_pos hkeep, List.map_cons, List.map_cons, total_cons, total_cons,
        hrest]
    | false =>
      have hzero : f x = 0 := h x List.mem_cons_self hkeep
      rw [List.filter_cons_of_neg (ne_true_of_eq_false hkeep), hrest, List.map_cons, total_cons,
        hzero, Nat.zero_add]

/-- The order of numbers does not matter to their sum. -/
theorem total_eq_of_perm {numbers others : List Nat} (h : numbers.Perm others) :
    total numbers = total others := by
  induction h with
  | nil => rfl
  | cons n _ ih => rw [total_cons, total_cons, ih]
  | swap m n rest => exact Nat.add_left_comm n m (total rest)
  | trans _ _ ih₁ ih₂ => exact ih₁.trans ih₂

/-!
## Memory ledgers

A ledger keeps account of the bytes of resources that come and go: how many are held now, how
many were held at most, and how often resources have come and gone.
-/

/-- An account of allocations and releases. -/
structure MemoryLedger where
  /-- Bytes held now. -/
  current : Nat
  /-- The most bytes ever held. -/
  peak : Nat
  /-- How many allocations there were. -/
  allocations : Nat
  /-- How many releases there were. -/
  releases : Nat
deriving DecidableEq, Repr

namespace MemoryLedger

/-- The ledger before any allocation. -/
def empty : MemoryLedger := ⟨0, 0, 0, 0⟩

/-- Account for an allocation. -/
def allocate (m : MemoryLedger) (bytes : Nat) : MemoryLedger :=
  { current := m.current + bytes
    peak := max m.peak (m.current + bytes)
    allocations := m.allocations + 1
    releases := m.releases }

/-- Account for a release, of no more bytes than are held. -/
def release (m : MemoryLedger) (bytes : Nat) : MemoryLedger :=
  { m with current := m.current - bytes, releases := m.releases + 1 }

/-- Allocations that have not been released. -/
def live (m : MemoryLedger) : Nat := m.allocations - m.releases

end MemoryLedger

end LatticeScene
