import LatticeScene.Buffer
import LatticeScene.Attempt
import LatticeScene.Shape.Mesh

/-!
# Batches

Boxes and line segments are collected in batches before they are drawn.
-/

namespace LatticeScene.Shape

/-!
## Why geometry is refused

The reasons for which a box or a limit is turned down, and their texts.
-/

/-- A reason for which geometry is refused. -/
inductive Refusal where
  /-- A box does not fit into what is left of a batch. -/
  | capacityExceeded (requested remaining capacity : Nat)
  /-- A batch was to hold more vertices than an index can count. -/
  | invalidCapacity (capacity : Nat)
  /-- A batch has handed out its buffers. -/
  | useAfterFinalize
  /-- A chunk of lines was to hold not even one segment. -/
  | invalidChunkSize (limit : Nat)
deriving DecidableEq, Repr

namespace Refusal

/-- A buffer that is full, as the end of a batch's capacity. -/
def ofBufferFull (e : BufferFull) : Refusal := .capacityExceeded e.requested e.remaining e.capacity

/-- The text of a refusal. -/
def message : Refusal → String
  | capacityExceeded requested remaining capacity =>
    s!"box needs {requested} vertices, {remaining} of {capacity} remain"
  | invalidCapacity capacity => s!"accumulator capacity {capacity} exceeds the u32 index range"
  | useAfterFinalize => "geometry buffers were already handed out"
  | invalidChunkSize limit => s!"line chunks must hold at least 2 vertices, got {limit}"

end Refusal

/-!
## Batches of boxes

A `BoxBatch` collects the faces of many boxes, so that a whole schedule is drawn in one go.  Its
capacity is fixed in advance.  No vertex is shared: every triangle brings its own three, and each
vertex is indexed by its place.

A box either fits whole or is refused whole.  The vertices of a box that fits are appended one at
a time to two bounded buffers, first the components of a vertex and then its index.
-/

/-- How many vertices draw one face: two triangles that share nothing. -/
def verticesPerFace : Nat := 6

/-- The largest capacity whose indices fit in 32 bits. -/
def maxBatchVertices : Nat := UInt32.size - 1

/-- The faces of boxes collected for one mesh. -/
structure BoxBatch where
  /-- The components of the vertices. -/
  positions : BoundedBuffer Float32
  /-- One index for each vertex. -/
  indices : BoundedBuffer UInt32
  /-- The envelope of the vertices. -/
  bounds : Envelope
  /-- Whether the buffers have been handed out. -/
  finished : Bool

namespace BoxBatch

/-- An empty batch for at most `capacity` vertices. -/
def ofCapacity (capacity : Nat) : Except Refusal BoxBatch :=
  if capacity ≤ maxBatchVertices then
    .ok { positions := .ofCapacity (3 * capacity)
          indices := .ofCapacity capacity
          bounds := .empty
          finished := false }
  else .error (.invalidCapacity capacity)

/-- How many vertices there are. -/
def vertexCount (b : BoxBatch) : Nat := b.indices.size

/-- Whether there is no vertex. -/
def isEmpty (b : BoxBatch) : Bool := b.indices.isEmpty

/-- How many vertices the batch can hold. -/
def capacity (b : BoxBatch) : Nat := b.indices.capacity

/-- How many more vertices fit. -/
def remaining (b : BoxBatch) : Nat := b.indices.remaining

/-- Append the components of a vertex. -/
def addComponents (b : BoxBatch) (vertex : Vec3 Float32) : Attempt Refusal BoxBatch :=
  match b with
  | ⟨positions, indices, bounds, finished⟩ =>
    ((positions.append vertex.toList).mapError .ofBufferFull).within
      (⟨·, indices, bounds, finished⟩)

/-- Append the index of the next vertex. -/
def addIndex (b : BoxBatch) : Attempt Refusal BoxBatch :=
  match b with
  | ⟨positions, indices, bounds, finished⟩ =>
    ((indices.push indices.size.toUInt32).mapError .ofBufferFull).within
      (⟨positions, ·, bounds, finished⟩)

/-- Append a vertex. -/
def addVertex (b : BoxBatch) (vertex : Vec3 Float32) : Attempt Refusal BoxBatch :=
  ((b.addComponents vertex).andThen addIndex).andThen fun b =>
    .done { b with bounds := b.bounds.insert vertex }

/-- Append the selected faces of a box around `center`.  No faces are no change; a box that does
not fit is refused as a whole. -/
def addBox (b : BoxBatch) (faces : FaceSet) (center dimensions : Vec3 Float32) :
    Attempt Refusal BoxBatch :=
  if b.finished then .stopped .useAfterFinalize b
  else if faces.isEmpty then .done b
  else
    let requested := faces.count * verticesPerFace
    if b.remaining < requested then
      .stopped (.capacityExceeded requested b.remaining b.capacity) b
    else Attempt.each addVertex b (faces.triangles center dimensions)

/-- Append the selected faces of a box given by its corner. -/
def addCornerBox (b : BoxBatch) (faces : FaceSet) (box : CornerBox Float32) :
    Attempt Refusal BoxBatch :=
  b.addBox faces box.center box.dimensions

/-- The mesh of all vertices. -/
def toMesh (b : BoxBatch) : Mesh := ⟨b.positions.toArray, b.indices.toArray⟩

/-- Hand the buffers out as a mesh.  A second time is refused, and so is every further box. -/
def finish (b : BoxBatch) : Except Refusal Mesh × BoxBatch :=
  if b.finished then (.error .useAfterFinalize, b)
  else
    let (positions, positionsLeft) := b.positions.take
    let (indices, indicesLeft) := b.indices.take
    (.ok ⟨positions, indices⟩,
      { b with positions := positionsLeft, indices := indicesLeft, finished := true })

end BoxBatch

/-!
## Batches of line segments

A `LineBatch` collects segments and their envelope.  It is drawn in chunks with a limited number
of endpoints, each chunk with indices of its own that count from zero.  A limit is rounded down
to an even number, so that no segment is cut between two chunks.  A limit may be as large as a word
permits, and the number of components in a chunk is one that a word can count
(`LineBatch.stride?`).

`LineBatch.intoChunks` hands the whole batch out as one chunk when it is within the limit.
-/

/-- Line segments to be drawn together. -/
structure LineBatch where
  /-- The components of the endpoints, two endpoints to a segment. -/
  positions : Array Float32
  /-- The envelope of the endpoints. -/
  bounds : Envelope
deriving DecidableEq

namespace LineBatch

/-- A batch without segments. -/
def empty : LineBatch := ⟨#[], .empty⟩

/-- Append a segment. -/
def add (b : LineBatch) (start stop : Vec3 Float32) : LineBatch :=
  { positions := b.positions ++ start.toList.toArray ++ stop.toList.toArray
    bounds := (b.bounds.insert start).insert stop }

/-- How many segments there are. -/
def segmentCount (b : LineBatch) : Nat := b.positions.size / 6

/-- How many endpoints there are. -/
def vertexCount (b : LineBatch) : Nat := b.positions.size / 3

/-- Whether there are no segments. -/
def isEmpty (b : LineBatch) : Bool := b.positions.isEmpty

/-- The slices of `stride` elements that an array is made of, the last of them perhaps shorter. -/
def slices {α : Type} (stride : Nat) (xs : Array α) : List (Array α) :=
  (List.range ((xs.size + stride - 1) / stride)).map fun k =>
    xs.extract (k * stride) ((k + 1) * stride)

/-- How many endpoints a whole chunk has: as many as the limit permits, less one if it is odd, and
no more than there are. -/
def chunkSize (b : LineBatch) (limit : Nat) : Nat := min (limit - limit % 2) b.vertexCount

/-- The largest number of components that can be counted.  A word has 64 bits, and no array has more
elements than a word can count. -/
def countLimit (b : LineBatch) : Nat := max (UInt64.size - 1) b.positions.size

/-- How many components a whole chunk has, none when they cannot be counted. -/
def stride? (b : LineBatch) (limit : Nat) : Option Nat :=
  let stride := 3 * b.chunkSize limit
  if stride ≤ b.countLimit then some stride else none

/-- Split a batch into chunks of at most `limit` endpoints.  There is none for an empty batch. -/
def chunks (b : LineBatch) (limit : Nat) : Except Refusal (List Mesh) :=
  if limit < 2 then .error (.invalidChunkSize limit)
  else if b.isEmpty then .ok []
  else
    match b.stride? limit with
    | none => .error (.invalidChunkSize limit)
    | some stride => .ok ((slices stride b.positions).map Mesh.sequential)

/-- Split a batch that is not needed any more into chunks of at most `limit` endpoints. -/
def intoChunks (b : LineBatch) (limit : Nat) : Except Refusal (List Mesh) :=
  if b.vertexCount ≤ limit ∧ 2 ≤ limit ∧ ¬b.isEmpty then .ok [Mesh.sequential b.positions]
  else b.chunks limit

end LineBatch

end LatticeScene.Shape
