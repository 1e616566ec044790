import LatticeScene.Proofs.Shape.Mesh
import LatticeScene.Shape.Batch

/-!
# Lines and their chunks

A batch of lines is drawn in chunks, and `LineBatch.drawn` gives the chunks for a limit that permits
at least one segment.  They are slices of the batch (`drawn_eq`), also where the whole batch is
handed out as one chunk (`IsWhole.intoChunks_eq`).  Every chunk has positions
(`isEmpty_of_mem_drawn`), and one after the other the chunks have the positions of the batch
(`flatMap_drawn`).

Both rest on what `slices` does to any array: its slices are not empty, and together they are the
array.  A batch to which segments were added one at a time has six numbers to a segment
(`IsWhole`), so that its slices do not come out of step.
-/

namespace LatticeScene.Shape.LineBatch

/-! ### Slices -/

section Slices

variable {α : Type}

/-- The first `n` slices are the first elements. -/
theorem flatMap_extract_range (stride n : Nat) (xs : Array α) :
    ((List.range n).flatMap fun k => (xs.extract (k * stride) ((k + 1) * stride)).toList) =
      xs.toList.take (n * stride) := by
  induction n with
  | zero => rw [List.range_zero, List.flatMap_nil, Nat.zero_mul, List.take_zero]
  | succ n ih =>
    have hlast : (xs.extract (n * stride) ((n + 1) * stride)).toList =
        (xs.toList.drop (n * stride)).take stride := by
      rw [Array.toList_extract, List.extract_eq_take_drop, Nat.succ_mul, Nat.add_sub_cancel_left]
    rw [List.range_succ, List.flatMap_append, ih, List.flatMap_cons, List.flatMap_nil,
      List.append_nil, hlast, Nat.succ_mul, List.take_add]

/-- All slices together are the array. -/
theorem flatMap_slices {stride : Nat} (h : 0 < stride) (xs : Array α) :
    (slices stride xs).flatMap Array.toList = xs.toList := by
  have hlt : xs.size + stride - 1 < stride * ((xs.size + stride - 1) / stride + 1) :=
    Nat.lt_mul_div_succ _ h
  have hle : xs.toList.length ≤ (xs.size + stride - 1) / stride * stride := by
    rw [Nat.mul_add, Nat.mul_one, Nat.mul_comm] at hlt
    rw [Array.length_toList]
    omega
  rw [slices, List.flatMap_map, flatMap_extract_range, List.take_of_length_le hle]

/-- An empty array has no slices. -/
theorem slices_empty (stride : Nat) : slices stride (#[] : Array α) = [] := by
  have hcount : ((#[] : Array α).size + stride - 1) / stride = 0 := by
    rcases Nat.eq_zero_or_pos stride with rfl | hpos
    · exact Nat.div_zero _
    · exact Nat.div_eq_of_lt (by rw [List.size_toArray, List.length_nil]; omega)
  rw [slices, hcount, List.range_zero, List.map_nil]

/-- An array that is not longer than a slice is a slice. -/
theorem slices_size {xs : Array α} (h : 0 < xs.size) : slices xs.size xs = [xs] := by
  have hcount : (xs.size + xs.size - 1) / xs.size = 1 :=
    Nat.div_eq_of_lt_le (by omega) (by omega)
  rw [slices, hcount, List.range_one, List.map_cons, List.map_nil, Nat.zero_mul, Nat.zero_add,
    Nat.one_mul, Array.extract_size]

/-- Only slices with elements are made. -/
theorem stride_pos_of_mem_slices {stride : Nat} {xs slice : Array α}
    (hmem : slice ∈ slices stride xs) : 0 < stride := by
  refine Nat.pos_of_ne_zero fun hzero => ?_
  rw [hzero, slices, Nat.div_zero, List.range_zero, List.map_nil] at hmem
  exact absurd hmem List.not_mem_nil

/-- No slice is empty. -/
theorem size_pos_of_mem_slices {stride : Nat} {xs slice : Array α}
    (hmem : slice ∈ slices stride xs) : 0 < slice.size := by
  have h := stride_pos_of_mem_slices hmem
  obtain ⟨k, hk, rfl⟩ := List.mem_map.mp hmem
  have hle : (k + 1) * stride ≤ xs.size + stride - 1 :=
    (Nat.le_div_iff_mul_le h).mp (List.mem_range.mp hk)
  rw [Array.size_extract]
  rw [Nat.succ_mul] at hle ⊢
  omega

/-- Slices of whole groups of elements are made of whole groups. -/
theorem dvd_size_of_mem_slices {stride n : Nat} {xs slice : Array α} (hstride : n ∣ stride)
    (hxs : n ∣ xs.size) (hmem : slice ∈ slices stride xs) : n ∣ slice.size := by
  obtain ⟨k, -, rfl⟩ := List.mem_map.mp hmem
  have hfirst : n ∣ k * stride := Nat.dvd_trans hstride (Nat.dvd_mul_left _ _)
  have hlast : n ∣ min ((k + 1) * stride) xs.size := by
    rw [Nat.min_def]
    split
    · exact Nat.dvd_trans hstride (Nat.dvd_mul_left _ _)
    · exact hxs
  rw [Array.size_extract]
  exact Nat.dvd_sub hlast hfirst

end Slices

/-! ### Segments -/

/-- A batch of whole segments: two endpoints with three components each. -/
def IsWhole (b : LineBatch) : Prop := 6 ∣ b.positions.size

/-- A batch without segments has whole segments. -/
theorem isWhole_empty : empty.IsWhole := Nat.dvd_zero 6

/-- A batch of whole segments has whole segments after one more. -/
theorem IsWhole.add {b : LineBatch} (h : b.IsWhole) (start stop : Vec3 Float32) :
    (b.add start stop).IsWhole := by
  have hsize : (b.add start stop).positions.size = b.positions.size + 6 := by
    simp only [LineBatch.add, Vec3.toList, Array.size_append, List.size_toArray, List.length_cons,
      List.length_nil]
  rw [IsWhole, hsize]
  exact Nat.dvd_add h (Nat.dvd_refl 6)

/-- A batch that is not empty has a vertex. -/
theorem IsWhole.vertexCount_pos {b : LineBatch} (h : b.IsWhole) (hb : b.isEmpty = false) :
    0 < b.vertexCount := by
  have hne : b.positions.size ≠ 0 := by
    intro hzero
    rw [isEmpty, Array.isEmpty, hzero] at hb
    exact absurd hb (by decide)
  have hle : 6 ≤ b.positions.size := Nat.le_of_dvd (Nat.pos_of_ne_zero hne) h
  rw [vertexCount]
  omega

/-- Append several segments. -/
def addAll (b : LineBatch) (segments : List (Vec3 Float32 × Vec3 Float32)) : LineBatch :=
  segments.foldl (fun b segment => b.add segment.1 segment.2) b

@[simp] theorem addAll_nil (b : LineBatch) : b.addAll [] = b := rfl

/-- The first segment is appended before the others. -/
theorem addAll_cons (b : LineBatch) (segment : Vec3 Float32 × Vec3 Float32)
    (segments : List (Vec3 Float32 × Vec3 Float32)) :
    b.addAll (segment :: segments) = (b.add segment.1 segment.2).addAll segments := rfl

/-- Segments are appended one part after the other. -/
theorem addAll_append (b : LineBatch) (segments others : List (Vec3 Float32 × Vec3 Float32)) :
    b.addAll (segments ++ others) = (b.addAll segments).addAll others :=
  List.foldl_append

/-- A batch of whole segments has whole segments after any number of them. -/
theorem IsWhole.addAll {b : LineBatch} (h : b.IsWhole)
    (segments : List (Vec3 Float32 × Vec3 Float32)) : (b.addAll segments).IsWhole := by
  induction segments generalizing b with
  | nil => exact h
  | cons segment segments ih => exact ih (h.add segment.1 segment.2)

/-- The components of the endpoints of a segment. -/
def endpoints (segment : Vec3 Float32 × Vec3 Float32) : List Float32 :=
  segment.1.toList ++ segment.2.toList

/-- Segments that are appended come after those that were there, in order. -/
theorem toList_positions_addAll (b : LineBatch) (segments : List (Vec3 Float32 × Vec3 Float32)) :
    (b.addAll segments).positions.toList =
      b.positions.toList ++ segments.flatMap endpoints := by
  induction segments generalizing b with
  | nil => rw [addAll_nil, List.flatMap_nil, List.append_nil]
  | cons segment segments ih =>
    have hadd : (b.add segment.1 segment.2).positions.toList =
        b.positions.toList ++ endpoints segment := by
      simp only [add, endpoints, Array.toList_append, List.append_assoc]
    rw [addAll_cons, ih, hadd, List.flatMap_cons, List.append_assoc]

/-- Both ends of a segment. -/
def ends (segment : Vec3 Float32 × Vec3 Float32) : List (Vec3 Float32) := [segment.1, segment.2]

/-- The components of segments are those of their ends, one after the other. -/
theorem flatMap_endpoints (segments : List (Vec3 Float32 × Vec3 Float32)) :
    segments.flatMap endpoints = (segments.flatMap ends).flatMap Vec3.toList := by
  rw [List.flatMap_assoc]
  rfl

/-- The envelope of a batch is that of the ends of its segments. -/
theorem bounds_addAll_empty (segments : List (Vec3 Float32 × Vec3 Float32)) :
    (empty.addAll segments).bounds = .ofPoints (segments.flatMap ends) := by
  have hgrow : ∀ (segments : List (Vec3 Float32 × Vec3 Float32)) (b : LineBatch),
      (b.addAll segments).bounds = (segments.flatMap ends).foldl Envelope.insert b.bounds := by
    intro segments
    induction segments with
    | nil => exact fun b => rfl
    | cons segment segments ih =>
      intro b
      rw [addAll_cons, ih, List.flatMap_cons, List.foldl_append]
      rfl
  exact hgrow segments empty

/-! ### Chunks -/

/-- The chunks in which a batch is drawn, none when the limit does not permit a segment. -/
def drawn (b : LineBatch) (limit : Nat) : List Mesh := (b.intoChunks limit).toOption.getD []

/-- The components of a whole chunk can be counted, because they are no more than those of the
batch. -/
theorem stride?_eq (b : LineBatch) (limit : Nat) :
    b.stride? limit = some (3 * b.chunkSize limit) := by
  have hsize : 3 * b.chunkSize limit ≤ b.positions.size := by
    have hmin : b.chunkSize limit ≤ b.vertexCount := Nat.min_le_right _ _
    rw [vertexCount] at hmin
    omega
  have hcount : 3 * b.chunkSize limit ≤ b.countLimit :=
    Nat.le_trans hsize (Nat.le_max_right _ _)
  exact if_pos hcount

/-- A limit that does not permit a segment is refused, even for an empty batch. -/
theorem chunks_of_lt {limit : Nat} (h : limit < 2) (b : LineBatch) :
    b.chunks limit = .error (.invalidChunkSize limit) := if_pos h

/-- With every other limit the chunks are slices. -/
theorem chunks_of_le {limit : Nat} (h : 2 ≤ limit) (b : LineBatch) :
    b.chunks limit = .ok ((slices (3 * b.chunkSize limit) b.positions).map Mesh.sequential) := by
  rw [chunks, if_neg (Nat.not_lt.mpr h), b.stride?_eq]
  cases hempty : b.isEmpty with
  | true =>
    have hpositions : b.positions = #[] := Array.isEmpty_iff.mp hempty
    rw [if_pos rfl, hpositions, slices_empty, List.map_nil]
  | false => rw [if_neg Bool.false_ne_true]

/-- A chunk with room for less than two vertices has no room for a segment, and is refused. -/
theorem intoChunks_of_lt {limit : Nat} (h : limit < 2) (b : LineBatch) :
    b.intoChunks limit = .error (.invalidChunkSize limit) := by
  have hnot : ¬(b.vertexCount ≤ limit ∧ 2 ≤ limit ∧ ¬b.isEmpty) := by
    rintro ⟨-, hle, -⟩
    omega
  rw [intoChunks, if_neg hnot, chunks_of_lt h]

/-- A batch is cut into chunks whenever there is room for a segment in one. -/
theorem intoChunks_of_le {limit : Nat} (h : 2 ≤ limit) (b : LineBatch) :
    b.intoChunks limit = .ok (b.drawn limit) := by
  have hok : ∃ pieces, b.intoChunks limit = .ok pieces := by
    rw [intoChunks]
    split
    · exact ⟨_, rfl⟩
    · exact ⟨_, chunks_of_le h b⟩
  obtain ⟨pieces, hpieces⟩ := hok
  rw [drawn, hpieces]
  rfl

/-! Whole segments have an even number of endpoints, and so has a whole chunk of them. -/

/-- A batch of whole segments has three numbers for each vertex. -/
theorem IsWhole.size_positions {b : LineBatch} (h : b.IsWhole) :
    b.positions.size = 3 * b.vertexCount := by
  rw [IsWhole] at h
  rw [vertexCount]
  omega

/-- A batch of whole segments has an even number of vertices. -/
theorem IsWhole.two_dvd_vertexCount {b : LineBatch} (h : b.IsWhole) : 2 ∣ b.vertexCount := by
  rw [IsWhole] at h
  rw [vertexCount]
  omega

/-- A chunk of a batch of whole segments has room for an even number of vertices. -/
theorem IsWhole.two_dvd_chunkSize {b : LineBatch} (h : b.IsWhole) (limit : Nat) :
    2 ∣ b.chunkSize limit := by
  have hcount := h.two_dvd_vertexCount
  rw [chunkSize]
  omega

/-- A chunk of a batch of whole segments has room for whole segments. -/
theorem IsWhole.six_dvd_stride {b : LineBatch} (h : b.IsWhole) (limit : Nat) :
    6 ∣ 3 * b.chunkSize limit := Nat.mul_dvd_mul_left 3 (h.two_dvd_chunkSize limit)

/-- A chunk of a batch that is not empty has room for something. -/
theorem IsWhole.chunkSize_pos {b : LineBatch} (h : b.IsWhole) (hb : b.isEmpty = false)
    {limit : Nat} (hlimit : 2 ≤ limit) : 0 < b.chunkSize limit := by
  have hcount := h.vertexCount_pos hb
  rw [chunkSize]
  omega

/-- A batch within the limit is its own chunk, and so a batch that is handed out as one is cut as
any other. -/
theorem IsWhole.intoChunks_eq {b : LineBatch} (h : b.IsWhole) (limit : Nat) :
    b.intoChunks limit = b.chunks limit := by
  rw [intoChunks]
  split
  · next hfits =>
    obtain ⟨hcount, hlimit, hne⟩ := hfits
    -- an odd limit is not lost, because the number of endpoints is even
    have heven := h.two_dvd_vertexCount
    have hchunk : 3 * b.chunkSize limit = b.positions.size := by
      rw [chunkSize, h.size_positions]
      omega
    have hpos : 0 < b.positions.size := by
      have hvertex := h.vertexCount_pos (eq_false_of_ne_true hne)
      rw [h.size_positions]
      omega
    rw [chunks_of_le hlimit, hchunk, slices_size hpos, List.map_cons, List.map_nil]
  · rfl

/-- The chunks in which a batch is drawn are slices of whole segments. -/
theorem drawn_eq {limit : Nat} (h : 2 ≤ limit) {b : LineBatch} (hb : b.IsWhole) :
    b.drawn limit = (slices (3 * b.chunkSize limit) b.positions).map Mesh.sequential := by
  rw [drawn, hb.intoChunks_eq, chunks_of_le h]
  rfl

/-- No position is lost, repeated or moved by drawing a batch in chunks. -/
theorem flatMap_drawn {limit : Nat} (h : 2 ≤ limit) {b : LineBatch} (hb : b.IsWhole) :
    (b.drawn limit).flatMap (·.positions.toList) = b.positions.toList := by
  rw [drawn_eq h hb, List.flatMap_map]
  cases hempty : b.isEmpty with
  | true =>
    have hpositions : b.positions = #[] := Array.isEmpty_iff.mp hempty
    rw [hpositions, slices_empty]
    rfl
  | false =>
    have hpos := hb.chunkSize_pos hempty h
    exact flatMap_slices (by omega) b.positions

/-- No chunk is empty. -/
theorem isEmpty_of_mem_drawn {limit : Nat} (h : 2 ≤ limit) {b : LineBatch} (hb : b.IsWhole)
    {mesh : Mesh} (hmem : mesh ∈ b.drawn limit) : mesh.isEmpty = false := by
  rw [drawn_eq h hb] at hmem
  obtain ⟨slice, hslice, rfl⟩ := List.mem_map.mp hmem
  have hsize : slice.size ≠ 0 := Nat.ne_of_gt (size_pos_of_mem_slices hslice)
  rw [Mesh.isEmpty, Mesh.sequential, Array.isEmpty, decide_eq_false hsize]

/-- Every chunk has whole segments and draws them in order. -/
theorem exists_sequential_of_mem_drawn {limit : Nat} (h : 2 ≤ limit) {b : LineBatch}
    (hb : b.IsWhole) {mesh : Mesh} (hmem : mesh ∈ b.drawn limit) :
    ∃ positions, mesh = Mesh.sequential positions ∧ 6 ∣ positions.size := by
  rw [drawn_eq h hb] at hmem
  obtain ⟨slice, hslice, rfl⟩ := List.mem_map.mp hmem
  exact ⟨slice, rfl, dvd_size_of_mem_slices (hb.six_dvd_stride limit) hb hslice⟩

/-- Every chunk has a vertex. -/
theorem vertices_ne_nil_of_mem_drawn {limit : Nat} (h : 2 ≤ limit) {b : LineBatch}
    (hb : b.IsWhole) {mesh : Mesh} (hmem : mesh ∈ b.drawn limit) : mesh.vertices ≠ [] := by
  have hne := isEmpty_of_mem_drawn h hb hmem
  obtain ⟨positions, rfl, hsegments⟩ := exists_sequential_of_mem_drawn h hb hmem
  exact Mesh.vertices_ne_nil hne (Nat.dvd_trans (by decide) hsegments)

/-- The vertices of all chunks are the ends of the segments of a batch. -/
theorem flatMap_vertices_drawn {limit : Nat} (h : 2 ≤ limit)
    (segments : List (Vec3 Float32 × Vec3 Float32)) :
    ((empty.addAll segments).drawn limit).flatMap Mesh.vertices = segments.flatMap ends := by
  have hwhole := isWhole_empty.addAll segments
  have hchunks : ∀ mesh ∈ (empty.addAll segments).drawn limit, 3 ∣ mesh.positions.size := by
    intro mesh hmesh
    obtain ⟨positions, rfl, hsegments⟩ := exists_sequential_of_mem_drawn h hwhole hmesh
    exact Nat.dvd_trans (by decide) hsegments
  rw [Mesh.flatMap_vertices hchunks, flatMap_drawn h hwhole, toList_positions_addAll,
    flatMap_endpoints]
  exact triples_flatMap _

/-!
## The cut of a batch of lines

A batch to which segments were added is cut into chunks between its segments.  The only limit that
is refused is one below two (`chunks_of_lt`).  With every other limit all chunks but the last have
one and the same size, which is the limit itself up to parity unless the whole batch is smaller
(`size_of_mem_dropLast_slices`).  This settles how many chunks there are.

A batch that is not needed any more is cut in the same way, although it is not copied when it is
within the limit (`intoChunks_eq_chunks`).
-/

/-! ### Sizes of slices -/

section Slices

variable {α : Type} {stride : Nat} {xs slice : Array α}

/-- There are as many slices as it takes to hold all elements, the last one being filled in part. -/
theorem length_slices (stride : Nat) (xs : Array α) :
    (slices stride xs).length = (xs.size + stride - 1) / stride := by
  rw [slices, List.length_map, List.length_range]

/-- No slice is longer than the stride. -/
theorem size_le_of_mem_slices (hmem : slice ∈ slices stride xs) : slice.size ≤ stride := by
  obtain ⟨k, -, rfl⟩ := List.mem_map.mp hmem
  rw [Array.size_extract, Nat.succ_mul]
  omega

/-- What stands before the last place of a range has another place behind it. -/
theorem add_one_lt_of_mem_dropLast_range {k n : Nat} (h : k ∈ (List.range n).dropLast) :
    k + 1 < n := by
  cases n with
  | zero => exact absurd h List.not_mem_nil
  | succ n =>
    rw [List.range_succ, List.dropLast_concat, List.mem_range] at h
    omega

/-- Every slice but the last is as long as the stride. -/
theorem size_of_mem_dropLast_slices (hmem : slice ∈ (slices stride xs).dropLast) :
    slice.size = stride := by
  have hpos : 0 < stride := stride_pos_of_mem_slices ((List.dropLast_sublist _).subset hmem)
  rw [slices, ← List.map_dropLast] at hmem
  obtain ⟨k, hk, rfl⟩ := List.mem_map.mp hmem
  -- another slice follows, so that this one ends inside the array
  have hnext : (k + 1 + 1) * stride ≤ xs.size + stride - 1 :=
    (Nat.le_div_iff_mul_le hpos).mp (add_one_lt_of_mem_dropLast_range hk)
  rw [Nat.succ_mul, Nat.succ_mul] at hnext
  rw [Array.size_extract, Nat.succ_mul]
  omega

end Slices

/-! ### Sizes of chunks -/

/-- The chunks of a batch, none of which cuts a segment. -/
structure IsCut (b : LineBatch) (limit : Nat) (chunks : List Mesh) : Prop where
  /-- One after the other the chunks have the positions of the batch. -/
  positions_eq : chunks.flatMap (·.positions.toList) = b.positions.toList
  isEmpty_eq : ∀ chunk ∈ chunks, chunk.isEmpty = false
  /-- A chunk has whole vertices, and two of them to a segment. -/
  size_positions : ∀ chunk ∈ chunks, chunk.positions.size = 3 * chunk.vertexCount
  two_dvd : ∀ chunk ∈ chunks, 2 ∣ chunk.vertexCount
  vertexCount_le : ∀ chunk ∈ chunks, chunk.vertexCount ≤ limit
  /-- A chunk has its own vertices as indices, if 32 bits can number them. -/
  indices_eq : ∀ chunk ∈ chunks, chunk.vertexCount < UInt32.size →
    chunk.indices.toList.map UInt32.toNat = List.range chunk.vertexCount
  /-- All chunks but the last have the same number of vertices. -/
  vertexCount_eq : ∀ chunk ∈ chunks.dropLast,
    chunk.vertexCount = min (limit - limit % 2) b.vertexCount
  length_eq : chunks.length =
    (b.vertexCount + min (limit - limit % 2) b.vertexCount - 1) /
      min (limit - limit % 2) b.vertexCount
  eq_nil_iff : chunks = [] ↔ b.isEmpty = true

section Chunks

variable {b : LineBatch} {limit : Nat}

/-- Slices and chunks are as many as the vertices require. -/
theorem IsWhole.length_slices_stride (hb : b.IsWhole) (limit : Nat) :
    (slices (3 * b.chunkSize limit) b.positions).length =
      (b.vertexCount + b.chunkSize limit - 1) / b.chunkSize limit := by
  have hthird : (3 * b.vertexCount + 3 * b.chunkSize limit - 1) / 3 =
      b.vertexCount + b.chunkSize limit - 1 := by omega
  rw [length_slices, hb.size_positions, ← Nat.div_div_eq_div_mul, hthird]

/-- Whole segments are cut into chunks of whole segments, whatever the limit is. -/
theorem IsWhole.isCut_drawn (hb : b.IsWhole) (h : 2 ≤ limit) :
    b.IsCut limit (b.drawn limit) := by
  have hchunk : ∀ chunk ∈ b.drawn limit, ∃ slice ∈ slices (3 * b.chunkSize limit) b.positions,
      Mesh.sequential slice = chunk ∧ 6 ∣ slice.size := by
    intro chunk hmem
    rw [drawn_eq h hb] at hmem
    obtain ⟨slice, hslice, rfl⟩ := List.mem_map.mp hmem
    exact ⟨slice, hslice, rfl, dvd_size_of_mem_slices (hb.six_dvd_stride limit) hb hslice⟩
  have hcount : ∀ slice, (Mesh.sequential slice).vertexCount = slice.size / 3 := fun _ => rfl
  -- each clause is one about slices of the positions, whose sizes six divides
  constructor
  · exact flatMap_drawn h hb
  · exact fun chunk hmem => isEmpty_of_mem_drawn h hb hmem
  · intro chunk hmem
    obtain ⟨slice, -, rfl, hdvd⟩ := hchunk chunk hmem
    have hsize : (Mesh.sequential slice).positions.size = slice.size := rfl
    rw [hcount, hsize]
    omega
  · intro chunk hmem
    obtain ⟨slice, -, rfl, hdvd⟩ := hchunk chunk hmem
    rw [hcount]
    omega
  · intro chunk hmem
    obtain ⟨slice, hslice, rfl, -⟩ := hchunk chunk hmem
    have hle := size_le_of_mem_slices hslice
    have hlimit : b.chunkSize limit ≤ limit - limit % 2 := Nat.min_le_left _ _
    rw [hcount]
    omega
  · intro chunk hmem hlt
    obtain ⟨slice, -, rfl, -⟩ := hchunk chunk hmem
    exact Mesh.toNat_indices_sequential hlt
  · intro chunk hmem
    rw [drawn_eq h hb, ← List.map_dropLast] at hmem
    obtain ⟨slice, hslice, rfl⟩ := List.mem_map.mp hmem
    rw [hcount, size_of_mem_dropLast_slices hslice, Nat.mul_div_cancel_left _ (by decide)]
    rfl
  · rw [drawn_eq h hb, List.length_map, hb.length_slices_stride]
    rfl
  · constructor
    · intro hnil
      have hpositions := flatMap_drawn h hb
      rw [hnil, List.flatMap_nil] at hpositions
      rw [isEmpty, Array.isEmpty_iff]
      exact Array.toList_eq_nil_iff.mp hpositions.symm
    · intro hempty
      rw [drawn_eq h hb, Array.isEmpty_iff.mp hempty, slices_empty, List.map_nil]

end Chunks

/-- A batch made of any segments is cut into chunks for every limit that is not below two.  The
components of a chunk can always be counted, so that nothing else is refused. -/
theorem chunks_cut_between_segments (segments : List (Vec3 Float32 × Vec3 Float32))
    (limit : Nat) :
    let b := empty.addAll segments
    b.positions.toList = segments.flatMap endpoints ∧
      (∀ refusal, b.chunks limit = .error refusal ↔
        limit < 2 ∧ refusal = .invalidChunkSize limit) ∧
      b.stride? limit = some (3 * min (limit - limit % 2) b.vertexCount) ∧
      (2 ≤ limit → ∃ chunks, b.chunks limit = .ok chunks ∧ b.IsCut limit chunks) := by
  intro b
  have hwhole : b.IsWhole := isWhole_empty.addAll segments
  have hcut : 2 ≤ limit → b.chunks limit = .ok (b.drawn limit) := by
    intro hlimit
    rw [← hwhole.intoChunks_eq, intoChunks_of_le hlimit]
  refine ⟨toList_positions_addAll empty segments, fun refusal => ?_, b.stride?_eq limit,
    fun hlimit => ⟨_, hcut hlimit, hwhole.isCut_drawn hlimit⟩⟩
  by_cases hlimit : limit < 2
  · rw [chunks_of_lt hlimit, Except.error.injEq]
    exact ⟨fun h => ⟨hlimit, h.symm⟩, fun h => h.2.symm⟩
  · rw [hcut (Nat.le_of_not_lt hlimit)]
    exact iff_of_false (fun h => by cases h) fun h => hlimit h.1

/-- Five segments side by side. -/
def ladder : List (Vec3 Float32 × Vec3 Float32) :=
  [(⟨0, 0, 0⟩, ⟨0, 1, 0⟩), (⟨1, 0, 0⟩, ⟨1, 1, 0⟩), (⟨2, 0, 0⟩, ⟨2, 1, 0⟩), (⟨3, 0, 0⟩, ⟨3, 1, 0⟩),
    (⟨4, 0, 0⟩, ⟨4, 1, 0⟩)]

/-- An odd limit leaves one place of a chunk empty, and the last chunk has what is left. -/
theorem chunks_cut_between_segments_ladder :
    2 ≤ 5 ∧ ∃ chunks, (empty.addAll ladder).chunks 5 = .ok chunks ∧
      chunks.map Mesh.vertexCount = [4, 4, 2] ∧ (empty.addAll ladder).IsCut 5 chunks := by
  have hlimit : 2 ≤ 5 := by decide
  obtain ⟨-, -, -, hcut⟩ := chunks_cut_between_segments ladder 5
  obtain ⟨chunks, hchunks, hcut⟩ := hcut hlimit
  have hdrawn : chunks = (empty.addAll ladder).drawn 5 := by
    rw [drawn, (isWhole_empty.addAll ladder).intoChunks_eq, hchunks]
    rfl
  refine ⟨hlimit, chunks, hchunks, ?_, hcut⟩
  rw [hdrawn]
  decide +kernel

/-- Handing a batch out as one chunk when it is within the limit gives the chunks into which it
would have been cut, and the same refusal. -/
theorem intoChunks_eq_chunks (segments : List (Vec3 Float32 × Vec3 Float32)) (limit : Nat) :
    (empty.addAll segments).intoChunks limit = (empty.addAll segments).chunks limit := by
  have hwhole : (empty.addAll segments).IsWhole := isWhole_empty.addAll segments
  exact hwhole.intoChunks_eq limit

end LatticeScene.Shape.LineBatch
