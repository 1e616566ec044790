import LatticeScene.Text
import LatticeScene.Json.Record

/-!
# Settings

What a user can set: which parts of a frame are drawn, and how frames are built.
-/

namespace LatticeScene

/-!
## Draw options

`DrawOptions` say which parts of a frame are shown.  They can be given as a query, a list of
switches such as `noboxes&debug`: four of them hide a part and one shows the debug graphs.  A
switch counts when it stands alone or has a value that is not empty; everything else in a query
is passed over.
-/

/-- Which parts of a frame are shown, one bit for each.  Bits that belong to no part are kept. -/
structure DrawOptions where
  bits : UInt8
deriving DecidableEq, Repr

namespace DrawOptions

/-- The boxes of a schedule. -/
def boxes : DrawOptions := ⟨1⟩

/-- What could not be routed, and the injections. -/
def geometry : DrawOptions := ⟨2⟩

/-- The primal lattice. -/
def primals : DrawOptions := ⟨4⟩

/-- The dual lattice. -/
def duals : DrawOptions := ⟨8⟩

/-- The debug graphs. -/
def debug : DrawOptions := ⟨16⟩

/-- The options of both. -/
def union (a b : DrawOptions) : DrawOptions := ⟨a.bits ||| b.bits⟩

/-- The options of the first that are not options of the second. -/
def remove (a b : DrawOptions) : DrawOptions := ⟨a.bits &&& ~~~b.bits⟩

/-- Whether all options of the second are options of the first. -/
def contains (a b : DrawOptions) : Bool := a.bits &&& b.bits == b.bits

/-- Everything but the debug graphs. -/
def default : DrawOptions := ((boxes.union geometry).union primals).union duals

/-- The names of the options in texts. -/
def flags : List Text.NamedFlag :=
  [⟨"BOXES", boxes.bits⟩, ⟨"GEOMETRY", geometry.bits⟩, ⟨"PRIMALS", primals.bits⟩,
    ⟨"DUALS", duals.bits⟩, ⟨"DEBUG", debug.bits⟩]

/-- The text of draw options. -/
def text (o : DrawOptions) : String := Text.NamedFlag.write flags o.bits

/-- The draw options that a text stands for. -/
def ofText? (t : String) : Option DrawOptions := (Text.NamedFlag.read? flags t).map (⟨·⟩)

/-! ### Queries -/

/-- A switch of a query. -/
inductive Switch where
  /-- Hide a part. -/
  | hide (part : DrawOptions)
  /-- Show a part. -/
  | unhide (part : DrawOptions)

/-- The names of the switches. -/
def switches : List (String × Switch) :=
  [("noboxes", .hide boxes), ("nogeom", .hide geometry), ("noprimals", .hide primals),
    ("noduals", .hide duals), ("debug", .unhide debug)]

/-- Turn a switch. -/
def turn (o : DrawOptions) : Switch → DrawOptions
  | .hide part => o.remove part
  | .unhide part => o.union part

/-- The switch that one part of a query turns: the one named in front of the first equals sign,
unless nothing follows that sign. -/
def switch? (part : List Char) : Option Switch :=
  if part.dropWhile (· != '=') = ['='] then none
  else (switches.find? fun s => s.1.toList == part.takeWhile (· != '=')).map (·.2)

/-- The parts of a query, with one question mark in front of it left out. -/
def queryParts (query : String) : List (List Char) :=
  Text.parts '&' (match query.toList with
    | '?' :: rest => rest
    | cs => cs)

/-- The default options with the switches of a query turned. -/
def ofQuery (query : String) : DrawOptions :=
  ((queryParts query).filterMap switch?).foldl turn default

end DrawOptions

open Json

/-!
## Configuration

What a user can set: how much geometry is batched, how large the boxes of plumbing pieces are,
the unit in which sizes are reported, and what is drawn.  Every setting has a default.
-/

/-- The sizes of the boxes that a plumbing piece expands to. -/
structure PieceSizes where
  /-- The edge of the unit box around a piece. -/
  unitSize : Float32
  /-- The edge of a core. -/
  coreSize : Float32
  /-- The length of an arm along its axis. -/
  armLength : Float32
  /-- How far an arm stands off from its core. -/
  armOffset : Float32
  /-- How far the dual core stands off from the piece on every axis. -/
  dualOffset : Float32
deriving DecidableEq

namespace PieceSizes

/-- The sizes of the standard pieces. -/
def default : PieceSizes :=
  { unitSize := 1, coreSize := 0.3, armLength := 0.7, armOffset := 0.3, dualOffset := 0.5 }

/-- Read sizes from JSON. -/
def ofTree? (tree : Tree) : Option PieceSizes := do
  match ← tree.fields? [["unit_size"], ["core_size"], ["arm_length"], ["arm_offset"],
      ["dual_offset"]] with
  | [unitSize, coreSize, armLength, armOffset, dualOffset] =>
    return {
      unitSize := ← Tree.orDefault? default.unitSize Tree.float32? unitSize
      coreSize := ← Tree.orDefault? default.coreSize Tree.float32? coreSize
      armLength := ← Tree.orDefault? default.armLength Tree.float32? armLength
      armOffset := ← Tree.orDefault? default.armOffset Tree.float32? armOffset
      dualOffset := ← Tree.orDefault? default.dualOffset Tree.float32? dualOffset }
  | _ => none

/-- Write sizes as JSON. -/
def toTree (s : PieceSizes) : Tree :=
  .record [("unit_size", .ofFloat32 s.unitSize), ("core_size", .ofFloat32 s.coreSize),
    ("arm_length", .ofFloat32 s.armLength), ("arm_offset", .ofFloat32 s.armOffset),
    ("dual_offset", .ofFloat32 s.dualOffset)]

end PieceSizes

/-- Read draw options from JSON. -/
def DrawOptions.ofTree? (tree : Tree) : Option DrawOptions := tree.string?.bind ofText?

/-- Write draw options as JSON. -/
def DrawOptions.toTree (o : DrawOptions) : Tree := .ofString o.text

/-- The settings of a viewer. -/
structure Config where
  /-- The most vertices in a batch of boxes. -/
  accumulatorCapacity : Nat
  /-- The most vertices in a chunk of lines. -/
  lineChunkVertices : Nat
  /-- The edge of a plumbing piece, the unit in which sizes are reported. -/
  pieceUnit : Float32
  /-- The sizes of the boxes of plumbing pieces. -/
  pieces : PieceSizes
  /-- What is drawn. -/
  draw : DrawOptions
deriving DecidableEq

namespace Config

/-- The settings when nothing is set. -/
def default : Config :=
  { accumulatorCapacity := 500000
    lineChunkVertices := 4000000
    pieceUnit := 6
    pieces := .default
    draw := .default }

/-- Read settings from JSON. -/
def ofTree? (tree : Tree) : Option Config := do
  match ← tree.fields? [["accumulator_capacity"], ["line_chunk_vertices"], ["piece_unit"],
      ["plumbing"], ["draw"]] with
  | [accumulatorCapacity, lineChunkVertices, pieceUnit, pieces, draw] =>
    return {
      accumulatorCapacity :=
        ← Tree.orDefault? default.accumulatorCapacity Tree.nat64? accumulatorCapacity
      lineChunkVertices := ← Tree.orDefault? default.lineChunkVertices Tree.nat64? lineChunkVertices
      pieceUnit := ← Tree.orDefault? default.pieceUnit Tree.float32? pieceUnit
      pieces := ← Tree.orDefault? default.pieces PieceSizes.ofTree? pieces
      draw := ← Tree.orDefault? default.draw DrawOptions.ofTree? draw }
  | _ => none

/-- Write settings as JSON. -/
def toTree (c : Config) : Tree :=
  .record [("accumulator_capacity", .ofNat c.accumulatorCapacity),
    ("line_chunk_vertices", .ofNat c.lineChunkVertices), ("piece_unit", .ofFloat32 c.pieceUnit),
    ("plumbing", c.pieces.toTree), ("draw", c.draw.toTree)]

end Config

end LatticeScene
