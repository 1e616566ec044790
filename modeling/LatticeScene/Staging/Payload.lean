import LatticeScene.Settings
import LatticeScene.Json.Record
import LatticeScene.Shape.Mesh

/-!
# What is uploaded

A mesh is uploaded together with the layer it belongs to and the way it is painted.
-/

namespace LatticeScene.Staging

/-!
## Layers

Every mesh of a scene belongs to a layer, and layers are shown and hidden as a whole.  Some layers
follow a draw option, the others are shown from the start.
-/

/-- A layer of a scene. -/
inductive Layer where
  | boxes
  | primal
  | dual
  | notWorking
  | injections
  | debug
  | boundingBox
  | plumbingUnits
  | plumbingPrimals
  | plumbingDuals
  | lattice
  | latticeLinks
deriving DecidableEq, Repr

namespace Layer

/-- All layers in order. -/
def all : List Layer :=
  [boxes, primal, dual, notWorking, injections, debug, boundingBox, plumbingUnits, plumbingPrimals,
    plumbingDuals, lattice, latticeLinks]

/-- The name of a layer. -/
def name : Layer → String
  | boxes => "Boxes"
  | primal => "Primal"
  | dual => "Dual"
  | notWorking => "NotWorking"
  | injections => "Injections"
  | debug => "Debug"
  | boundingBox => "BoundingBox"
  | plumbingUnits => "PlumbingUnits"
  | plumbingPrimals => "PlumbingPrimals"
  | plumbingDuals => "PlumbingDuals"
  | lattice => "Lattice"
  | latticeLinks => "LatticeLinks"

/-- The draw option that a layer follows. -/
def drawOption? : Layer → Option DrawOptions
  | boxes => some .boxes
  | primal => some .primals
  | dual => some .duals
  | notWorking | injections => some .geometry
  | debug => some .debug
  | _ => none

/-- Whether a layer is shown under draw options. -/
def visibleUnder (layer : Layer) (options : DrawOptions) : Bool :=
  match layer.drawOption? with
  | some option => options.contains option
  | none => true

/-- Every layer is listed. -/
theorem mem_all (layer : Layer) : layer ∈ all := by cases layer <;> decide

end Layer

open Json

/-!
## Surface styles

How a mesh is painted.  Every style differs from the plain white one in a few respects.
-/

/-- How the surface or the lines of a mesh are painted. -/
structure Style where
  /-- The name of a colour, or its code. -/
  color : String
  opacity : Float32
  wireframe : Bool
  doubleSided : Bool
  flatShading : Bool
  lineWidth : Float32
deriving DecidableEq

namespace Style

/-- Plain white. -/
def plain : Style :=
  { color := "white"
    opacity := 1
    wireframe := false
    doubleSided := false
    flatShading := false
    lineWidth := 1 }

/-- A plain colour. -/
def solid (color : String) : Style := { plain with color }

/-- Only the edges of the triangles. -/
def outline (color : String) : Style := { plain with color, wireframe := true }

/-- Lines of a given width. -/
def line (color : String) (lineWidth : Float32) : Style := { plain with color, lineWidth }

/-- Flat facets that are seen from both sides. -/
def facets (color : String) : Style :=
  { plain with color, doubleSided := true, flatShading := true }

/-- Cells of a lattice layout.  Two names stand for the edges of black and aqua cells; black cells
are opaque and all others let some light through. -/
def cells (name : String) : Style :=
  let (color, wireframe, opacity) :=
    if name = "wireframe" then ("black", true, 0.8)
    else if name = "links" then ("aqua", true, 0.8)
    else if name = "black" then ("black", false, 1)
    else (name, false, 0.8)
  { plain with color, opacity, wireframe, doubleSided := true }

/-- Whether what lies behind shines through. -/
def isTransparent (s : Style) : Bool := s.opacity < 1

/-- Write a style as JSON. -/
def toTree (s : Style) : Tree :=
  .record [("color", .ofString s.color), ("opacity", .ofFloat32 s.opacity),
    ("wireframe", .bool s.wireframe), ("double_sided", .bool s.doubleSided),
    ("flat_shading", .bool s.flatShading), ("line_width", .ofFloat32 s.lineWidth)]

end Style

open Shape

/-!
## Payloads

A `Payload` is a mesh ready for upload: its buffers, how they are drawn, and the layer they belong
to.
-/

/-- What the indices of a payload are put together to. -/
inductive Primitive where
  | triangles
  | lines
  | points
deriving DecidableEq, Repr

/-- The name of a primitive. -/
def Primitive.name : Primitive → String
  | triangles => "Triangles"
  | lines => "Lines"
  | points => "Points"

/-- Buffers to be uploaded. -/
structure Payload where
  name : String
  layer : Layer
  primitive : Primitive
  mesh : Mesh
  /-- The components of the normals of the vertices. -/
  normals : Option (Array Float32)
  style : Style
deriving DecidableEq

namespace Payload

/-- A mesh without normals. -/
def ofMesh (name : String) (layer : Layer) (primitive : Primitive) (mesh : Mesh) (style : Style) :
    Payload :=
  { name, layer, primitive, mesh, normals := none, style }

/-- Give every vertex the normal of its triangle. -/
def withFlatNormals (p : Payload) : Payload := { p with normals := some p.mesh.flatNormals }

/-- How many vertices there are. -/
def vertexCount (p : Payload) : Nat := p.mesh.vertexCount

/-- The bytes of all buffers. -/
def byteSize (p : Payload) : Nat :=
  p.mesh.byteSize + match p.normals with
    | some normals => 4 * normals.size
    | none => 0

end Payload

end LatticeScene.Staging
