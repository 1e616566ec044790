import LatticeScene.Staging.Boxes
import LatticeScene.Staging.StagedFrame
import LatticeScene.Schedule.Lattice

/-!
# Staging by colour

Everything in a lattice layout is drawn in groups, one for each colour.
-/

namespace LatticeScene.Staging

/-!
## Groups by colour

Entries of a layout are grouped by their colour.  The groups stand in the order in which their
colours first appear, and no colour has two groups.
-/

/-- Something for every colour, in the order of first appearance. -/
abbrev ColorGroups (α : Type) := List (String × α)

namespace ColorGroups

variable {α ε : Type}

/-- Change the group of a colour, or add one at the end if there is none. -/
def change (color : String) (f : Option α → Except ε α) :
    ColorGroups α → Except ε (ColorGroups α)
  | [] => return [(color, ← f none)]
  | group :: rest =>
    if group.1 = color then return (color, ← f (some group.2)) :: rest
    else return group :: (← change color f rest)

end ColorGroups

open Shape Schedule

/-!
## Staging lattice layouts

The cells of a layout are grouped by colour, and every group becomes one payload.  The links are
grouped by colour in the same way; each is a line between the centres of two cells.  The cells are
staged before the ends of the links are looked up.
-/

/-- Add a cell to the batch of its colour. -/
def addCell (config : Config) (surfaces : ColorGroups BoxBatch) (cell : Cell) :
    Except Failure (ColorGroups BoxBatch) :=
  surfaces.change cell.color fun batch? => do
    let batch ← match batch? with
      | some batch => pure batch
      | none => newBatch config
    addFaces batch cell.shownFaces cell.position (Vec3.splat config.pieces.unitSize)

/-- The batches of the cells of a layout, by colour. -/
def surfaceGroups (config : Config) (cells : List Cell) : Except Failure (ColorGroups BoxBatch) :=
  cells.foldlM (addCell config) []

/-- Stage the cells of one colour. -/
def StagedFrame.stageSurface (s : StagedFrame) (surface : String × BoxBatch) : StagedFrame :=
  s.stageBatch s!"lattice-{surface.1}" .lattice (.cells surface.1) surface.2

/-- The colour of links that name none. -/
def defaultLinkColor : String := "blue"

/-- Add a link to the batch of its colour. -/
def addLink (layout : LatticeLayout) (links : ColorGroups LineBatch) (link : Link) :
    Except Failure (ColorGroups LineBatch) := do
  let source ← (layout.center link.source).mapError .schedule
  let target ← (layout.center link.target).mapError .schedule
  links.change (link.color.getD defaultLinkColor) fun batch? =>
    .ok ((batch?.getD .empty).add source target)

/-- The batches of the links of a layout, by colour. -/
def linkGroups (layout : LatticeLayout) : Except Failure (ColorGroups LineBatch) :=
  layout.links.foldlM (addLink layout) []

/-- Stage the links of one colour. -/
def stageLinks (config : Config) (s : StagedFrame) (links : String × LineBatch) : StagingAttempt :=
  stageLines config s!"links-{links.1}" .latticeLinks [⟨links.1, 1⟩] links.2
    (s.includeBounds links.2.bounds)

/-- Stage a lattice layout. -/
def stageLattice (config : Config) (layout : LatticeLayout) (s : StagedFrame) : StagingAttempt :=
  match surfaceGroups config layout.cells with
  | .error failure => .stopped failure s
  | .ok surfaces =>
    let s := surfaces.foldl StagedFrame.stageSurface s
    match linkGroups layout with
    | .error failure => .stopped failure s
    | .ok links => .each (stageLinks config) s links

end LatticeScene.Staging
