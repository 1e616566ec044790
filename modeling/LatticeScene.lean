import LatticeScene.Attempt
import LatticeScene.Binary32
import LatticeScene.Buffer
import LatticeScene.CommandLine.Arguments
import LatticeScene.CommandLine.Run
import LatticeScene.Display.Device
import LatticeScene.Display.Viewer
import LatticeScene.Json.Numeral
import LatticeScene.Json.Record
import LatticeScene.Json.Text
import LatticeScene.Json.Token
import LatticeScene.Json.Tree
import LatticeScene.Main
import LatticeScene.Schedule.Boxes
import LatticeScene.Schedule.Defects
import LatticeScene.Schedule.Lattice
import LatticeScene.Settings
import LatticeScene.Shape.Batch
import LatticeScene.Shape.Face
import LatticeScene.Shape.Mesh
import LatticeScene.Shape.SegmentedBox
import LatticeScene.Shape.Space
import LatticeScene.Shape.Spelling
import LatticeScene.Staging.Boxes
import LatticeScene.Staging.Defects
import LatticeScene.Staging.Lattice
import LatticeScene.Staging.Payload
import LatticeScene.Staging.StagedFrame
import LatticeScene.Text
import LatticeScene.Proofs.Binary32.Division
import LatticeScene.Proofs.Binary32.Finite
import LatticeScene.Proofs.Binary32.Order
import LatticeScene.Proofs.Buffer.BoundedList
import LatticeScene.Proofs.CommandLine.Frames
import LatticeScene.Proofs.Display.Balance
import LatticeScene.Proofs.Display.Bounds
import LatticeScene.Proofs.Display.Budget
import LatticeScene.Proofs.Display.Composition
import LatticeScene.Proofs.Display.DefectBounds
import LatticeScene.Proofs.Display.Drawable
import LatticeScene.Proofs.Display.Endings
import LatticeScene.Proofs.Display.Independence
import LatticeScene.Proofs.Display.Ownership
import LatticeScene.Proofs.Display.Requests
import LatticeScene.Proofs.Display.Steps
import LatticeScene.Proofs.Display.Uploads
import LatticeScene.Proofs.Display.Visibility
import LatticeScene.Proofs.Json.Printing
import LatticeScene.Proofs.Json.Record
import LatticeScene.Proofs.Json.Scanning
import LatticeScene.Proofs.Json.Trees
import LatticeScene.Proofs.Schedule.Defects
import LatticeScene.Proofs.Schedule.GraphTexts
import LatticeScene.Proofs.Schedule.Lattice
import LatticeScene.Proofs.Settings.Query
import LatticeScene.Proofs.Shape.BoxBatch
import LatticeScene.Proofs.Shape.BoxRefusal
import LatticeScene.Proofs.Shape.ClosedSurface
import LatticeScene.Proofs.Shape.Envelope
import LatticeScene.Proofs.Shape.ExactEnvelope
import LatticeScene.Proofs.Shape.FaceBlocks
import LatticeScene.Proofs.Shape.FiniteBox
import LatticeScene.Proofs.Shape.FlatNormals
import LatticeScene.Proofs.Shape.Grid
import LatticeScene.Proofs.Shape.GridMesh
import LatticeScene.Proofs.Shape.LineBatch
import LatticeScene.Proofs.Shape.Mesh
import LatticeScene.Proofs.Shape.SegmentedBox
import LatticeScene.Proofs.Shape.UndividedBox
import LatticeScene.Proofs.Staging.Boxes
import LatticeScene.Proofs.Staging.CenteredBoxes
import LatticeScene.Proofs.Staging.ColorGroups
import LatticeScene.Proofs.Staging.Composition
import LatticeScene.Proofs.Staging.DanglingReferences
import LatticeScene.Proofs.Staging.DefectBatches
import LatticeScene.Proofs.Staging.DefectBounds
import LatticeScene.Proofs.Staging.Defects
import LatticeScene.Proofs.Staging.Lattice
import LatticeScene.Proofs.Staging.Links
import LatticeScene.Proofs.Staging.Plumbing
import LatticeScene.Proofs.Staging.Queue
import LatticeScene.Proofs.Staging.Steps
import LatticeScene.Proofs.Staging.Surfaces
