import LatticeScene.Proofs.Staging.CenteredBoxes
import LatticeScene.Proofs.Staging.Queue
import Mathlib.Data.List.Forall2

/-!
# Plumbing pieces expand completely or not at all

On each lattice a piece expands to the boxes that its number stands for (`Expands`): nothing, or a
core with arms.  How many these are is read off the lowest four bits (`boxCount`).

The batches of units, primals and duals have one capacity but fill at different rates.  A schedule
is taken if each of the three has room for all its boxes.  Otherwise the first box without room ends
the schedule, and the failure is the same in every batch (`addPieces_cases`).
A schedule that is taken is queued as at most three payloads, one for each kind of box that there is
(`DrawsPieces`).
-/

namespace LatticeScene.Staging

open Shape Schedule

/-! ### What a piece expands to -/

/-- How many boxes a number stands for: a core if bit 3 is set, and with it an arm for each of the
bits below. -/
def boxCount (bits : Nat) : Nat :=
  if bits.testBit 3 then 1 + [0, 1, 2].countP bits.testBit else 0

/-- The arm of the core at `origin` along an axis differs from the core in its extent and in its
centre along that axis. -/
structure IsArm (sizes : PieceSizes) (origin : Vec3 Float32) (axis : Axis) (box : CenteredBox) :
    Prop where
  center_along : box.center.get axis = origin.get axis + sizes.armOffset
  center_across : ∀ other, other ≠ axis → box.center.get other = origin.get other
  dimensions_along : box.dimensions.get axis = sizes.armLength
  dimensions_across : ∀ other, other ≠ axis → box.dimensions.get other = sizes.coreSize

/-- The axes of arms, each with the bit that stands for it. -/
def armBits : List (Axis × Nat) := [(.x, 2), (.y, 1), (.z, 0)]

/-- A number stands for boxes around `origin`: a core there and then its arms, or none. -/
def Expands (sizes : PieceSizes) (origin : Vec3 Float32) (bits : Nat) (boxes : List CenteredBox) :
    Prop :=
  if bits.testBit 3 then
    ∃ arms, boxes = ⟨origin, Vec3.splat sizes.coreSize⟩ :: arms ∧
      List.Forall₂ (IsArm sizes origin) ((armBits.filter (bits.testBit ·.2)).map Prod.fst) arms
  else boxes = []

section Expansion

variable (sizes : PieceSizes) (origin : Vec3 Float32) (bits : Nat)

/-- The box of an arm differs from the core along its axis alone. -/
theorem isArm_armBox (axis : Axis) : IsArm sizes origin axis (armBox sizes origin axis) where
  center_along := Vec3.get_set_self _ _ _
  center_across other hother := Vec3.get_set_of_ne _ (Ne.symm hother) _
  dimensions_along := Vec3.get_set_self _ _ _
  dimensions_across other hother := by
    rw [armBox, Vec3.get_set_of_ne _ (Ne.symm hother)]
    cases other <;> rfl

/-- The axes along which a number has arms. -/
theorem filter_hasArm_all :
    Axis.all.filter (PlumbingPiece.hasArm bits) =
      (armBits.filter (bits.testBit ·.2)).map Prod.fst := by
  have hall : Axis.all = armBits.map Prod.fst := rfl
  rw [hall, List.filter_map]
  refine congrArg (List.map Prod.fst) (List.filter_congr fun arm harm => ?_)
  have hbit : ∀ arm ∈ armBits, 2 - arm.1.index = arm.2 := by decide
  rw [Function.comp_apply, PlumbingPiece.hasArm, hbit arm harm]

/-- A number is expanded to a core and its arms, or to nothing. -/
theorem expands_coreWithArms : Expands sizes origin bits (coreWithArms sizes origin bits) := by
  unfold Expands coreWithArms PlumbingPiece.hasCore
  split
  · refine ⟨_, rfl, ?_⟩
    rw [filter_hasArm_all, List.forall₂_map_right_iff, List.forall₂_same]
    exact fun axis _ => isArm_armBox sizes origin axis
  · rfl

variable {sizes origin} in
/-- The description of an arm leaves no choice of its box. -/
theorem IsArm.eq_armBox {axis : Axis} {box : CenteredBox} (h : IsArm sizes origin axis box) :
    box = armBox sizes origin axis := by
  have harm := isArm_armBox sizes origin axis
  obtain ⟨center, dimensions⟩ := box
  have hcenter : center = (armBox sizes origin axis).center := by
    refine Vec3.eq_of_get fun other => ?_
    by_cases hother : other = axis
    · subst hother
      exact h.center_along.trans harm.center_along.symm
    · exact (h.center_across other hother).trans (harm.center_across other hother).symm
  have hdimensions : dimensions = (armBox sizes origin axis).dimensions := by
    refine Vec3.eq_of_get fun other => ?_
    by_cases hother : other = axis
    · subst hother
      exact h.dimensions_along.trans harm.dimensions_along.symm
    · exact (h.dimensions_across other hother).trans (harm.dimensions_across other hother).symm
  rw [hcenter, hdimensions]

variable {sizes origin bits} in
/-- A number expands in one way only. -/
theorem Expands.eq_coreWithArms {boxes : List CenteredBox} (h : Expands sizes origin bits boxes) :
    boxes = coreWithArms sizes origin bits := by
  unfold Expands at h
  unfold coreWithArms PlumbingPiece.hasCore
  split at h
  · next hcore =>
    obtain ⟨arms, rfl, harms⟩ := h
    have hequal : List.Forall₂ (· = ·)
        (((armBits.filter (bits.testBit ·.2)).map Prod.fst).map (armBox sizes origin)) arms :=
      List.forall₂_map_left_iff.mpr (harms.imp fun _ _ harm => harm.eq_armBox.symm)
    rw [List.forall₂_eq_eq_eq] at hequal
    rw [if_pos hcore, filter_hasArm_all, hequal]
    rfl
  · next hcore => rw [if_neg hcore, h]

variable {sizes origin bits} in
/-- A number expands to as many boxes as it counts. -/
theorem Expands.length_eq {boxes : List CenteredBox} (h : Expands sizes origin bits boxes) :
    boxes.length = boxCount bits := by
  have hcount : ∀ p : Nat → Bool,
      ((armBits.filter fun arm => p arm.2).map Prod.fst).length = [0, 1, 2].countP p := by
    intro p
    simp only [armBits, List.filter_cons, List.countP_cons, List.filter_nil, List.countP_nil]
    cases p 0 <;> cases p 1 <;> cases p 2 <;> rfl
  unfold Expands at h
  unfold boxCount
  split at h
  · next hcore =>
    obtain ⟨arms, rfl, harms⟩ := h
    rw [if_pos hcore, List.length_cons, ← harms.length_eq, hcount, Nat.add_comm]
  · next hcore => rw [if_neg hcore, h, List.length_nil]

end Expansion

/-- A piece whose numbers are cut down to their lowest four bits. -/
def lowBits (piece : PlumbingPiece) : PlumbingPiece :=
  { piece with primal := piece.primal % 16, dual := piece.dual % 16 }

/-- Only the lowest four bits of a number are looked at. -/
theorem coreWithArms_mod (sizes : PieceSizes) (origin : Vec3 Float32) (bits : Nat) :
    coreWithArms sizes origin (bits % 16) = coreWithArms sizes origin bits := by
  have htest : ∀ i < 4, (bits % 16).testBit i = bits.testBit i := by
    intro i hi
    rw [Nat.testBit_mod_two_pow bits 4 i, decide_eq_true hi, Bool.true_and]
  have harms : Axis.all.filter (PlumbingPiece.hasArm (bits % 16)) =
      Axis.all.filter (PlumbingPiece.hasArm bits) :=
    List.filter_congr fun axis _ => htest (2 - axis.index) (by omega)
  unfold coreWithArms PlumbingPiece.hasCore
  rw [htest 3 (by decide), harms]

/-! ### Filling the batches -/

/-- The unit boxes of pieces. -/
def unitBoxes (sizes : PieceSizes) (pieces : List PlumbingPiece) : List CenteredBox :=
  pieces.map fun piece => (pieceBoxes sizes piece).unit

/-- The boxes of pieces on the primal lattice, piece by piece. -/
def primalBoxes (sizes : PieceSizes) (pieces : List PlumbingPiece) : List CenteredBox :=
  pieces.flatMap fun piece => (pieceBoxes sizes piece).primal

/-- The boxes of pieces on the dual lattice, piece by piece. -/
def dualBoxes (sizes : PieceSizes) (pieces : List PlumbingPiece) : List CenteredBox :=
  pieces.flatMap fun piece => (pieceBoxes sizes piece).dual

/-- The batches of a schedule hold the given boxes, each in the given capacity. -/
structure PlumbingBatches.Holds (batches : PlumbingBatches) (capacity : Nat)
    (units primals duals : List CenteredBox) : Prop where
  units : batches.units.Holds capacity (boxVertices units)
  primals : batches.primals.Holds capacity (boxVertices primals)
  duals : batches.duals.Holds capacity (boxVertices duals)

/-- Units, primals and duals that each fit into a batch of the given capacity. -/
structure BoxesFit (capacity : Nat) (units primals duals : List CenteredBox) : Prop where
  units : 36 * units.length ≤ capacity
  primals : 36 * primals.length ≤ capacity
  duals : 36 * duals.length ≤ capacity

/-- Add the boxes of one piece to the batches. -/
def PlumbingBatches.addPiece (batches : PlumbingBatches) (boxes : PieceBoxes) :
    Except Failure PlumbingBatches := do
  let units ← addBoxes batches.units [boxes.unit]
  let primals ← addBoxes batches.primals boxes.primal
  let duals ← addBoxes batches.duals boxes.dual
  .ok { units, primals, duals }

/-- The boxes of the first piece are added before those of the others. -/
theorem addPieces_cons (sizes : PieceSizes) (batches : PlumbingBatches) (piece : PlumbingPiece)
    (pieces : List PlumbingPiece) :
    addPieces sizes batches (piece :: pieces) =
      batches.addPiece (pieceBoxes sizes piece) >>= fun next => addPieces sizes next pieces := by
  simp only [addPieces, PlumbingBatches.addPiece, bind_assoc]
  rfl

/-- A piece has the boxes that the lowest four bits of its numbers stand for. -/
theorem pieceBoxes_lowBits (sizes : PieceSizes) (piece : PlumbingPiece) :
    pieceBoxes sizes (lowBits piece) = pieceBoxes sizes piece := by
  simp only [pieceBoxes, lowBits, coreWithArms_mod]

/-- Pieces are added alike when their numbers are cut down to four bits. -/
theorem addPieces_lowBits (sizes : PieceSizes) (batches : PlumbingBatches)
    (pieces : List PlumbingPiece) :
    addPieces sizes batches (pieces.map lowBits) = addPieces sizes batches pieces := by
  induction pieces generalizing batches with
  | nil => rfl
  | cons piece pieces ih => simp only [List.map_cons, addPieces_cons, pieceBoxes_lowBits, ih]

section Filling

variable {capacity : Nat} {batches : PlumbingBatches} {units primals duals : List CenteredBox}

/-- What fits along with more boxes fits without them. -/
theorem BoxesFit.of_append {units' primals' duals' : List CenteredBox}
    (h : BoxesFit capacity (units ++ units') (primals ++ primals') (duals ++ duals')) :
    BoxesFit capacity units primals duals := by
  obtain ⟨hunits, hprimals, hduals⟩ := h
  rw [List.length_append] at hunits hprimals hduals
  constructor
  · omega
  · omega
  · omega

/-- What is held fits. -/
theorem PlumbingBatches.Holds.boxesFit (h : batches.Holds capacity units primals duals) :
    BoxesFit capacity units primals duals := by
  constructor
  · rw [← length_boxVertices]
    exact h.units.length_le
  · rw [← length_boxVertices]
    exact h.primals.length_le
  · rw [← length_boxVertices]
    exact h.duals.length_le

/-- The boxes of a piece are taken on top of those that are held, or one of them has no room. -/
theorem addPiece_cases (h : batches.Holds capacity units primals duals) (boxes : PieceBoxes) :
    (∃ next, batches.addPiece boxes = .ok next ∧
      next.Holds capacity (units ++ [boxes.unit]) (primals ++ boxes.primal)
        (duals ++ boxes.dual)) ∨
      (¬BoxesFit capacity (units ++ [boxes.unit]) (primals ++ boxes.primal)
          (duals ++ boxes.dual) ∧
        batches.addPiece boxes = .error (noRoom capacity)) := by
  unfold PlumbingBatches.addPiece
  -- the batches are filled in this order, and the first one without room decides
  rcases addBoxes_cases h.units [boxes.unit] with
    ⟨-, nextUnits, hunits, hholdsUnits⟩ | ⟨hover, herror⟩
  case inr =>
    rw [herror]
    rw [← List.length_append] at hover
    exact Or.inr ⟨fun hfits => absurd hfits.units (Nat.not_le.mpr hover), rfl⟩
  rw [hunits]
  rcases addBoxes_cases h.primals boxes.primal with
    ⟨-, nextPrimals, hprimals, hholdsPrimals⟩ | ⟨hover, herror⟩
  case inr =>
    rw [herror]
    rw [← List.length_append] at hover
    exact Or.inr ⟨fun hfits => absurd hfits.primals (Nat.not_le.mpr hover), rfl⟩
  rw [hprimals]
  rcases addBoxes_cases h.duals boxes.dual with
    ⟨-, nextDuals, hduals, hholdsDuals⟩ | ⟨hover, herror⟩
  case inr =>
    rw [herror]
    rw [← List.length_append] at hover
    exact Or.inr ⟨fun hfits => absurd hfits.duals (Nat.not_le.mpr hover), rfl⟩
  rw [hduals]
  exact Or.inl ⟨_, rfl, ⟨hholdsUnits, hholdsPrimals, hholdsDuals⟩⟩

/-- All boxes of pieces are taken on top of those that are held, or one of them has no room. -/
theorem addPieces_cases (sizes : PieceSizes) (h : batches.Holds capacity units primals duals)
    (pieces : List PlumbingPiece) :
    (∃ next, addPieces sizes batches pieces = .ok next ∧
      next.Holds capacity (units ++ unitBoxes sizes pieces) (primals ++ primalBoxes sizes pieces)
        (duals ++ dualBoxes sizes pieces)) ∨
      (¬BoxesFit capacity (units ++ unitBoxes sizes pieces) (primals ++ primalBoxes sizes pieces)
          (duals ++ dualBoxes sizes pieces) ∧
        addPieces sizes batches pieces = .error (noRoom capacity)) := by
  induction pieces generalizing batches units primals duals with
  | nil =>
    simp only [unitBoxes, primalBoxes, dualBoxes, List.map_nil, List.flatMap_nil, List.append_nil]
    exact Or.inl ⟨batches, rfl, h⟩
  | cons piece pieces ih =>
    have hunits : units ++ unitBoxes sizes (piece :: pieces) =
        units ++ [(pieceBoxes sizes piece).unit] ++ unitBoxes sizes pieces := List.append_cons _ _ _
    have hprimals : primals ++ primalBoxes sizes (piece :: pieces) =
        primals ++ (pieceBoxes sizes piece).primal ++ primalBoxes sizes pieces :=
      (List.append_assoc _ _ _).symm
    have hduals : duals ++ dualBoxes sizes (piece :: pieces) =
        duals ++ (pieceBoxes sizes piece).dual ++ dualBoxes sizes pieces :=
      (List.append_assoc _ _ _).symm
    rw [addPieces_cons, hunits, hprimals, hduals]
    rcases addPiece_cases h (pieceBoxes sizes piece) with ⟨next, hnext, hholds⟩ | ⟨hover, herror⟩
    · rw [hnext]
      exact ih hholds
    · rw [herror]
      exact Or.inr ⟨fun hfits => hover hfits.of_append, rfl⟩

end Filling

/-- The boxes of a schedule fit into batches of the given capacity. -/
def PiecesFit (capacity : Nat) (pieces : List PlumbingPiece) : Prop :=
  36 * pieces.length ≤ capacity ∧
    36 * total (pieces.map fun piece => boxCount piece.primal) ≤ capacity ∧
    36 * total (pieces.map fun piece => boxCount piece.dual) ≤ capacity

section Batches

variable (sizes : PieceSizes) (pieces : List PlumbingPiece)

/-- There is a unit box to each piece. -/
theorem length_unitBoxes : (unitBoxes sizes pieces).length = pieces.length := List.length_map _

/-- On a lattice a schedule has as many boxes as its numbers stand for. -/
theorem length_flatMap_coreWithArms (origin : PlumbingPiece → Vec3 Float32)
    (bits : PlumbingPiece → Nat) :
    (pieces.flatMap fun piece => coreWithArms sizes (origin piece) (bits piece)).length =
      total (pieces.map fun piece => boxCount (bits piece)) := by
  induction pieces with
  | nil => rfl
  | cons piece pieces ih =>
    have hpiece : (coreWithArms sizes (origin piece) (bits piece)).length = boxCount (bits piece) :=
      (expands_coreWithArms _ _ _).length_eq
    rw [List.flatMap_cons, List.length_append, hpiece, ih, List.map_cons, total_cons]

/-- There are as many primal boxes as the first numbers of the pieces count. -/
theorem length_primalBoxes :
    (primalBoxes sizes pieces).length = total (pieces.map fun piece => boxCount piece.primal) :=
  length_flatMap_coreWithArms sizes pieces _ _

/-- There are as many dual boxes as the second numbers of the pieces count. -/
theorem length_dualBoxes :
    (dualBoxes sizes pieces).length = total (pieces.map fun piece => boxCount piece.dual) :=
  length_flatMap_coreWithArms sizes pieces _ _

/-- The boxes of pieces fit when their numbers say so. -/
theorem boxesFit_iff_piecesFit {capacity : Nat} :
    BoxesFit capacity (unitBoxes sizes pieces) (primalBoxes sizes pieces)
      (dualBoxes sizes pieces) ↔ PiecesFit capacity pieces := by
  rw [PiecesFit, ← length_unitBoxes sizes, ← length_primalBoxes sizes, ← length_dualBoxes sizes]
  constructor
  · rintro ⟨hunits, hprimals, hduals⟩
    exact ⟨hunits, hprimals, hduals⟩
  · rintro ⟨hunits, hprimals, hduals⟩
    exact ⟨hunits, hprimals, hduals⟩

end Batches

/-- A schedule whose boxes fit is taken whole. -/
theorem plumbingBatches_cases {config : Config}
    (hmax : config.accumulatorCapacity ≤ maxBatchVertices) (schedule : PlumbingSchedule) :
    (PiecesFit config.accumulatorCapacity schedule.pieces ∧
      ∃ batches, plumbingBatches config schedule = .ok batches ∧
        batches.Holds config.accumulatorCapacity (unitBoxes config.pieces schedule.pieces)
          (primalBoxes config.pieces schedule.pieces) (dualBoxes config.pieces schedule.pieces)) ∨
      (¬PiecesFit config.accumulatorCapacity schedule.pieces ∧
        plumbingBatches config schedule = .error (noRoom config.accumulatorCapacity)) := by
  obtain ⟨new, hnew, hempty⟩ := exists_newBatch hmax
  have hholds : (PlumbingBatches.mk new new new).Holds config.accumulatorCapacity [] [] [] :=
    ⟨hempty, hempty, hempty⟩
  rw [plumbingBatches, hnew, ← boxesFit_iff_piecesFit config.pieces]
  rcases addPieces_cases config.pieces hholds schedule.pieces with
    ⟨batches, hok, htaken⟩ | ⟨hover, herror⟩
  · exact Or.inl ⟨htaken.boxesFit, batches, hok, htaken⟩
  · exact Or.inr ⟨hover, herror⟩

/-- A capacity that is too large for any batch is too large for an empty schedule. -/
theorem plumbingBatches_of_lt {config : Config}
    (hmax : maxBatchVertices < config.accumulatorCapacity) (schedule : PlumbingSchedule) :
    plumbingBatches config schedule =
      .error (.shape (.invalidCapacity config.accumulatorCapacity)) := by
  rw [plumbingBatches, newBatch_of_lt hmax]
  rfl

/-! ### The payloads of a schedule -/

/-- Boxes that are drawn together. -/
structure BoxGroup where
  name : String
  layer : Layer
  style : Style
  boxes : List CenteredBox

/-- A payload draws the boxes of a group: all faces of one box after the other, with every vertex
drawn once in order. -/
structure BoxGroup.DrawnBy (group : BoxGroup) (p : Payload) : Prop where
  name_eq : p.name = group.name
  layer_eq : p.layer = group.layer
  style_eq : p.style = group.style
  primitive_eq : p.primitive = .triangles
  vertexCount_eq : p.vertexCount = 36 * group.boxes.length
  positions_eq : p.mesh.positions.toList = (boxVertices group.boxes).flatMap Vec3.toList
  indices_eq : p.mesh.indices.toList.map UInt32.toNat = List.range (36 * group.boxes.length)

/-- The units, primals and duals of a schedule. -/
def plumbingGroups (units primals duals : List CenteredBox) : List BoxGroup :=
  [⟨"plumbing-units", .plumbingUnits, .outline "grey", units⟩,
    ⟨"plumbing-primals", .plumbingPrimals, .facets "red", primals⟩,
    ⟨"plumbing-duals", .plumbingDuals, .facets "blue", duals⟩]

section Payloads

variable {batch : BoxBatch} {capacity : Nat}

/-- The payload of a batch that holds the boxes of a group draws that group. -/
theorem drawnBy_batchPayload (group : BoxGroup)
    (h : batch.Holds capacity (boxVertices group.boxes)) :
    group.DrawnBy (batchPayload group.name group.layer group.style batch) where
  name_eq := rfl
  layer_eq := rfl
  style_eq := rfl
  primitive_eq := rfl
  vertexCount_eq := h.vertexCount_toMesh.trans (length_boxVertices group.boxes)
  positions_eq := h.positions_toMesh
  indices_eq := by
    rw [← length_boxVertices]
    exact h.indices_toMesh

/-- Boxes are queued as one payload if there are any. -/
theorem exists_payloads_stageBatch (s : StagedFrame) (group : BoxGroup)
    (h : batch.Holds capacity (boxVertices group.boxes)) :
    ∃ ps, (s.stageBatch group.name group.layer group.style batch).payloads = s.payloads ++ ps ∧
      List.Forall₂ BoxGroup.DrawnBy ([group].filter (·.boxes ≠ [])) ps := by
  have hdrawn := drawnBy_batchPayload group h
  have hempty : (batchPayload group.name group.layer group.style batch).mesh.isEmpty = true ↔
      group.boxes = [] := by
    refine h.isEmpty_toMesh_iff.trans ?_
    rw [← List.length_eq_zero_iff, length_boxVertices, ← List.length_eq_zero_iff]
    omega
  refine ⟨queued (batchPayload group.name group.layer group.style batch), ?_, ?_⟩
  · rw [StagedFrame.stageBatch, StagedFrame.payloads_stage, StagedFrame.payloads_includeBounds]
  · by_cases hnil : group.boxes = []
    · rw [queued, if_pos (hempty.mpr hnil), List.filter_cons_of_neg (by simpa using hnil)]
      exact .nil
    · rw [queued, if_neg (mt hempty.mp hnil), List.filter_cons_of_pos (by simpa using hnil)]
      exact .cons hdrawn .nil

end Payloads

/-- The kinds of boxes that there are come one after the other. -/
theorem exists_payloads_stagePlumbingBatches {batches : PlumbingBatches} {capacity : Nat}
    {units primals duals : List CenteredBox} (h : batches.Holds capacity units primals duals)
    (s : StagedFrame) :
    ∃ ps, (s.stagePlumbingBatches batches).payloads = s.payloads ++ ps ∧
      List.Forall₂ BoxGroup.DrawnBy
        ((plumbingGroups units primals duals).filter (·.boxes ≠ [])) ps := by
  obtain ⟨ps₁, hps₁, hdrawn₁⟩ := exists_payloads_stageBatch s
    ⟨"plumbing-units", .plumbingUnits, .outline "grey", units⟩ h.units
  obtain ⟨ps₂, hps₂, hdrawn₂⟩ := exists_payloads_stageBatch _
    ⟨"plumbing-primals", .plumbingPrimals, .facets "red", primals⟩ h.primals
  obtain ⟨ps₃, hps₃, hdrawn₃⟩ := exists_payloads_stageBatch _
    ⟨"plumbing-duals", .plumbingDuals, .facets "blue", duals⟩ h.duals
  refine ⟨ps₁ ++ (ps₂ ++ ps₃), ?_, ?_⟩
  · rw [StagedFrame.stagePlumbingBatches, hps₃, hps₂, hps₁, List.append_assoc, List.append_assoc]
  · have hgroups : plumbingGroups units primals duals =
        [⟨"plumbing-units", .plumbingUnits, .outline "grey", units⟩] ++
          ([⟨"plumbing-primals", .plumbingPrimals, .facets "red", primals⟩] ++
            [⟨"plumbing-duals", .plumbingDuals, .facets "blue", duals⟩]) := rfl
    rw [hgroups, List.filter_append, List.filter_append]
    exact List.rel_append hdrawn₁ (List.rel_append hdrawn₂ hdrawn₃)

/-! ### Staging a schedule -/

/-- Payloads that draw every piece of a schedule: its unit, the boxes of its first number around its
position, and those of its second number around the position on the dual lattice. -/
def DrawsPieces (sizes : PieceSizes) (pieces : List PlumbingPiece) (ps : List Payload) : Prop :=
  ∃ primals duals : List (List CenteredBox),
    List.Forall₂ (fun piece boxes => Expands sizes piece.position piece.primal boxes)
      pieces primals ∧
    List.Forall₂ (fun piece boxes =>
      Expands sizes (piece.position + Vec3.splat sizes.dualOffset) piece.dual boxes)
      pieces duals ∧
    List.Forall₂ BoxGroup.DrawnBy
      ((plumbingGroups
        (pieces.map fun piece => ⟨piece.position, Vec3.splat sizes.unitSize⟩)
        primals.flatten duals.flatten).filter (·.boxes ≠ [])) ps

section Counts

variable {sizes : PieceSizes} {pieces : List PlumbingPiece} {ps : List Payload}

/-- Payloads that draw groups of boxes have 36 vertices to each box. -/
theorem map_vertexCount_of_drawnBy {groups : List BoxGroup}
    (h : List.Forall₂ BoxGroup.DrawnBy groups ps) :
    ps.map Payload.vertexCount = groups.map fun group => 36 * group.boxes.length := by
  induction h with
  | nil => rfl
  | cons hp hrest ih => rw [List.map_cons, List.map_cons, hp.vertexCount_eq, ih]

/-- Groups without boxes would have payloads without vertices. -/
theorem map_vertexCount_of_drawnBy_filter {groups : List BoxGroup}
    (h : List.Forall₂ BoxGroup.DrawnBy (groups.filter (·.boxes ≠ [])) ps) :
    ps.map Payload.vertexCount =
      (groups.map fun group => 36 * group.boxes.length).filter (· ≠ 0) := by
  rw [map_vertexCount_of_drawnBy h, List.filter_map]
  refine congrArg (List.map _) (List.filter_congr fun group _ => ?_)
  have hzero : group.boxes = [] ↔ 36 * group.boxes.length = 0 := by
    rw [← List.length_eq_zero_iff]
    omega
  exact decide_eq_decide.mpr (not_congr hzero)

/-- Numbers that expand to lists of boxes expand to these boxes together. -/
theorem flatten_of_expands {origin : PlumbingPiece → Vec3 Float32} {bits : PlumbingPiece → Nat}
    {boxes : List (List CenteredBox)}
    (h : List.Forall₂ (fun piece boxes => Expands sizes (origin piece) (bits piece) boxes)
      pieces boxes) :
    boxes.flatten = pieces.flatMap fun piece => coreWithArms sizes (origin piece) (bits piece) := by
  induction h with
  | nil => rfl
  | cons hpiece hrest ih =>
    rw [List.flatten_cons, List.flatMap_cons, ih, hpiece.eq_coreWithArms]

/-- The boxes of a schedule are drawn in three groups, of which those without boxes are left out. -/
theorem DrawsPieces.drawnBy (h : DrawsPieces sizes pieces ps) :
    List.Forall₂ BoxGroup.DrawnBy
      ((plumbingGroups (unitBoxes sizes pieces) (primalBoxes sizes pieces)
        (dualBoxes sizes pieces)).filter (·.boxes ≠ [])) ps := by
  obtain ⟨primals, duals, hprimals, hduals, hdrawn⟩ := h
  rwa [flatten_of_expands hprimals, flatten_of_expands hduals] at hdrawn

/-- Each kind of boxes that there is has one payload. -/
theorem DrawsPieces.map_vertexCount (h : DrawsPieces sizes pieces ps) :
    ps.map Payload.vertexCount =
      [36 * pieces.length,
        36 * total (pieces.map fun piece => boxCount piece.primal),
        36 * total (pieces.map fun piece => boxCount piece.dual)].filter (· ≠ 0) := by
  rw [map_vertexCount_of_drawnBy_filter h.drawnBy, ← length_unitBoxes sizes pieces,
    ← length_primalBoxes sizes pieces, ← length_dualBoxes sizes pieces]
  rfl

end Counts

section Staging

variable {config : Config} {schedule : PlumbingSchedule}

/-- The batches of a schedule that is staged hold all its boxes. -/
theorem exists_holds_of_stagePlumbing {s t : StagedFrame}
    (h : stagePlumbing config schedule s = .done t) :
    ∃ batches, batches.Holds config.accumulatorCapacity
        (unitBoxes config.pieces schedule.pieces) (primalBoxes config.pieces schedule.pieces)
        (dualBoxes config.pieces schedule.pieces) ∧
      t = s.stagePlumbingBatches batches := by
  obtain ⟨batches, hbatches, rfl⟩ := map_eq_ok_iff.mp (Attempt.ofExcept_eq_done_iff.mp h)
  by_cases hmax : config.accumulatorCapacity ≤ maxBatchVertices
  case neg =>
    rw [plumbingBatches_of_lt (Nat.lt_of_not_le hmax)] at hbatches
    exact nomatch hbatches
  rcases plumbingBatches_cases hmax schedule with ⟨-, taken, htaken, hholds⟩ | ⟨-, herror⟩
  case inr =>
    rw [herror] at hbatches
    exact nomatch hbatches
  obtain rfl : taken = batches := Except.ok.inj (htaken.symm.trans hbatches)
  exact ⟨taken, hholds, rfl⟩

/-- The pieces of a schedule that is staged are all drawn. -/
theorem exists_drawsPieces_of_stagePlumbing {s t : StagedFrame}
    (h : stagePlumbing config schedule s = .done t) :
    ∃ ps, t.payloads = s.payloads ++ ps ∧ DrawsPieces config.pieces schedule.pieces ps := by
  obtain ⟨batches, hholds, rfl⟩ := exists_holds_of_stagePlumbing h
  obtain ⟨ps, hps, hdrawn⟩ := exists_payloads_stagePlumbingBatches hholds s
  refine ⟨ps, hps, schedule.pieces.map fun piece => (pieceBoxes config.pieces piece).primal,
    schedule.pieces.map fun piece => (pieceBoxes config.pieces piece).dual, ?_, ?_, hdrawn⟩
  · rw [List.forall₂_map_right_iff, List.forall₂_same]
    intro piece _
    exact expands_coreWithArms _ _ _
  · rw [List.forall₂_map_right_iff, List.forall₂_same]
    intro piece _
    exact expands_coreWithArms _ _ _

/-- A capacity beyond what 32 bits can number is refused, even for a schedule without pieces. -/
theorem stagePlumbing_of_lt (hmax : maxBatchVertices < config.accumulatorCapacity)
    (s : StagedFrame) :
    stagePlumbing config schedule s =
      .stopped (.shape (.invalidCapacity config.accumulatorCapacity)) s := by
  rw [stagePlumbing, plumbingBatches_of_lt hmax]
  rfl

variable (config schedule) in
/-- A schedule is staged alike when its numbers are cut down to four bits. -/
theorem stagePlumbing_lowBits (s : StagedFrame) :
    stagePlumbing config ⟨schedule.pieces.map lowBits⟩ s =
      stagePlumbing config schedule s := by
  simp only [stagePlumbing, plumbingBatches, addPieces_lowBits]

end Staging

/-- A schedule is staged if its units, its primal boxes and its dual boxes each fit into a batch,
with thirty-six vertices to a box.  Then it is queued as one payload for each of the three kinds
that there is, and every piece is drawn with all its boxes.  Otherwise nothing is queued, and the
failure says that a box did not fit into what whole boxes leave of a batch. -/
theorem stagePlumbing_all_or_nothing (config : Config) (schedule : PlumbingSchedule)
    (s : StagedFrame) :
    (config.accumulatorCapacity ≤ maxBatchVertices →
      ((stagePlumbing config schedule s).error? = none ↔
        PiecesFit config.accumulatorCapacity schedule.pieces) ∧
      (¬PiecesFit config.accumulatorCapacity schedule.pieces →
        stagePlumbing config schedule s =
          .stopped (.shape (.capacityExceeded 36 (config.accumulatorCapacity % 36)
            config.accumulatorCapacity)) s)) ∧
    (maxBatchVertices < config.accumulatorCapacity →
      stagePlumbing config schedule s =
        .stopped (.shape (.invalidCapacity config.accumulatorCapacity)) s) ∧
    (∀ t, stagePlumbing config schedule s = .done t →
      ∃ ps, t.payloads = s.payloads ++ ps ∧ DrawsPieces config.pieces schedule.pieces ps ∧
        ps.map Payload.vertexCount =
          [36 * schedule.pieces.length,
            36 * total (schedule.pieces.map fun piece => boxCount piece.primal),
            36 * total (schedule.pieces.map fun piece => boxCount piece.dual)].filter (· ≠ 0)) ∧
    stagePlumbing config ⟨schedule.pieces.map lowBits⟩ s =
      stagePlumbing config schedule s := by
  refine ⟨fun hmax => ?_, fun hmax => stagePlumbing_of_lt hmax s, fun t h => ?_,
    stagePlumbing_lowBits config schedule s⟩
  · rcases plumbingBatches_cases hmax schedule with ⟨hfits, batches, hok, -⟩ | ⟨hfits, herror⟩
    · have hdone : stagePlumbing config schedule s = .done (s.stagePlumbingBatches batches) := by
        rw [stagePlumbing, hok]
        rfl
      rw [hdone]
      exact ⟨iff_of_true rfl hfits, fun hover => absurd hfits hover⟩
    · have hstopped : stagePlumbing config schedule s =
          .stopped (noRoom config.accumulatorCapacity) s := by
        rw [stagePlumbing, herror]
        rfl
      rw [hstopped]
      exact ⟨iff_of_false (Option.some_ne_none _) hfits, fun _ => rfl⟩
  · obtain ⟨ps, hps, hdraws⟩ := exists_drawsPieces_of_stagePlumbing h
    exact ⟨ps, hps, hdraws, hdraws.map_vertexCount⟩

/-- A core with arms along x and z, and a core on the dual lattice.  The other numbers have no
core. -/
def unevenPieces : PlumbingSchedule :=
  ⟨[⟨⟨0, 0, 0⟩, 29, 7⟩, ⟨⟨2, 0, 0⟩, 0, 24⟩]⟩

/-- Three boxes fit into a batch, and with one place less the primal boxes do not.  The first faces
of the arm along x and of the dual core lie at 0.65 and at 2.65. -/
theorem stagePlumbing_all_or_nothing_uneven :
    (∃ t, stagePlumbing { Config.default with accumulatorCapacity := 108 } unevenPieces .empty =
        .done t ∧ t.payloads.map Payload.vertexCount = [72, 108, 36] ∧
        ∃ units primals duals, t.payloads = [units, primals, duals] ∧
          (primals.mesh.positions.toList.drop 108).take 18 =
            [0.65, 0.15, 0.15, 0.65, -0.15, 0.15, 0.65, 0.15, -0.15,
              0.65, -0.15, 0.15, 0.65, -0.15, -0.15, 0.65, 0.15, -0.15] ∧
          duals.mesh.positions.toList.take 18 =
            [2.65, 0.65, 0.65, 2.65, 0.35, 0.65, 2.65, 0.65, 0.35,
              2.65, 0.35, 0.65, 2.65, 0.35, 0.35, 2.65, 0.65, 0.35]) ∧
    stagePlumbing { Config.default with accumulatorCapacity := 107 } unevenPieces .empty =
      .stopped (.shape (.capacityExceeded 36 35 107)) .empty ∧
    stagePlumbing { Config.default with accumulatorCapacity := UInt32.size } unevenPieces .empty =
      .stopped (.shape (.invalidCapacity UInt32.size)) .empty := by
  have hcounts : (unevenPieces.pieces.map fun piece => boxCount piece.primal) = [3, 0] ∧
      (unevenPieces.pieces.map fun piece => boxCount piece.dual) = [0, 1] := by decide
  refine ⟨?_, ?_, ?_⟩
  · obtain ⟨hends, -, hqueued, -⟩ := stagePlumbing_all_or_nothing
      { Config.default with accumulatorCapacity := 108 } unevenPieces .empty
    have hfits : PiecesFit 108 unevenPieces.pieces := by
      rw [PiecesFit, hcounts.1, hcounts.2]
      decide
    have hdone := Attempt.eq_done ((hends (by decide)).1.mpr hfits)
    obtain ⟨ps, hps, hdraws, hvertices⟩ := hqueued _ hdone
    rw [hcounts.1, hcounts.2] at hvertices
    refine ⟨_, hdone, (congrArg (List.map Payload.vertexCount) hps).trans hvertices, ?_⟩
    -- all three groups have boxes, so that none of them is left out
    obtain ⟨units, qs, -, hqs, rfl⟩ := List.forall₂_cons_left_iff.mp hdraws.drawnBy
    obtain ⟨primals, rs, hprimals, hrs, rfl⟩ := List.forall₂_cons_left_iff.mp hqs
    obtain ⟨duals, rest, hduals, hrest, rfl⟩ := List.forall₂_cons_left_iff.mp hrs
    refine ⟨units, primals, duals, ?_, ?_, ?_⟩
    · rw [hps, List.forall₂_nil_left_iff.mp hrest]
      rfl
    · rw [hprimals.positions_eq]
      decide +kernel
    · rw [hduals.positions_eq]
      decide +kernel
  · have hover : ¬PiecesFit 107 unevenPieces.pieces := by
      rw [PiecesFit, hcounts.1]
      decide
    exact ((stagePlumbing_all_or_nothing { Config.default with accumulatorCapacity := 107 }
      unevenPieces .empty).1 (by decide)).2 hover
  · exact (stagePlumbing_all_or_nothing { Config.default with accumulatorCapacity := UInt32.size }
      unevenPieces .empty).2.1 (by decide)

end LatticeScene.Staging
