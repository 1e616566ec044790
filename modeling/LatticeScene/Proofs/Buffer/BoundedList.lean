import LatticeScene.Buffer

/-!
# Buffers are bounded lists

A `BoundedList` is a list and the number of elements for which there is room.  What is done to a
buffer can be done to a bounded list, where nothing is stored behind the elements, and a buffer
answers as the list does (`act_view`).  From one action this passes to a series of them
(`series_map`).

The cells of a buffer are those that have been written.  `storage` is all of them, in number as many
as the buffer has places.  An append writes the cells behind the live ones and leaves the others
alone (`storage_appendFitting`), and only handing the elements out gives cells up.
-/

namespace LatticeScene

variable {α : Type}

/-- What is done to a buffer. -/
inductive BufferAction (α : Type) where
  /-- Append one element. -/
  | push (x : α)
  /-- Append several elements. -/
  | append (xs : List α)
  /-- Ask whether so many elements fit. -/
  | check (count : Nat)
  /-- Forget the elements. -/
  | clear
  /-- Hand the elements out. -/
  | take
deriving DecidableEq

/-- The elements that an action asks to append. -/
def BufferAction.elements : BufferAction α → List α
  | .push x => [x]
  | .append xs => xs
  | .check _ => []
  | .clear => []
  | .take => []

/-- What an action is answered. -/
inductive BufferAnswer (α : Type) where
  | accepted
  | refused (e : BufferFull)
  | handedOut (xs : List α)
deriving DecidableEq

/-- The answer that reports an error, if there is one. -/
def BufferAnswer.ofError? : Option BufferFull → BufferAnswer α
  | none => accepted
  | some e => refused e

/-! ### Series of actions -/

section Series

variable {σ τ ι ω : Type}

/-- The answers to a series of actions, and the state after the last of them. -/
def series (act : σ → ι → ω × σ) (s : σ) : List ι → List ω × σ
  | [] => ([], s)
  | action :: actions =>
    let rest := series act (act s action).2 actions
    ((act s action).1 :: rest.1, rest.2)

/-- A view that follows every single action follows a series of them. -/
theorem series_map {act : σ → ι → ω × σ} {act' : τ → ι → ω × τ} {view : σ → τ}
    (h : ∀ s action, act' (view s) action = ((act s action).1, view (act s action).2))
    (s : σ) (actions : List ι) :
    series act' (view s) actions = ((series act s actions).1, view (series act s actions).2) := by
  induction actions generalizing s with
  | nil => rfl
  | cons action actions ih => simp only [series, h, ih]

/-- A series of actions is taken one part after the other. -/
theorem series_append (act : σ → ι → ω × σ) (s : σ) (before after : List ι) :
    (series act s (before ++ after)).2 = (series act (series act s before).2 after).2 := by
  induction before generalizing s with
  | nil => rfl
  | cons action before ih => exact ih (act s action).2

end Series

/-! ### Bounded lists -/

/-- A list, and the most elements that it may have. -/
structure BoundedList (α : Type) where
  capacity : Nat
  held : List α
deriving DecidableEq

namespace BoundedList

/-- Whether so many more elements fit, as an answer. -/
def answer (l : BoundedList α) (count : Nat) : BufferAnswer α :=
  if l.held.length + count ≤ l.capacity then .accepted
  else .refused ⟨count, l.capacity - l.held.length, l.capacity⟩

/-- Append elements if all of them fit. -/
def append (l : BoundedList α) (xs : List α) : BoundedList α :=
  if l.held.length + xs.length ≤ l.capacity then { l with held := l.held ++ xs } else l

/-- The answer to an action, and the list after it. -/
def act (l : BoundedList α) : BufferAction α → BufferAnswer α × BoundedList α
  | .push x => (l.answer 1, l.append [x])
  | .append xs => (l.answer xs.length, l.append xs)
  | .check count => (l.answer count, l)
  | .clear => (.accepted, { l with held := [] })
  | .take => (.handedOut l.held, ⟨0, []⟩)

/-- Appending leaves the capacity of a bounded list alone. -/
theorem capacity_append (l : BoundedList α) (xs : List α) :
    (l.append xs).capacity = l.capacity := by
  unfold append
  split <;> rfl

/-- Nothing but handing the elements out takes places away. -/
theorem capacity_act {action : BufferAction α} (h : action ≠ .take) (l : BoundedList α) :
    (l.act action).2.capacity = l.capacity := by
  cases action with
  | push x => exact l.capacity_append [x]
  | append xs => exact l.capacity_append xs
  | check count => rfl
  | clear => rfl
  | take => exact absurd rfl h

/-- Without a hand-over, a series of actions leaves the capacity of a bounded list alone. -/
theorem capacity_series {actions : List (BufferAction α)} (h : .take ∉ actions)
    (l : BoundedList α) : (series act l actions).2.capacity = l.capacity := by
  induction actions generalizing l with
  | nil => rfl
  | cons action actions ih =>
    rw [List.mem_cons, not_or] at h
    exact (ih h.2 _).trans (capacity_act (Ne.symm h.1) l)

/-- No places ever come back. -/
theorem capacity_series_of_capacity_eq_zero {l : BoundedList α} (h : l.capacity = 0)
    (actions : List (BufferAction α)) : (series act l actions).2.capacity = 0 := by
  induction actions generalizing l with
  | nil => exact h
  | cons action actions ih =>
    refine ih ?_
    by_cases htake : action = .take
    · rw [htake]
      rfl
    · exact (capacity_act htake l).trans h

/-- What a list holds after appending was held before or was appended. -/
theorem mem_held_append {l : BoundedList α} {xs : List α} {x : α} (h : x ∈ (l.append xs).held) :
    x ∈ l.held ∨ x ∈ xs := by
  unfold append at h
  split at h
  · exact List.mem_append.mp h
  · exact Or.inl h

/-- What a list holds after an action was held before or came with the action. -/
theorem mem_held_act {l : BoundedList α} {action : BufferAction α} {x : α}
    (h : x ∈ (l.act action).2.held) : x ∈ l.held ∨ x ∈ action.elements := by
  cases action with
  | push y => exact mem_held_append h
  | append xs => exact mem_held_append h
  | check count => exact Or.inl h
  | clear => exact absurd h List.not_mem_nil
  | take => exact absurd h List.not_mem_nil

/-- Every element has been there before, or one of the actions brought it. -/
theorem mem_held_series {l : BoundedList α} {actions : List (BufferAction α)} {x : α}
    (h : x ∈ (series act l actions).2.held) :
    x ∈ l.held ∨ ∃ action ∈ actions, x ∈ action.elements := by
  induction actions generalizing l with
  | nil => exact Or.inl h
  | cons action actions ih =>
    rcases ih h with hheld | ⟨later, hlater, hx⟩
    · rcases mem_held_act hheld with hbefore | hx
      · exact Or.inl hbefore
      · exact Or.inr ⟨action, List.mem_cons_self, hx⟩
    · exact Or.inr ⟨later, List.mem_cons_of_mem action hlater, hx⟩

end BoundedList

namespace BoundedBuffer

/-! ### Buffers seen as bounded lists -/

/-- The answer to an action, and the buffer after it. -/
def act (b : BoundedBuffer α) : BufferAction α → BufferAnswer α × BoundedBuffer α
  | .push x => (.ofError? (b.push x).error?, (b.push x).state)
  | .append xs => (.ofError? (b.append xs).error?, (b.append xs).state)
  | .check count =>
    (match b.checkFits count with
      | .ok _ => .accepted
      | .error e => .refused e, b)
  | .clear => (.accepted, b.clear)
  | .take => (.handedOut b.take.1.toList, b.take.2)

/-- What a buffer shows. -/
def view (b : BoundedBuffer α) : BoundedList α := ⟨b.capacity, b.toList⟩

section View

variable {b : BoundedBuffer α}

/-- The places that are not taken are those that remain. -/
theorem size_add_remaining (b : BoundedBuffer α) : b.size + b.remaining = b.capacity := by
  have hle := b.size_le_capacity
  rw [remaining]
  omega

/-- A buffer seen as a bounded list holds as many elements as the buffer. -/
theorem length_view (b : BoundedBuffer α) : b.view.held.length = b.size := b.length_toList

/-- A bounded list has room for what its buffer has room for. -/
theorem view_fits_iff {count : Nat} :
    b.view.held.length + count ≤ b.view.capacity ↔ count ≤ b.remaining := by
  have hroom := b.size_add_remaining
  have hcapacity : b.view.capacity = b.capacity := rfl
  rw [length_view]
  omega

/-- An append is refused exactly if its elements do not all fit. -/
theorem append_cases (b : BoundedBuffer α) (xs : List α) :
    (∃ h : xs.length ≤ b.remaining, b.append xs = .done (b.appendFitting xs h)) ∨
      (b.remaining < xs.length ∧
        b.append xs = .stopped ⟨xs.length, b.remaining, b.capacity⟩ b) := by
  by_cases h : xs.length ≤ b.remaining
  · exact Or.inl ⟨h, dif_pos h⟩
  · exact Or.inr ⟨Nat.lt_of_not_le h, dif_neg h⟩

/-- A bounded list accepts what its buffer accepts, and otherwise it names the same room. -/
theorem answer_view (b : BoundedBuffer α) (count : Nat) :
    b.view.answer count =
      if count ≤ b.remaining then .accepted else .refused ⟨count, b.remaining, b.capacity⟩ := by
  simp only [BoundedList.answer, view_fits_iff]
  rw [length_view]
  rfl

/-- Appending to a buffer does to its view what appending to a bounded list does, with the same
answer. -/
theorem view_append (b : BoundedBuffer α) (xs : List α) :
    b.view.append xs = (b.append xs).state.view ∧
      b.view.answer xs.length = .ofError? (b.append xs).error? := by
  simp only [answer_view, BoundedList.append, view_fits_iff]
  rcases b.append_cases xs with ⟨hfits, happend⟩ | ⟨hlt, happend⟩
  · rw [happend, if_pos hfits, if_pos hfits, Attempt.state_done, view, view, toList_appendFitting]
    exact ⟨rfl, rfl⟩
  · have hnofit : ¬xs.length ≤ b.remaining := Nat.not_le_of_lt hlt
    rw [happend, if_neg hnofit, if_neg hnofit]
    exact ⟨rfl, rfl⟩

/-- A buffer answers as its list does, and shows the list afterwards. -/
theorem act_view (b : BoundedBuffer α) (action : BufferAction α) :
    b.view.act action = ((b.act action).1, (b.act action).2.view) := by
  cases action with
  | push x =>
    obtain ⟨hstate, hanswer⟩ := b.view_append [x]
    exact Prod.ext hanswer hstate
  | append xs =>
    obtain ⟨hstate, hanswer⟩ := b.view_append xs
    exact Prod.ext hanswer hstate
  | check count =>
    refine Prod.ext ?_ rfl
    rw [BoundedList.act, answer_view, act, checkFits]
    by_cases h : count ≤ b.remaining
    · rw [if_pos h, if_pos h]
    · rw [if_neg h, if_neg h]
  | clear => rfl
  | take => exact Prod.ext (congrArg BufferAnswer.handedOut b.toList_toArray.symm) rfl

end View

/-! ### The whole storage -/

/-- All cells of a buffer, of which those that have never been written are blank. -/
def storage (blank : α) (b : BoundedBuffer α) : List α :=
  b.cells.toList ++ List.replicate (b.capacity - b.cells.size) blank

/-- The storage of a buffer has a cell for each element it can hold. -/
theorem length_storage (blank : α) (b : BoundedBuffer α) :
    (b.storage blank).length = b.capacity := by
  have hle := b.cells_le_capacity
  rw [storage, List.length_append, List.length_replicate, Array.length_toList]
  omega

/-- The live elements stand in front. -/
theorem take_storage (blank : α) (b : BoundedBuffer α) :
    (b.storage blank).take b.size = b.toList :=
  List.take_append_of_le_length (by rw [Array.length_toList]; exact b.size_le_cells)

/-- Cells behind those that are written stay. -/
theorem drop_writeCells (cells : Array α) (i : Nat) (xs : List α) (h : i ≤ cells.size) :
    (writeCells cells i xs).toList.drop (i + xs.length) = cells.toList.drop (i + xs.length) := by
  induction xs generalizing cells i with
  | nil => rfl
  | cons x xs ih =>
    have hlen : i + (x :: xs).length = i + 1 + xs.length := by rw [List.length_cons]; omega
    unfold writeCells
    split
    · next hi =>
      rw [hlen, ih _ _ (by rw [Array.size_set]; omega), Array.toList_set]
      exact List.drop_set_of_lt (by omega)
    -- past the end nothing is left to drop
    · next hi =>
      have hall : cells.size + 1 ≤ i + 1 + xs.length := by omega
      rw [hlen, ih _ _ (by rw [Array.size_push]; omega), List.drop_eq_nil_of_le,
        List.drop_eq_nil_of_le]
      · rw [Array.length_toList]
        omega
      · rw [Array.length_toList, Array.size_push]
        exact hall

/-- An append writes the cells behind the live ones, and no others. -/
theorem storage_appendFitting (blank : α) (b : BoundedBuffer α) {xs : List α}
    (h : xs.length ≤ b.remaining) :
    (b.appendFitting xs h).storage blank =
      (b.storage blank).take b.size ++ xs ++ (b.storage blank).drop (b.size + xs.length) := by
  have hcells := b.size_le_cells
  have hsize : (writeCells b.cells b.size xs).size = max b.cells.size (b.size + xs.length) :=
    size_writeCells _ _ _ hcells
  have hlive : ((b.appendFitting xs h).storage blank).take (b.size + xs.length) =
      (b.storage blank).take b.size ++ xs := by
    rw [take_storage blank b, ← toList_appendFitting b xs h]
    exact take_storage blank (b.appendFitting xs h)
  have hrest : ((b.appendFitting xs h).storage blank).drop (b.size + xs.length) =
      (b.storage blank).drop (b.size + xs.length) := by
    have hblank : b.capacity - (writeCells b.cells b.size xs).size -
          (b.size + xs.length - (writeCells b.cells b.size xs).size) =
        b.capacity - b.cells.size - (b.size + xs.length - b.cells.size) := by omega
    simp only [storage, appendFitting, List.drop_append, drop_writeCells _ _ _ hcells,
      List.drop_replicate, Array.length_toList, hblank]
  rw [← hlive, ← hrest, List.take_append_drop]

/-! ### Series of actions on a buffer -/

/-- Everything that can be seen of a buffer is what the list says. -/
structure Shows (b : BoundedBuffer α) (l : BoundedList α) : Prop where
  capacity_eq : b.capacity = l.capacity
  toArray_eq : b.toArray.toList = l.held
  size_eq : b.size = l.held.length
  isEmpty_iff : b.isEmpty = true ↔ l.held = []
  remaining_eq : b.remaining = l.capacity - l.held.length
  /-- The live elements are no more than there are places, so that nothing is cut off when their
  number is taken away from that of the places. -/
  length_add_remaining : l.held.length + b.remaining = l.capacity
  length_storage : ∀ blank, (b.storage blank).length = l.capacity
  take_storage : ∀ blank, (b.storage blank).take b.size = l.held

/-- A buffer shows what its view shows. -/
theorem shows_view (b : BoundedBuffer α) : b.Shows b.view where
  capacity_eq := rfl
  toArray_eq := b.toList_toArray
  size_eq := b.length_toList.symm
  isEmpty_iff := by
    rw [isEmpty, beq_iff_eq, ← length_toList, List.length_eq_zero_iff]
    rfl
  remaining_eq := by
    rw [length_view]
    rfl
  length_add_remaining := by
    rw [length_view]
    exact b.size_add_remaining
  length_storage blank := b.length_storage blank
  take_storage blank := b.take_storage blank

/-- An append takes all of its elements or none of them. -/
structure AppendsWhole (b : BoundedBuffer α) (xs : List α) : Prop where
  error?_eq_none_iff : (b.append xs).error? = none ↔ b.size + xs.length ≤ b.capacity
  /-- Elements that fit are written behind the live ones, where there are cells for all of them. -/
  storage_eq : ∀ blank, (b.append xs).error? = none →
    (b.append xs).state.storage blank =
      (b.storage blank).take b.size ++ xs ++ (b.storage blank).drop (b.size + xs.length)
  /-- Elements that do not fit change nothing. -/
  eq_stopped : ∀ e, (b.append xs).error? = some e →
    b.append xs = .stopped ⟨xs.length, b.remaining, b.capacity⟩ b

/-- A buffer takes all the elements of an append, or none of them and stays as it was. -/
theorem appendsWhole (b : BoundedBuffer α) (xs : List α) : b.AppendsWhole xs := by
  have hplaces := b.size_add_remaining
  rcases b.append_cases xs with ⟨hfits, happend⟩ | ⟨hlt, happend⟩
  · constructor
    · rw [happend]
      exact iff_of_true rfl (by omega)
    · intro blank _
      rw [happend]
      exact b.storage_appendFitting blank hfits
    · intro e he
      rw [happend] at he
      cases he
  · constructor
    · rw [happend]
      exact iff_of_false (Option.some_ne_none _) (by omega)
    · intro blank hnone
      rw [happend] at hnone
      cases hnone
    · exact fun _ _ => happend

/-- After any series of actions, a buffer has answered as a list with the same room would have, and
shows that list.  Elements are appended all or none, and in place; those that were there before the
buffer was cleared do not come back.  The places are as many as at first, until the elements are
handed out and none is left. -/
theorem series_refines_bounded_list (capacity : Nat) (actions : List (BufferAction α)) :
    let buffer := series act (ofCapacity capacity) actions
    let list := series BoundedList.act ⟨capacity, []⟩ actions
    buffer.1 = list.1 ∧
    buffer.2.Shows list.2 ∧
    (∀ xs, buffer.2.AppendsWhole xs) ∧
    (∀ before after, actions = before ++ .clear :: after →
      ∀ x ∈ buffer.2.toArray, ∃ action ∈ after, x ∈ action.elements) ∧
    (∀ blank, .take ∉ actions → (buffer.2.storage blank).length = capacity) ∧
    (∀ blank, .take ∈ actions → (buffer.2.storage blank).length = 0) := by
  intro buffer list
  have hlist : list = (buffer.1, buffer.2.view) :=
    series_map act_view (ofCapacity capacity) actions
  have hview : buffer.2.view = list.2 := by rw [hlist]
  have hshows : buffer.2.Shows list.2 := hview ▸ buffer.2.shows_view
  refine ⟨by rw [hlist], hshows, buffer.2.appendsWhole, ?_, fun blank hkept => ?_,
    fun blank htaken => ?_⟩
  · rintro before after hsplit x hx
    rw [← Array.mem_toList_iff, hshows.toArray_eq] at hx
    -- a list that is cleared holds nothing, whatever came before
    have hheld : list.2 =
        (series BoundedList.act ⟨(series BoundedList.act ⟨capacity, []⟩ before).2.capacity, []⟩
          after).2 := by
      show (series BoundedList.act _ actions).2 = _
      rw [hsplit, series_append]
      rfl
    rw [hheld] at hx
    exact (BoundedList.mem_held_series hx).resolve_left List.not_mem_nil
  · rw [hshows.length_storage]
    exact BoundedList.capacity_series hkept _
  · obtain ⟨before, after, hsplit⟩ := List.append_of_mem htaken
    rw [hshows.length_storage]
    show (series BoundedList.act _ actions).2.capacity = 0
    rw [hsplit, series_append]
    exact BoundedList.capacity_series_of_capacity_eq_zero rfl after

/-- Three elements, two more for which there is no room, a new start with one element, and questions
for as many places as are left and for one more. -/
def reuse : List (BufferAction Nat) :=
  [.append [1, 2, 3], .append [4, 5], .clear, .push 9, .check 3, .check 4]

/-- Of a buffer that is used again only the new element is seen, although two old ones are still
stored behind it.  When it has been handed out there is no place left. -/
theorem series_refines_bounded_list_reuse :
    let buffer := series act (ofCapacity 4) reuse
    buffer.1 = [.accepted, .refused ⟨2, 1, 4⟩, .accepted, .accepted, .accepted,
      .refused ⟨4, 3, 4⟩] ∧
    buffer.2.Shows ⟨4, [9]⟩ ∧
    (∀ x ∈ buffer.2.toArray, ∃ action ∈ reuse.drop 3, x ∈ action.elements) ∧
    buffer.2.storage 0 = [9, 2, 3, 0] ∧
    (buffer.2.storage 0).length = 4 ∧
    ((series act (ofCapacity 4) (reuse ++ [.take])).2.storage 0).length = 0 := by
  intro buffer
  obtain ⟨hanswers, hshows, -, hcleared, hkept, -⟩ := series_refines_bounded_list 4 reuse
  obtain ⟨-, -, -, -, -, htaken⟩ := series_refines_bounded_list 4 (reuse ++ [.take])
  exact ⟨hanswers, hshows, hcleared (reuse.take 2) (reuse.drop 3) rfl, by decide,
    hkept 0 (by decide), htaken 0 (by decide)⟩

end BoundedBuffer

end LatticeScene
