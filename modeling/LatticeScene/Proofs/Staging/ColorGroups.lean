import LatticeScene.Buffer
import LatticeScene.Staging.Lattice
import Mathlib.Data.List.Forall2
import Mathlib.Data.List.Induction
import Mathlib.Data.List.Nodup

/-!
# Entries by colour

`colorsOf` lists the colours of entries in the order in which they first appear, and `ofColor` the
entries of one colour in their order.  Groups that are `Grouped` have one group for each of these
colours, in this order, with the entries of its colour in it.  Changing the group of the colour of
one more entry keeps this (`Grouped.put`), whether the colour is new or not.

Every entry is in exactly one group (`perm_flatMap_ofColor`).
-/

namespace LatticeScene.Staging

/-! ### Colours and their entries -/

section Colors

variable {α : Type} (color : α → String)

/-- The colours of entries, in the order of first appearance. -/
def colorsOf (entries : List α) : List String := (entries.map color).eraseDups

/-- The entries of one colour, in order. -/
def ofColor (name : String) (entries : List α) : List α := entries.filter (color · == name)

variable {color}

/-- The colours of entries are those that some entry has. -/
theorem mem_colorsOf {name : String} {entries : List α} :
    name ∈ colorsOf color entries ↔ ∃ entry ∈ entries, color entry = name := by
  rw [colorsOf, List.mem_eraseDups, List.mem_map]

/-- A colour that does not appear has no entries. -/
theorem ofColor_eq_nil {name : String} {entries : List α} (h : name ∉ colorsOf color entries) :
    ofColor color name entries = [] := by
  refine List.filter_eq_nil_iff.mpr fun entry hentry => ?_
  rw [beq_iff_eq]
  exact fun hcolor => h (mem_colorsOf.mpr ⟨entry, hentry, hcolor⟩)

/-- An entry comes last among those of its own colour. -/
theorem ofColor_append_self (entries : List α) (entry : α) :
    ofColor color (color entry) (entries ++ [entry]) =
      ofColor color (color entry) entries ++ [entry] := by
  rw [ofColor, List.filter_append, List.filter_cons, if_pos (beq_self_eq_true _)]
  rfl

/-- An entry makes no difference to the entries of another colour. -/
theorem ofColor_append_of_ne {name : String} (entries : List α) {entry : α}
    (h : color entry ≠ name) :
    ofColor color name (entries ++ [entry]) = ofColor color name entries := by
  have hne : ¬(color entry == name) = true := by rwa [beq_iff_eq]
  rw [ofColor, List.filter_append, List.filter_cons, if_neg hne]
  exact List.append_nil _

/-- A colour is listed at its first appearance. -/
theorem colorsOf_append_singleton (entries : List α) (entry : α) :
    colorsOf color (entries ++ [entry]) =
      if color entry ∈ colorsOf color entries then colorsOf color entries
      else colorsOf color entries ++ [color entry] := by
  have happend : colorsOf color (entries ++ [entry]) =
      colorsOf color entries ++ ([color entry].removeAll (entries.map color)).eraseDups := by
    rw [colorsOf, List.map_append, List.eraseDups_append]
    rfl
  have hmem : color entry ∈ colorsOf color entries ↔ color entry ∈ entries.map color :=
    List.mem_eraseDups
  rw [happend]
  by_cases h : color entry ∈ entries.map color
  · have hremove : [color entry].removeAll (entries.map color) = [] := by
      rw [List.removeAll, List.filter_cons, if_neg (by simpa using h)]
      rfl
    rw [if_pos (hmem.mpr h), hremove]
    exact List.append_nil _
  · have hremove : [color entry].removeAll (entries.map color) = [color entry] := by
      rw [List.removeAll, List.filter_cons, if_pos (by simpa using h)]
      rfl
    rw [if_neg (mt hmem.mp h), hremove]
    rfl

/-- No colour is listed twice. -/
theorem nodup_colorsOf (entries : List α) : (colorsOf color entries).Nodup := by
  induction entries using List.reverseRecOn with
  | nil => exact List.nodup_nil
  | append_singleton entries entry ih =>
    rw [colorsOf_append_singleton]
    by_cases h : color entry ∈ colorsOf color entries
    · rwa [if_pos h]
    · rw [if_neg h]
      exact ih.append (List.nodup_singleton _) (List.disjoint_singleton.mpr h)

/-- Every entry is among those of exactly one colour. -/
theorem perm_flatMap_ofColor {names : List String} (hnodup : names.Nodup) {entries : List α}
    (h : ∀ entry ∈ entries, color entry ∈ names) :
    (names.flatMap fun name => ofColor color name entries).Perm entries := by
  induction names generalizing entries with
  | nil =>
    have hnone : entries = [] := by
      refine List.eq_nil_iff_forall_not_mem.mpr fun entry hentry => ?_
      exact absurd (h entry hentry) List.not_mem_nil
    rw [hnone]
    exact List.Perm.nil
  | cons name names ih =>
    rw [List.nodup_cons] at hnodup
    -- the other colours find the same entries among those that are not of this colour
    have hothers : (names.flatMap fun other => ofColor color other entries) =
        names.flatMap fun other =>
          ofColor color other (entries.filter fun entry => !(color entry == name)) := by
      refine List.flatMap_congr fun other hother => ?_
      rw [ofColor, ofColor, List.filter_filter]
      refine List.filter_congr fun entry _ => ?_
      by_cases hcolor : color entry = other
      · have hne : color entry ≠ name := by
          rintro rfl
          exact hnodup.1 (hcolor ▸ hother)
        rw [beq_false_of_ne hne, Bool.not_false, Bool.and_true]
      · rw [beq_false_of_ne hcolor, Bool.false_and]
    have hrest : ∀ entry ∈ entries.filter (fun entry => !(color entry == name)),
        color entry ∈ names := by
      intro entry hentry
      obtain ⟨hmem, hne⟩ := List.mem_filter.mp hentry
      exact (List.mem_cons.mp (h entry hmem)).resolve_left (by simpa using hne)
    rw [List.flatMap_cons, hothers]
    exact ((ih hnodup.2 hrest).append_left _).trans (List.filter_append_perm _ _)

/-- Numbers that belong to entries may be added up colour by colour. -/
theorem total_map_ofColor (count : α → Nat) (entries : List α) :
    total ((colorsOf color entries).map fun name =>
      total ((ofColor color name entries).map count)) = total (entries.map count) := by
  have hflatten : ∀ names : List String,
      total (names.map fun name => total ((ofColor color name entries).map count)) =
        total ((names.flatMap fun name => ofColor color name entries).map count) := by
    intro names
    induction names with
    | nil => rfl
    | cons name names ih =>
      rw [List.map_cons, total_cons, ih, List.flatMap_cons, List.map_append, total_append]
  rw [hflatten]
  refine total_eq_of_perm ((perm_flatMap_ofColor (nodup_colorsOf entries) ?_).map count)
  exact fun entry hentry => mem_colorsOf.mpr ⟨entry, hentry, rfl⟩

end Colors

/-! ### Groups -/

namespace ColorGroups

variable {α β ε : Type}

/-- What the group of a colour holds, if there is such a group. -/
def content? (name : String) : ColorGroups β → Option β
  | [] => none
  | group :: rest => if group.1 = name then some group.2 else content? name rest

/-- Set the group of a colour, which comes last if it is new. -/
def put (name : String) (content : β) : ColorGroups β → ColorGroups β
  | [] => [(name, content)]
  | group :: rest =>
    if group.1 = name then (name, content) :: rest else group :: put name content rest

/-- Changing a group is looking it up, changing what it holds and setting it again. -/
theorem change_eq (name : String) (f : Option β → Except ε β) (groups : ColorGroups β) :
    groups.change name f = (f (groups.content? name)).map fun content =>
      groups.put name content := by
  induction groups with
  | nil =>
    rw [change, content?]
    cases f none with
    | error e => rfl
    | ok content => rfl
  | cons group rest ih =>
    rw [change, content?]
    by_cases hname : group.1 = name
    · rw [if_pos hname, if_pos hname]
      simp only [put, if_pos hname]
      cases f (some group.2) with
      | error e => rfl
      | ok content => rfl
    · rw [if_neg hname, if_neg hname, ih]
      simp only [put, if_neg hname]
      cases f (content? name rest) with
      | error e => rfl
      | ok content => rfl

section Aligned

variable {P Q : String → β → Prop} {names : List String} {groups : ColorGroups β}

/-- A list of colours has the groups that it is aligned with. -/
theorem content?_of_forall₂ (name : String)
    (h : List.Forall₂ (fun name group => group.1 = name ∧ P name group.2) names groups) :
    (groups.content? name = none ∧ name ∉ names) ∨
      ∃ content, groups.content? name = some content ∧ P name content := by
  induction h with
  | nil => exact Or.inl ⟨rfl, List.not_mem_nil⟩
  | @cons first group names groups hfirst hrest ih =>
    obtain ⟨rfl, hgroup⟩ := hfirst
    rw [content?]
    by_cases hname : group.1 = name
    · rw [if_pos hname]
      exact Or.inr ⟨group.2, rfl, hname ▸ hgroup⟩
    · rw [if_neg hname]
      rcases ih with ⟨hnone, hmem⟩ | hsome
      · refine Or.inl ⟨hnone, ?_⟩
        rw [List.mem_cons, not_or]
        exact ⟨Ne.symm hname, hmem⟩
      · exact Or.inr hsome

/-- Setting one group turns a property of all groups into another one, if the new content has it and
the other groups take it over. -/
theorem forall₂_put {name : String} (hnodup : names.Nodup)
    (h : List.Forall₂ (fun name group => group.1 = name ∧ P name group.2) names groups)
    {content : β} (hself : Q name content)
    (hother : ∀ other, other ≠ name → ∀ content, P other content → Q other content) :
    List.Forall₂ (fun name group => group.1 = name ∧ Q name group.2)
      (if name ∈ names then names else names ++ [name]) (groups.put name content) := by
  induction h with
  | nil =>
    rw [if_neg List.not_mem_nil]
    exact .cons ⟨rfl, hself⟩ .nil
  | @cons first group names groups hfirst hrest ih =>
    obtain ⟨rfl, hgroup⟩ := hfirst
    rw [List.nodup_cons] at hnodup
    rw [put]
    by_cases hname : group.1 = name
    · subst hname
      rw [if_pos rfl, if_pos List.mem_cons_self]
      -- no other group has this name, so that the others only take the property over
      have hne : ∀ other ∈ names, other ≠ group.1 := by
        rintro other hother rfl
        exact hnodup.1 hother
      refine .cons ⟨rfl, hself⟩ (((List.forall₂_and_left _ _).mpr ⟨hne, hrest⟩).imp ?_)
      rintro other next ⟨hdiffers, hnext, hcontent⟩
      exact ⟨hnext, hother other hdiffers _ hcontent⟩
    · have hmem : name ∈ group.1 :: names ↔ name ∈ names := by
        rw [List.mem_cons]
        exact or_iff_right (Ne.symm hname)
      have hput := List.Forall₂.cons (R := fun name group => group.1 = name ∧ Q name group.2)
        (a := group.1) (b := group) ⟨rfl, hother _ hname _ hgroup⟩ (ih hnodup.2)
      rw [if_neg hname]
      by_cases hin : name ∈ names
      · rw [if_pos hin] at hput
        rwa [if_pos (hmem.mpr hin)]
      · rw [if_neg hin] at hput
        rwa [if_neg (mt hmem.mp hin)]

end Aligned

/-- The groups of entries: one for each of their colours, in the order of first appearance, with the
entries of that colour in it. -/
def Grouped (color : α → String) (Holds : β → List α → Prop) (entries : List α)
    (groups : ColorGroups β) : Prop :=
  List.Forall₂ (fun name group => group.1 = name ∧ Holds group.2 (ofColor color name entries))
    (colorsOf color entries) groups

section Grouped

variable {color : α → String} {Holds : β → List α → Prop} {entries : List α}
  {groups : ColorGroups β}

/-- Without entries there are no groups. -/
theorem grouped_nil : Grouped color Holds [] ([] : ColorGroups β) := List.Forall₂.nil

/-- There is no group of a colour only if there is no entry of that colour. -/
theorem Grouped.content?_cases (h : Grouped color Holds entries groups) (name : String) :
    (groups.content? name = none ∧ ofColor color name entries = []) ∨
      ∃ content, groups.content? name = some content ∧
        Holds content (ofColor color name entries) := by
  rcases content?_of_forall₂ (P := fun name content => Holds content (ofColor color name entries))
    name h with ⟨hnone, hmem⟩ | hsome
  · exact Or.inl ⟨hnone, ofColor_eq_nil hmem⟩
  · exact Or.inr hsome

/-- Every group has the entries of a colour. -/
theorem Grouped.exists_of_mem (h : Grouped color Holds entries groups) {group : String × β}
    (hgroup : group ∈ groups) : ∃ name, Holds group.2 (ofColor color name entries) := by
  unfold Grouped at h
  generalize colorsOf color entries = names at h
  induction h with
  | nil => exact absurd hgroup List.not_mem_nil
  | @cons name first names rest hfirst _ ih =>
    rcases List.mem_cons.mp hgroup with rfl | hrest
    · exact ⟨name, hfirst.2⟩
    · exact ih hrest

/-- One more entry changes the group of its colour. -/
theorem Grouped.put (h : Grouped color Holds entries groups) (entry : α) {content : β}
    (hcontent : Holds content (ofColor color (color entry) entries ++ [entry])) :
    Grouped color Holds (entries ++ [entry]) (groups.put (color entry) content) := by
  rw [Grouped, colorsOf_append_singleton]
  refine forall₂_put (P := fun name content => Holds content (ofColor color name entries))
    (Q := fun name content => Holds content (ofColor color name (entries ++ [entry])))
    (nodup_colorsOf entries) h ?_ ?_
  · rwa [ofColor_append_self]
  · intro other hother content hholds
    rwa [ofColor_append_of_ne entries (Ne.symm hother)]

end Grouped

end ColorGroups

end LatticeScene.Staging
