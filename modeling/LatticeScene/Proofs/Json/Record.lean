import LatticeScene.Json.Record
import Mathlib.Data.List.Forall2
import Mathlib.Data.List.Perm.Basic

/-!
# Records read back

Integers, strings and lists are read back from the trees that spell them, integers as long as they
have 64 bits.

The members of an object hold a record in more than one way: `HasFields fields optional members`
says that they are the given fields, whatever their order and the spelling of their names, that
there may be others under other names, and that optional fields may be missing.
`HasFields.fields?` says that reading the record gives the value of every field, or nothing for an
optional one.
-/

namespace LatticeScene.Json

/-! ### Lists -/

section Lists

variable {α β : Type}

/-- Reading a list succeeds when each of its elements can be read, and gives what they are read as.
-/
theorem mapM_eq_some_iff {f : α → Option β} {xs : List α} {ys : List β} :
    xs.mapM f = some ys ↔ List.Forall₂ (fun x y => f x = some y) xs ys := by
  induction xs generalizing ys with
  | nil => simp [eq_comm]
  | cons x xs ih =>
    rw [List.mapM_cons, List.forall₂_cons_left_iff]
    simp only [Option.bind_eq_bind, Option.bind_eq_some_iff, Option.pure_def, Option.some.injEq, ih]
    constructor
    · rintro ⟨y, hy, ys', hys, rfl⟩
      exact ⟨y, ys', hy, hys, rfl⟩
    · rintro ⟨y, ys', hy, hys, rfl⟩
      exact ⟨y, hy, ys', hys, rfl⟩

/-- What gives a result for every element gives them all. -/
theorem exists_mapM {f : α → Option β} {r : α → β → Prop} {xs : List α}
    (h : ∀ x ∈ xs, ∃ y, f x = some y ∧ r x y) :
    ∃ ys, xs.mapM f = some ys ∧ List.Forall₂ r xs ys := by
  induction xs with
  | nil => exact ⟨[], rfl, .nil⟩
  | cons x xs ih =>
    obtain ⟨⟨y, hy, hr⟩, hrest⟩ := List.forall_mem_cons.mp h
    obtain ⟨ys, hys, hrs⟩ := ih hrest
    exact ⟨y :: ys, by simp [hy, hys], .cons hr hrs⟩

/-- A list is read back if each of its elements is. -/
theorem Tree.list?_ofList {read : Tree → Option α} {write : α → Tree} {xs : List α}
    (h : ∀ x ∈ xs, read (write x) = some x) : Tree.list? read (.ofList write xs) = some xs := by
  rw [Tree.ofList, Tree.list?, mapM_eq_some_iff, List.forall₂_map_left_iff]
  exact List.forall₂_same.mpr h

/-- Every element of a list that has been read has been read itself. -/
theorem Tree.exists_of_mem_list? {read : Tree → Option α} {tree : Tree} {xs : List α}
    (h : Tree.list? read tree = some xs) {x : α} (hx : x ∈ xs) : ∃ item, read item = some x := by
  cases tree with
  | array items =>
    have hitems := mapM_eq_some_iff.mp h
    clear h
    induction hitems with
    | nil => cases hx
    | cons hitem _ ih =>
      rcases List.mem_cons.mp hx with rfl | hx
      · exact ⟨_, hitem⟩
      · exact ih hx
  | null | bool _ | number _ | string _ | object _ => cases h

/-- A list is read back, also when it is empty and not written. -/
theorem Tree.orDefault?_list? {read : Tree → Option α} {write : α → Tree} {xs : List α}
    (hread : ∀ x ∈ xs, read (write x) = some x) {value : Option Tree}
    (h : value = some (.ofList write xs) ∨ value = none ∧ Tree.ofList write xs = .array []) :
    Tree.orDefault? [] (Tree.list? read) value = some xs := by
  rcases h with rfl | ⟨rfl, hempty⟩
  · exact Tree.list?_ofList hread
  · rw [List.map_eq_nil_iff.mp (Tree.array.inj hempty)]
    rfl

/-- Every element of a list that has been read, or is missing and empty, has been read itself. -/
theorem Tree.exists_of_mem_orDefault? {read : Tree → Option α} {value : Option Tree} {xs : List α}
    (h : Tree.orDefault? [] (Tree.list? read) value = some xs) {x : α} (hx : x ∈ xs) :
    ∃ item, read item = some x := by
  cases value with
  | none =>
    cases h
    cases hx
  | some tree => exact Tree.exists_of_mem_list? h hx

end Lists

/-! ### Integers -/

section Integers

/-- An integer is read back from its number. -/
theorem Number.int?_ofInt (i : Int) : (Number.ofInt i).int? = some i := by
  have hmagnitude : (Number.ofInt i).magnitude = i.natAbs := Nat.ofDigitChars_ten_toDigits
  have hliteral : (Number.ofInt i).isLiteral = true := rfl
  rw [Number.int?, if_pos hliteral, hmagnitude]
  by_cases hi : i < 0
  · have hne : i.natAbs ≠ 0 := by omega
    have hvalue : -(i.natAbs : Int) = i := by omega
    have hnegative : (Number.ofInt i).negative = true := decide_eq_true hi
    rw [if_pos hnegative, if_neg hne, hvalue]
  · have hvalue : (i.natAbs : Int) = i := by omega
    have hnegative : (Number.ofInt i).negative = false := decide_eq_false hi
    rw [if_neg (ne_true_of_eq_false hnegative), hvalue]

/-- A natural number is read back from its number. -/
theorem Number.int?_ofNat (k : Nat) : (Number.ofNat k).int? = some (k : Int) :=
  Number.int?_ofInt k

/-- An integer of 64 bits with a sign is read back from its tree. -/
theorem Tree.int64?_ofInt {i : Int} (hmin : Int64.minValue.toInt ≤ i)
    (hmax : i ≤ Int64.maxValue.toInt) : (Tree.ofInt i).int64? = some i := by
  rw [Tree.ofInt, Tree.int64?, Number.int64?, Number.int?_ofInt]
  exact if_pos ⟨hmin, hmax⟩

/-- A natural number of 64 bits is read back from its tree. -/
theorem Tree.nat64?_ofNat {k : Nat} (h : k < UInt64.size) : (Tree.ofNat k).nat64? = some k := by
  rw [Tree.ofNat, Tree.nat64?, Tree.natUpTo?, Number.natUpTo?, Number.int?_ofNat]
  exact if_pos (Nat.le_sub_one_of_lt h)

/-- What is read as an integer of 64 bits with a sign is in their range. -/
theorem Tree.bounds_of_int64? {tree : Tree} {i : Int} (h : tree.int64? = some i) :
    Int64.minValue.toInt ≤ i ∧ i ≤ Int64.maxValue.toInt := by
  cases tree with
  | number n =>
    simp only [Tree.int64?, Number.int64?] at h
    split at h
    · split at h
      · next hrange =>
        cases h
        exact hrange
      · cases h
    · cases h
  | null | bool _ | string _ | array _ | object _ => cases h

/-- What is read as a natural number of 64 bits is in their range. -/
theorem Tree.lt_of_nat64? {tree : Tree} {k : Nat} (h : tree.nat64? = some k) : k < UInt64.size := by
  cases tree with
  | number n =>
    simp only [Tree.nat64?, Tree.natUpTo?, Number.natUpTo?] at h
    split at h
    · split at h
      · next hrange =>
        cases h
        exact Nat.lt_of_le_sub_one (by decide) hrange
      · cases h
    · cases h
  | null | bool _ | string _ | array _ | object _ => cases h

end Integers

/-! ### Strings -/

section Strings

/-- The spelling of a character stands for it, whatever comes before it and after it. -/
theorem Quoted.charsFrom?_unitOf (before : List Char) (c : Char) (rest : Quoted) :
    charsFrom? before (unitOf c :: rest) = charsFrom? (c :: before) rest := by
  rw [unitOf]
  split
  · rfl
  · split
    · rfl
    · split
      · next hcontrol =>
        have hsmall : c.toNat < ' '.toNat := hcontrol
        have hlow : isLowSurrogate c.toNat = false := by
          simp [isLowSurrogate] at *
          omega
        have hhigh : isHighSurrogate c.toNat = false := by
          simp [isHighSurrogate] at *
          omega
        rw [charsFrom?.eq_def]
        simp [hlow, hhigh]
      · rfl

/-- A string is read back. -/
theorem Quoted.toString?_ofString (s : String) : (ofString s).toString? = some s := by
  have h : ∀ cs before, charsFrom? before (cs.map unitOf) = some (before.reverse ++ cs) := by
    intro cs
    induction cs with
    | nil => simp [charsFrom?]
    | cons c cs ih =>
      intro before
      rw [List.map_cons, charsFrom?_unitOf, ih, List.reverse_cons, List.append_assoc,
        List.singleton_append]
  rw [toString?, chars?, ofString, h]
  exact congrArg some (String.ofList_toList)

end Strings

/-! ### Fields -/

namespace Tree

/-- The names that the keys of members stand for, with their values. -/
def Named (members : List (Quoted × Tree)) (named : List (String × Tree)) : Prop :=
  List.Forall₂ (fun member field => member.1.toString? = some field.1 ∧ member.2 = field.2)
    members named

/-- The members of an object are the given fields in any order, among others under other names.
Optional fields may be missing. -/
def HasFields (fields : List (String × Tree)) (optional : String × Tree → Prop)
    (members : List (Quoted × Tree)) : Prop :=
  ∃ named present others, Named members named ∧ named.Perm (present ++ others) ∧
    present.Sublist fields ∧ (∀ field ∈ fields, field ∉ present → optional field) ∧
    ∀ other ∈ others, other.1 ∉ fields.map Prod.fst

section Fields

variable {fields present others named : List (String × Tree)} {optional : String × Tree → Prop}
  {members : List (Quoted × Tree)}

/-- The fields of an object are found by the names that its keys stand for. -/
theorem fields?_object (h : Named members named) (names : List Names) :
    fields? names (.object members) = names.mapM (field? named) := by
  have hnamed : members.mapM (fun member => return (← member.1.toString?, member.2)) = some named :=
    mapM_eq_some_iff.mpr (h.imp fun member field hfield => by simp [hfield.1, hfield.2])
  rw [fields?, hnamed]
  rfl

/-- A name that no field has is found nowhere. -/
theorem filter_name_eq_nil {name : String} (h : name ∉ fields.map Prod.fst) :
    fields.filter (fun f => f.1 == name) = [] := by
  refine List.filter_eq_nil_iff.mpr fun f hf => ?_
  rw [beq_iff_eq]
  rintro rfl
  exact h (List.mem_map_of_mem hf)

/-- Among fields of different names, a name picks one. -/
theorem filter_name_eq_singleton (hnodup : (fields.map Prod.fst).Nodup) {field : String × Tree}
    (hfield : field ∈ fields) : fields.filter (fun f => f.1 == field.1) = [field] := by
  induction fields with
  | nil => cases hfield
  | cons first fields ih =>
    rw [List.map_cons, List.nodup_cons] at hnodup
    rcases List.mem_cons.mp hfield with rfl | hfield
    · rw [List.filter_cons, beq_self_eq_true, if_pos rfl, filter_name_eq_nil hnodup.1]
    · have hne : ¬first.1 = field.1 := fun heq => hnodup.1 (heq ▸ List.mem_map_of_mem hfield)
      rw [List.filter_cons, beq_false_of_ne hne, if_neg Bool.false_ne_true, ih hnodup.2 hfield]

/-- The value of a field is found wherever it is, and nothing is found if it is missing. -/
theorem field?_of_perm (hperm : named.Perm (present ++ others)) (hsub : present.Sublist fields)
    (hothers : ∀ other ∈ others, other.1 ∉ fields.map Prod.fst)
    (hnodup : (fields.map Prod.fst).Nodup) {field : String × Tree} (hfield : field ∈ fields) :
    field? named [field.1] = some (some field.2) ∨
      field ∉ present ∧ field? named [field.1] = some none := by
  have hnames : named.filter (fun f => [field.1].contains f.1) =
      named.filter fun f => f.1 == field.1 :=
    List.filter_congr fun f _ => by rw [Bool.eq_iff_iff]; simp
  have hrest : others.filter (fun f => f.1 == field.1) = [] := by
    refine filter_name_eq_nil fun hmem => ?_
    obtain ⟨other, hother, heq⟩ := List.mem_map.mp hmem
    exact hothers other hother (heq ▸ List.mem_map_of_mem hfield)
  -- what has the name is what is present of it, and that is no more than the field itself
  have hfound := hperm.filter fun f => f.1 == field.1
  rw [List.filter_append, hrest, List.append_nil] at hfound
  have hpicked := hsub.filter fun f => f.1 == field.1
  rw [filter_name_eq_singleton hnodup hfield, List.sublist_singleton] at hpicked
  rw [field?, hnames]
  rcases hpicked with hnone | hone
  · rw [hnone] at hfound
    rw [hfound.eq_nil]
    refine Or.inr ⟨fun hpresent => ?_, rfl⟩
    exact List.filter_eq_nil_iff.mp hnone field hpresent (beq_self_eq_true field.1)
  · rw [hone] at hfound
    rw [hfound.eq_singleton]
    exact Or.inl rfl

/-- Reading a record gives the value of each field, or nothing for an optional one. -/
theorem HasFields.fields? (h : HasFields fields optional members)
    (hnodup : (fields.map Prod.fst).Nodup) :
    ∃ found, fields? (fields.map fun field => [field.1]) (.object members) = some found ∧
      List.Forall₂ (fun field value => value = some field.2 ∨ value = none ∧ optional field)
        fields found := by
  obtain ⟨named, present, others, hnamed, hperm, hsub, hmissing, hothers⟩ := h
  rw [fields?_object hnamed, List.mapM_map]
  refine exists_mapM fun field hfield => ?_
  rcases field?_of_perm hperm hsub hothers hnodup hfield with hsome | ⟨habsent, hnone⟩
  · exact ⟨some field.2, hsome, Or.inl rfl⟩
  · exact ⟨none, hnone, Or.inr ⟨rfl, hmissing field hfield habsent⟩⟩

/-- The keys that spell the names of fields stand for those names. -/
theorem named_map (fields : List (String × Tree)) :
    Named (fields.map fun field => (Quoted.ofString field.1, field.2)) fields :=
  List.forall₂_map_left_iff.mpr
    (List.forall₂_same.mpr fun field _ => ⟨Quoted.toString?_ofString field.1, rfl⟩)

/-- A written record has its fields. -/
theorem hasFields_record (fields : List (String × Tree)) (optional : String × Tree → Prop) :
    HasFields fields optional
      (fields.map fun field => (Quoted.ofString field.1, field.2)) := by
  refine ⟨fields, fields, [], named_map fields, ?_, List.Sublist.refl _, ?_,
    List.forall_mem_nil _⟩
  · rw [List.append_nil]
  · exact fun field hfield habsent => absurd hfield habsent

end Fields

end Tree

end LatticeScene.Json
