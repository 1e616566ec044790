import LatticeScene.Text
import LatticeScene.Settings
import Mathlib.Data.List.Pairwise

/-!
# What a query asks for

A part of a query turns the switch of a name if it `Turns` that name: it is the name alone, or the
name with a value that is not empty.  The switches are about different bits, so that turning one of
them leaves the others as they are (`inEffect_turn_iff`).  After any number of them, those are in
effect that have been turned at all (`inEffect_foldl_turn_iff`), and neither the order of the parts
of a query nor their number matters.
-/

namespace LatticeScene.DrawOptions

/-! ### Parts of a query -/

/-- The characters of a query, without the question mark that may stand in front. -/
def asked (query : String) : List Char :=
  match query.toList with
  | '?' :: rest => rest
  | cs => cs

/-- A part is a name alone, or the name and a value that is not empty. -/
def Turns (name : String) (part : List Char) : Prop :=
  part = name.toList ∨ ∃ c value, part = name.toList ++ '=' :: c :: value

/-- Some part of a query turns the switch of a name. -/
def Turned (name : String) (query : String) : Prop :=
  ∃ part ∈ (asked query).splitOn '&', Turns name part

/-- The parts of a query are what stands between its ampersands. -/
theorem queryParts_eq (query : String) : queryParts query = (asked query).splitOn '&' :=
  Text.parts_eq_splitOn '&' _

/-! ### Switches that parts turn -/

/-- Up to its first equals sign a part is a name, and from there on a value. -/
theorem span_name {name : List Char} (hname : '=' ∉ name) (rest : List Char)
    (hrest : ∀ c ∈ rest.head?, c = '=') :
    (name ++ rest).takeWhile (· != '=') = name ∧ (name ++ rest).dropWhile (· != '=') = rest := by
  have hall : ∀ c ∈ name, (c != '=') = true := by
    intro c hc
    rw [bne_iff_ne]
    rintro rfl
    exact hname hc
  have hstop : ∀ c ∈ rest.head?, (c != '=') = false := by
    intro c hc
    rw [hrest c hc]
    rfl
  exact ⟨Text.takeWhile_append hall hstop, Text.dropWhile_append hall hstop⟩

/-- A part turns a name if the name is what stands in front of its first equals sign, unless the
part ends with that sign. -/
theorem turns_iff {name : String} (h : '=' ∉ name.toList) {part : List Char} :
    Turns name part ↔
      part.takeWhile (· != '=') = name.toList ∧ part.dropWhile (· != '=') ≠ ['='] := by
  constructor
  · rintro (rfl | ⟨c, value, rfl⟩)
    · obtain ⟨htake, hdrop⟩ := span_name h [] nofun
      rw [List.append_nil] at htake hdrop
      rw [hdrop]
      exact ⟨htake, nofun⟩
    · obtain ⟨htake, hdrop⟩ := span_name h ('=' :: c :: value) fun _ h => by cases h; rfl
      rw [hdrop]
      exact ⟨htake, nofun⟩
  · rintro ⟨htake, hdrop⟩
    -- the part is put together again from what is in front of the sign and the rest
    have hpart : part = name.toList ++ part.dropWhile (· != '=') := by
      rw [← htake, List.takeWhile_append_dropWhile]
    cases hrest : part.dropWhile (· != '=') with
    | nil =>
      rw [hrest, List.append_nil] at hpart
      exact Or.inl hpart
    | cons c value =>
      have hsign : c = '=' := by
        have hfirst := List.head_dropWhile_not (· != '=') (l := part) (by rw [hrest]; exact nofun)
        simpa [hrest] using hfirst
      rw [hrest, hsign] at hpart hdrop
      cases value with
      | nil => exact absurd rfl hdrop
      | cons c' value => exact Or.inr ⟨c', value, hpart⟩

/-- No name of a switch contains an equals sign. -/
theorem equals_notMem_of_mem_switches {entry : String × Switch} (h : entry ∈ switches) :
    '=' ∉ entry.1.toList := by
  have hall : ∀ name ∈ switches.map (·.1), '=' ∉ name.toList := by decide
  exact hall _ (List.mem_map_of_mem h)

/-- Every name has one switch. -/
theorem find?_switches {entry : String × Switch} (h : entry ∈ switches) :
    (switches.find? fun s => s.1.toList == entry.1.toList) = some entry := by
  simp only [switches, List.mem_cons, List.not_mem_nil, or_false] at h
  rcases h with rfl | rfl | rfl | rfl | rfl <;> rfl

/-- The bits that a switch turns. -/
def Switch.part : Switch → DrawOptions
  | .hide part => part
  | .unhide part => part

/-- Different switches turn different bits. -/
theorem disjoint_of_ne {a b : String × Switch} (ha : a ∈ switches) (hb : b ∈ switches)
    (h : a ≠ b) : a.2.part.bits &&& b.2.part.bits = 0 := by
  have hpairs : switches.Pairwise fun a b => a.2.part.bits &&& b.2.part.bits = 0 := by decide
  have hsymm : Std.Symm fun a b : String × Switch => a.2.part.bits &&& b.2.part.bits = 0 :=
    ⟨fun a b hab => (UInt8.and_comm _ _).trans hab⟩
  exact hpairs.forall ha hb h

/-- Every switch turns at least one bit. -/
theorem bits_part_ne_zero {entry : String × Switch} (h : entry ∈ switches) :
    entry.2.part.bits ≠ 0 := by
  have hall : ∀ s ∈ switches.map (·.2), s.part.bits ≠ 0 := by decide
  exact hall _ (List.mem_map_of_mem h)

/-- Every switch has one name. -/
theorem eq_of_switch_eq {a b : String × Switch} (ha : a ∈ switches) (hb : b ∈ switches)
    (h : a.2 = b.2) : a = b := by
  by_contra hne
  have hdisjoint := disjoint_of_ne ha hb hne
  rw [h, UInt8.and_self] at hdisjoint
  exact bits_part_ne_zero hb hdisjoint

/-- A part turns a switch exactly if it turns the name of the switch. -/
theorem switch?_eq_some_iff {entry : String × Switch} (hentry : entry ∈ switches)
    {part : List Char} : switch? part = some entry.2 ↔ Turns entry.1 part := by
  rw [switch?, turns_iff (equals_notMem_of_mem_switches hentry)]
  constructor
  · intro h
    split at h
    · cases h
    · next hdrop =>
      obtain ⟨found, hfind, hswitch⟩ := Option.map_eq_some_iff.mp h
      have hname := List.find?_some hfind
      rw [eq_of_switch_eq (List.mem_of_find?_eq_some hfind) hentry hswitch, beq_iff_eq] at hname
      exact ⟨hname.symm, hdrop⟩
  · rintro ⟨htake, hdrop⟩
    rw [if_neg hdrop, htake, find?_switches hentry]
    rfl

/-- Only switches that have a name are turned. -/
theorem exists_entry_of_switch? {part : List Char} {s : Switch} (h : switch? part = some s) :
    ∃ entry ∈ switches, entry.2 = s := by
  rw [switch?] at h
  split at h
  · cases h
  · obtain ⟨found, hfind, hswitch⟩ := Option.map_eq_some_iff.mp h
    exact ⟨found, List.mem_of_find?_eq_some hfind, hswitch⟩

/-! ### Options after switches -/

/-- Whether a part is as its switch puts it. -/
def Switch.InEffect (o : DrawOptions) : Switch → Prop
  | .hide part => o.contains part = false
  | .unhide part => o.contains part = true

instance Switch.decidableInEffect (o : DrawOptions) : DecidablePred (Switch.InEffect o)
  | .hide part => inferInstanceAs (Decidable (o.contains part = false))
  | .unhide part => inferInstanceAs (Decidable (o.contains part = true))

section Bits

variable {o p q : DrawOptions}

/-- Choosing bits from two sets together is choosing them from each. -/
theorem or_and_distrib (x y z : UInt8) : (x ||| y) &&& z = x &&& z ||| y &&& z :=
  UInt8.toBitVec_inj.mp BitVec.and_or_distrib_right

/-- Options contain others when they share all of their bits. -/
theorem contains_iff : o.contains q = true ↔ o.bits &&& q.bits = q.bits := beq_iff_eq

/-- Adding a part leaves the options of other parts alone. -/
theorem contains_union_of_disjoint (h : p.bits &&& q.bits = 0) :
    (o.union p).contains q = o.contains q := by
  rw [contains, union, or_and_distrib, h, UInt8.or_zero]
  rfl

/-- Removing a part leaves the options of other parts alone. -/
theorem contains_remove_of_disjoint (h : p.bits &&& q.bits = 0) :
    (o.remove p).contains q = o.contains q := by
  have hrest : ~~~p.bits &&& q.bits = q.bits := by
    calc ~~~p.bits &&& q.bits
      _ = p.bits &&& q.bits ||| ~~~p.bits &&& q.bits := by rw [h, UInt8.zero_or]
      _ = (p.bits ||| ~~~p.bits) &&& q.bits := (or_and_distrib _ _ _).symm
      _ = q.bits := by rw [UInt8.or_not_self, UInt8.neg_one_and]
  rw [contains, remove, UInt8.and_assoc, hrest]
  rfl

/-- A part that was added is there. -/
theorem contains_union_self : (o.union p).contains p = true := by
  rw [contains_iff, union, or_and_distrib, UInt8.and_self]
  refine UInt8.toBitVec_inj.mp (BitVec.eq_of_getElem_eq fun i hi => ?_)
  simp

/-- A part that was removed is not there, provided it has a bit. -/
theorem contains_remove_self (h : p.bits ≠ 0) : (o.remove p).contains p = false := by
  rw [← Bool.not_eq_true, contains_iff, remove, UInt8.and_assoc, UInt8.not_and_self,
    UInt8.and_zero]
  exact h.symm

end Bits

section Turning

variable {o : DrawOptions} {entry : String × Switch}

/-- A switch is in effect after it was turned. -/
theorem inEffect_turn_self (h : entry ∈ switches) : entry.2.InEffect (o.turn entry.2) := by
  have hbits := bits_part_ne_zero h
  cases hs : entry.2 with
  | hide part =>
    rw [hs] at hbits
    exact contains_remove_self hbits
  | unhide part => exact contains_union_self

/-- A switch is in effect once it has been turned, and turning another one does not undo it. -/
theorem inEffect_turn_iff {other : String × Switch} (h : entry ∈ switches)
    (hother : other ∈ switches) :
    entry.2.InEffect (o.turn other.2) ↔ entry.2 = other.2 ∨ entry.2.InEffect o := by
  by_cases heq : entry.2 = other.2
  · rw [← heq]
    exact iff_of_true (inEffect_turn_self h) (Or.inl rfl)
  · have hne : other ≠ entry := fun hsame => heq (hsame ▸ rfl)
    have hdisjoint := disjoint_of_ne hother h hne
    have hcontains : (o.turn other.2).contains entry.2.part = o.contains entry.2.part := by
      cases hs : other.2 with
      | hide part =>
        rw [hs] at hdisjoint
        exact contains_remove_of_disjoint hdisjoint
      | unhide part =>
        rw [hs] at hdisjoint
        exact contains_union_of_disjoint hdisjoint
    rw [or_iff_right heq]
    cases hs : entry.2 with
    | hide part =>
      rw [hs] at hcontains
      exact iff_of_eq (congrArg (· = false) hcontains)
    | unhide part =>
      rw [hs] at hcontains
      exact iff_of_eq (congrArg (· = true) hcontains)

/-- After several switches those are in effect that are among them. -/
theorem inEffect_foldl_turn_iff (h : entry ∈ switches) {turned : List Switch}
    (hturned : ∀ s ∈ turned, ∃ other ∈ switches, other.2 = s) :
    entry.2.InEffect (turned.foldl turn o) ↔ entry.2 ∈ turned ∨ entry.2.InEffect o := by
  induction turned generalizing o with
  | nil => exact (or_iff_right List.not_mem_nil).symm
  | cons s turned ih =>
    obtain ⟨other, hother, rfl⟩ := hturned _ List.mem_cons_self
    rw [List.foldl_cons, ih fun s hs => hturned s (List.mem_cons_of_mem _ hs),
      inEffect_turn_iff h hother, List.mem_cons, or_left_comm, or_assoc]

/-- No switch is in effect before any was turned. -/
theorem not_inEffect_default (h : entry ∈ switches) : ¬entry.2.InEffect default := by
  have hall : ∀ s ∈ switches.map (·.2), ¬s.InEffect default := by decide
  exact hall _ (List.mem_map_of_mem h)

/-- A query puts those switches into effect whose names its parts turn. -/
theorem inEffect_ofQuery_iff (h : entry ∈ switches) (query : String) :
    entry.2.InEffect (ofQuery query) ↔ Turned entry.1 query := by
  have hturned : ∀ s ∈ (queryParts query).filterMap switch?, ∃ other ∈ switches, other.2 = s := by
    intro s hs
    obtain ⟨part, -, hpart⟩ := List.mem_filterMap.mp hs
    exact exists_entry_of_switch? hpart
  rw [ofQuery, inEffect_foldl_turn_iff h hturned, or_iff_left (not_inEffect_default h),
    List.mem_filterMap, queryParts_eq]
  simp only [switch?_eq_some_iff h]
  rfl

end Turning

/-! ### Options that are known from their switches -/

/-- Everything that can be shown. -/
def everything : DrawOptions := default.union debug

/-- Turning a switch gives nothing that is not among everything that can be shown. -/
theorem contains_everything_turn {o : DrawOptions} (h : everything.contains o = true)
    {entry : String × Switch} (hentry : entry ∈ switches) :
    everything.contains (o.turn entry.2) = true := by
  have hpart : ∀ s ∈ switches.map (·.2), everything.contains s.part = true := by decide
  have hall := contains_iff.mp (hpart _ (List.mem_map_of_mem hentry))
  rw [contains_iff] at h ⊢
  cases hs : entry.2 with
  | hide part => rw [turn, remove, ← UInt8.and_assoc, h]
  | unhide part =>
    rw [hs, UInt8.and_comm] at hall
    rw [turn, union, UInt8.and_comm, or_and_distrib, UInt8.and_comm, h]
    exact congrArg (o.bits ||| ·) hall

/-- A query sets no bit that stands for no part. -/
theorem contains_everything_ofQuery (query : String) :
    everything.contains (ofQuery query) = true := by
  refine List.foldlRecOn (motive := fun o => everything.contains o = true) _ turn (by decide) ?_
  intro o ho s hs
  obtain ⟨part, -, hpart⟩ := List.mem_filterMap.mp hs
  obtain ⟨entry, hentry, rfl⟩ := exists_entry_of_switch? hpart
  exact contains_everything_turn ho hentry

section Extensionality

variable {a b : DrawOptions}

/-- Two options in which a switch is equally in effect agree about its part. -/
theorem contains_part_eq {s : Switch} (h : s.InEffect a ↔ s.InEffect b) :
    a.contains s.part = b.contains s.part := by
  cases s with
  | hide part =>
    have hsame : a.contains part = b.contains part := by simpa [Switch.InEffect] using not_congr h
    exact hsame
  | unhide part => exact Bool.eq_iff_iff.mpr h

/-- A switch turns a single bit. -/
theorem and_part_eq {entry : String × Switch} (h : entry ∈ switches) (o : DrawOptions) :
    entry.2.part.bits &&& o.bits = if o.contains entry.2.part then entry.2.part.bits else 0 := by
  have hall : ∀ s ∈ switches.map (·.2), ∀ x : BitVec 8,
      x &&& s.part.bits.toBitVec = s.part.bits.toBitVec ∨ x &&& s.part.bits.toBitVec = 0 := by
    decide +kernel
  rw [UInt8.and_comm]
  split
  · next hcontains => exact contains_iff.mp hcontains
  · next hcontains =>
    rcases hall _ (List.mem_map_of_mem h) o.bits.toBitVec with hpart | hzero
    · exact absurd (contains_iff.mpr (UInt8.toBitVec_inj.mp hpart)) hcontains
    · exact UInt8.toBitVec_inj.mp hzero

/-- Options are put together from their shares of the five parts. -/
theorem bits_eq_of_contains {o : DrawOptions} (h : everything.contains o = true) :
    o.bits = boxes.bits &&& o.bits ||| geometry.bits &&& o.bits ||| primals.bits &&& o.bits |||
      duals.bits &&& o.bits ||| debug.bits &&& o.bits := by
  simp only [← or_and_distrib]
  exact (contains_iff.mp h).symm

/-- Options without further bits are known from the switches that are in effect. -/
theorem eq_of_inEffect_iff (ha : everything.contains a = true) (hb : everything.contains b = true)
    (h : ∀ entry ∈ switches, entry.2.InEffect a ↔ entry.2.InEffect b) : a = b := by
  have hbits : ∀ entry ∈ switches, entry.2.part.bits &&& a.bits = entry.2.part.bits &&& b.bits := by
    intro entry hentry
    rw [and_part_eq hentry, and_part_eq hentry, contains_part_eq (h entry hentry)]
  simp only [switches, List.forall_mem_cons] at hbits
  obtain ⟨hboxes, hgeometry, hprimals, hduals, hdebug, -⟩ := hbits
  have hsame : a.bits = b.bits := by
    rw [bits_eq_of_contains ha, bits_eq_of_contains hb,
      show boxes.bits &&& a.bits = boxes.bits &&& b.bits from hboxes,
      show geometry.bits &&& a.bits = geometry.bits &&& b.bits from hgeometry,
      show primals.bits &&& a.bits = primals.bits &&& b.bits from hprimals,
      show duals.bits &&& a.bits = duals.bits &&& b.bits from hduals,
      show debug.bits &&& a.bits = debug.bits &&& b.bits from hdebug]
  obtain ⟨bits⟩ := a
  exact congrArg DrawOptions.mk hsame

end Extensionality

/-! ### Queries made of parts -/

/-- A query with a question mark in front of its parts. -/
def queryOf (parts : List (List Char)) : String := String.ofList ('?' :: ['&'].intercalate parts)

/-- Parts that turn nothing: empty ones, those that name no switch, and those whose value is
empty. -/
def Idle (part : List Char) : Prop :=
  part = [] ∨ (∀ entry ∈ switches, part.takeWhile (· != '=') ≠ entry.1.toList) ∨
    ∃ name, '=' ∉ name ∧ part = name ++ ['=']

/-- What is asked in a query made of parts is the parts with ampersands between them. -/
theorem asked_queryOf (parts : List (List Char)) :
    asked (queryOf parts) = ['&'].intercalate parts := by
  simp only [asked, queryOf, String.toList_ofList]

/-- Nothing turns a switch but parts that are not idle. -/
theorem Turns.not_idle {entry : String × Switch} (h : entry ∈ switches) {part : List Char}
    (hturns : Turns entry.1 part) : ¬Idle part := by
  obtain ⟨htake, hdrop⟩ := (turns_iff (equals_notMem_of_mem_switches h)).mp hturns
  rintro (rfl | hunknown | ⟨name, hname, rfl⟩)
  · have hnames : ∀ name ∈ switches.map (·.1), [] ≠ name.toList := by decide
    exact hnames _ (List.mem_map_of_mem h) htake
  · exact hunknown entry h htake
  · exact hdrop (span_name hname ['='] fun _ h => by cases h; rfl).2

/-- What a query made of parts turns. -/
theorem turned_queryOf_iff {entry : String × Switch} (h : entry ∈ switches)
    {parts : List (List Char)} (hparts : ∀ part ∈ parts, '&' ∉ part) :
    Turned entry.1 (queryOf parts) ↔ ∃ part ∈ parts, Turns entry.1 part := by
  rw [Turned, asked_queryOf]
  by_cases hnil : parts = []
  · -- between no separators there is one empty part
    subst hnil
    refine iff_of_false ?_ (by rintro ⟨part, hmem, -⟩; exact List.not_mem_nil hmem)
    rintro ⟨part, hmem, hturns⟩
    exact hturns.not_idle h (Or.inl (List.mem_singleton.mp hmem))
  · rw [List.splitOn_intercalate '&' hparts hnil]

/-- A query clears one of four parts from the default options exactly if one of the pieces between
its separators is the name of that part's switch, alone or with a value, and it sets the debug
graphs exactly if some piece names them so.  Nothing else in it has any effect.  Behind a question
mark pieces may come in any order and repeatedly, and there may be others that are empty, unknown or
without value; and what one of them has turned is not turned back by those that follow. -/
theorem ofQuery_turns_named_switches :
    (∀ query,
      ((ofQuery query).contains boxes = false ↔ Turned "noboxes" query) ∧
      ((ofQuery query).contains geometry = false ↔ Turned "nogeom" query) ∧
      ((ofQuery query).contains primals = false ↔ Turned "noprimals" query) ∧
      ((ofQuery query).contains duals = false ↔ Turned "noduals" query) ∧
      ((ofQuery query).contains debug = true ↔ Turned "debug" query) ∧
      everything.contains (ofQuery query) = true) ∧
    (∀ query other,
      (∀ name ∈ ["noboxes", "nogeom", "noprimals", "noduals", "debug"],
        Turned name query ↔ Turned name other) →
      ofQuery query = ofQuery other) ∧
    (∀ parts others : List (List Char), (∀ part ∈ parts ++ others, '&' ∉ part) →
      (∀ part, ¬Idle part → (part ∈ parts ↔ part ∈ others)) →
      ofQuery (queryOf parts) = ofQuery (queryOf others)) ∧
    (∀ parts later : List (List Char), (∀ part ∈ parts ++ later, '&' ∉ part) →
      ∀ entry ∈ switches, entry.2.InEffect (ofQuery (queryOf parts)) →
        entry.2.InEffect (ofQuery (queryOf (parts ++ later)))) := by
  have heffect : ∀ query, ∀ entry ∈ switches,
      (entry.2.InEffect (ofQuery query) ↔ Turned entry.1 query) :=
    fun query entry hentry => inEffect_ofQuery_iff hentry query
  -- options are known from their switches, and switches from the parts that turn them
  have hsame : ∀ query other, (∀ entry ∈ switches, Turned entry.1 query ↔ Turned entry.1 other) →
      ofQuery query = ofQuery other := by
    intro query other h
    refine eq_of_inEffect_iff (contains_everything_ofQuery query)
      (contains_everything_ofQuery other) fun entry hentry => ?_
    rw [heffect query entry hentry, heffect other entry hentry]
    exact h entry hentry
  refine ⟨fun query => ?_, fun query other h => hsame query other ?_, ?_, ?_⟩
  · have hswitches := heffect query
    simp only [switches, List.forall_mem_cons] at hswitches
    obtain ⟨hboxes, hgeometry, hprimals, hduals, hdebug, -⟩ := hswitches
    exact ⟨hboxes, hgeometry, hprimals, hduals, hdebug, contains_everything_ofQuery query⟩
  · exact fun entry hentry => h entry.1 (List.mem_map_of_mem (f := (·.1)) hentry)
  · intro parts others hfree hshared
    refine hsame _ _ fun entry hentry => ?_
    rw [turned_queryOf_iff hentry fun part hpart => hfree part (List.mem_append_left _ hpart),
      turned_queryOf_iff hentry fun part hpart => hfree part (List.mem_append_right _ hpart)]
    exact exists_congr fun part => and_congr_left fun hturns =>
      hshared part (hturns.not_idle hentry)
  · intro parts later hfree entry hentry hbefore
    rw [heffect _ entry hentry,
      turned_queryOf_iff hentry fun part hpart => hfree part (List.mem_append_left _ hpart)]
      at hbefore
    obtain ⟨part, hpart, hturns⟩ := hbefore
    rw [heffect _ entry hentry, turned_queryOf_iff hentry hfree]
    exact ⟨part, List.mem_append_left _ hpart, hturns⟩

/-- A value may be an equals sign, and a second question mark belongs to a name that no switch has.
A part without value, one without name and an empty one make no difference, and a switch that hides
one thing leaves another hidden. -/
theorem ofQuery_turns_named_switches_muddled :
    (ofQuery "??noboxes&noduals==&debug=").contains duals = false ∧
    ¬Turned "noboxes" "??noboxes&noduals==&debug=" ∧
    ofQuery "??noboxes&noduals==&debug=" = ofQuery "noduals" ∧
    ofQuery (queryOf ["debug=1".toList, "noboxes".toList]) =
      ofQuery (queryOf ["noboxes".toList, "nogeom=".toList, [], "=x".toList, "noboxes".toList,
        "debug=1".toList]) ∧
    (Switch.hide boxes).InEffect (ofQuery (queryOf ["noboxes".toList])) ∧
    (Switch.hide boxes).InEffect
      (ofQuery (queryOf (["noboxes".toList] ++ ["nogeom".toList]))) := by
  obtain ⟨hquery, hsame, hparts, hlater⟩ := ofQuery_turns_named_switches
  obtain ⟨hboxes, hgeometry, hprimals, hduals, hdebug, -⟩ := hquery "??noboxes&noduals==&debug="
  obtain ⟨hboxes', hgeometry', hprimals', hduals', hdebug', -⟩ := hquery "noduals"
  have hturned : Turned "noduals" "??noboxes&noduals==&debug=" :=
    ⟨"noduals==".toList, by decide, Or.inr ⟨'=', [], rfl⟩⟩
  have hhidden : (Switch.hide boxes).InEffect (ofQuery (queryOf ["noboxes".toList])) := by decide
  refine ⟨hduals.mpr hturned, mt hboxes.mpr (by decide), hsame _ _ ?_,
    hparts _ _ (by decide) fun part hpart => ?_, hhidden,
    hlater ["noboxes".toList] ["nogeom".toList] (by decide) ("noboxes", .hide boxes)
      List.mem_cons_self hhidden⟩
  · simp only [List.forall_mem_cons]
    refine ⟨?_, ?_, ?_, ?_, ?_, nofun⟩
    · rw [← hboxes, ← hboxes']
      decide
    · rw [← hgeometry, ← hgeometry']
      decide
    · rw [← hprimals, ← hprimals']
      decide
    · rw [← hduals, ← hduals']
      decide
    · rw [← hdebug, ← hdebug']
      decide
  · have hvalue : part ≠ "nogeom=".toList := by
      rintro rfl
      exact hpart (Or.inr (Or.inr ⟨"nogeom".toList, by decide, rfl⟩))
    have hempty : part ≠ [] := fun h => hpart (Or.inl h)
    have hname : part ≠ "=x".toList := by
      rintro rfl
      have hunknown : ∀ name ∈ switches.map (·.1),
          "=x".toList.takeWhile (· != '=') ≠ name.toList := by decide
      exact hpart (Or.inr (Or.inl fun entry hentry => hunknown _ (List.mem_map_of_mem hentry)))
    simp only [List.mem_cons, List.not_mem_nil, or_false, hvalue, hempty, hname, false_or]
    rw [← or_assoc, or_self, or_comm]

end LatticeScene.DrawOptions
