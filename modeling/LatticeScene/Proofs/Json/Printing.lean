import LatticeScene.Json.Record
import LatticeScene.Proofs.Json.Scanning

/-!
# What the printed texts write

A tree is printed by the characters that `Token.chars` chooses for its tokens, side by side in the
compact text and with line breaks between them in the pretty one.  Both texts write the tree if the
chosen characters write its numbers and strings, which is what `Tree.IsWritable` says
(`Tree.IsWritable.spelledBy_compact`, `Tree.IsWritable.spelledBy_pretty`).  The digits of an integer
and the escapes of a string do (`Number.spells_ofInt`, `Quoted.spells_ofString`).
-/

namespace LatticeScene.Json

/-! ### Integers -/

section Integers

/-- The decimal digits of a number do not start with a zero, except those of zero. -/
theorem eq_nil_of_toDigits_eq_zero_cons (k : Nat) {rest : List Char}
    (h : Nat.toDigits 10 k = '0' :: rest) : rest = [] := by
  induction k using Nat.strongRecOn generalizing rest with
  | ind k ih =>
    by_cases hk : k < 10
    · rw [Nat.toDigits_of_lt_base hk] at h
      exact (List.cons.inj h).2.symm
    · have hne : Nat.toDigits 10 (k / 10) ≠ [] := Nat.toDigits_ne_nil
      obtain ⟨d, tail, hd⟩ := List.exists_cons_of_ne_nil hne
      rw [Nat.toDigits_of_base_le (by decide) (Nat.le_of_not_lt hk), hd, List.cons_append] at h
      -- the digits in front of the last one start with the same zero, so that they stand for zero
      obtain rfl : d = '0' := (List.cons.inj h).1
      have htail := ih (k / 10) (by omega) hd
      have hvalue : Nat.ofDigitChars 10 (Nat.toDigits 10 (k / 10)) 0 = 0 := by
        rw [hd, htail]
        rfl
      rw [Nat.ofDigitChars_ten_toDigits] at hvalue
      omega

/-- The decimal digits of a number are digits, and there is at least one. -/
theorem isDigits_toDigits (k : Nat) : IsDigits (Nat.toDigits 10 k) :=
  ⟨Nat.toDigits_ne_nil, fun _ => Nat.isDigit_of_mem_toDigits (by decide) (by decide)⟩

/-- Decimal digits with or without a minus sign write an integer. -/
theorem Number.spells_toDigits (negative : Bool) (k : Nat) :
    Number.Spells ⟨negative, Nat.toDigits 10 k, [], none⟩
      (Number.chars ⟨negative, Nat.toDigits 10 k, [], none⟩) := by
  have h : Number.Spells ⟨negative, Nat.toDigits 10 k, [], none⟩
      ((if negative then ['-'] else []) ++ (Nat.toDigits 10 k ++ ([] ++ []))) :=
    .mk (isDigits_toDigits k) (fun _ => eq_nil_of_toDigits_eq_zero_cons k) .absent .absent
  simpa [Number.chars] using h

/-- The characters chosen for a natural number spell it. -/
theorem Number.spells_ofNat (k : Nat) : (Number.ofNat k).Spells (Number.ofNat k).chars :=
  spells_toDigits false k

/-- The characters chosen for an integer spell it, with a minus sign in front of a negative one. -/
theorem Number.spells_ofInt (i : Int) : (Number.ofInt i).Spells (Number.ofInt i).chars :=
  spells_toDigits (decide (i < 0)) i.natAbs

end Integers

/-! ### Strings -/

section Strings

/-- A hexadecimal digit is read back as its value. -/
theorem hexValue?_digitChar {k : Nat} (h : k < 16) : Text.hexValue? k.digitChar = some k := by
  revert k
  decide

/-- Four hexadecimal digits after a backslash and a `u` spell a code unit. -/
theorem QuotedUnit.spells_codeUnit {u : Nat} (h : u < 0x10000) :
    (codeUnit u).Spells (codeUnit u).chars := by
  have hdigits : u = u / 0x1000 % 16 * 0x1000 + u / 0x100 % 16 * 0x100 + u / 0x10 % 16 * 0x10 +
      u % 16 := by omega
  have hvalue : ∀ k, Text.hexValue? (k % 16).digitChar = some (k % 16) :=
    fun k => hexValue?_digitChar (Nat.mod_lt k (by decide))
  have hspells := Spells.codeUnit (hvalue (u / 0x1000)) (hvalue (u / 0x100)) (hvalue (u / 0x10))
    (hvalue u)
  rw [← hdigits] at hspells
  exact hspells

/-- A letter of the table of escapes stands for the character beside it. -/
theorem escapeMeaning?_of_mem {entry : Char × Char} (h : entry ∈ escapes) :
    escapeMeaning? entry.1 = some entry.2 := by
  revert entry
  decide

/-- A letter that is chosen for a character stands beside it in the table of escapes. -/
theorem mem_escapes {letter c : Char} (h : escapeLetter? c = some letter) :
    (letter, c) ∈ escapes := by
  obtain ⟨⟨l, d⟩, hfind, rfl⟩ := Option.map_eq_some_iff.mp h
  obtain rfl : d = c := by simpa using List.find?_some hfind
  exact List.mem_of_find?_eq_some hfind

/-- The unit that is chosen for a character is written by its own characters. -/
theorem QuotedUnit.spells_unitOf (c : Char) : (Quoted.unitOf c).Spells (Quoted.unitOf c).chars := by
  rw [Quoted.unitOf]
  -- a slash has an escape, but is written plainly
  by_cases hslash : c = '/'
  · subst hslash
    exact .plain (by decide) (by decide) (by decide)
  rw [if_neg hslash]
  cases hletter : escapeLetter? c with
  | some letter =>
    have hchars : (QuotedUnit.escaped c).chars = ['\\', letter] := by
      rw [QuotedUnit.chars, hletter]
      rfl
    dsimp only
    rw [hchars]
    exact .escaped (escapeMeaning?_of_mem (mem_escapes hletter))
  | none =>
    by_cases hcontrol : c < ' '
    · have hsmall : c.toNat < ' '.toNat := hcontrol
      simp only [hcontrol, if_true]
      exact spells_codeUnit (Nat.lt_trans hsmall (by decide))
    · have hquote : c ≠ '"' := by
        rintro rfl
        cases hletter
      have hescape : c ≠ '\\' := by
        rintro rfl
        cases hletter
      simp only [hcontrol, if_false]
      exact .plain hcontrol hquote hescape

/-- The characters chosen for a string spell it unit by unit, between quotation marks. -/
theorem Quoted.spells_ofString (s : String) :
    (Quoted.ofString s).Spells (Quoted.ofString s).chars := by
  rw [Quoted.ofString]
  induction s.toList with
  | nil => exact .nil
  | cons c cs ih => exact .cons (QuotedUnit.spells_unitOf c) ih

/-- A string token is spelled as its string is. -/
theorem Token.spells_string {t : Quoted} (h : t.Spells t.chars) :
    (Token.string t).Spells (Token.string t).chars :=
  .string h

end Strings

/-! ### Texts -/

section Texts

variable {tokens : List Token} {cs : List Char}

/-- More blanks may stand in front of a text. -/
theorem Written.blanks_append {blanks : List Char} (hblanks : ∀ c ∈ blanks, isBlank c = true)
    (h : Written tokens cs) : Written tokens (blanks ++ cs) := by
  cases h with
  | nil hcs => exact .nil (List.forall_mem_append.mpr ⟨hblanks, hcs⟩)
  | cons hinner htoken hrest =>
    rw [← List.append_assoc]
    exact .cons (List.forall_mem_append.mpr ⟨hblanks, hinner⟩) htoken hrest

/-- What is written side by side is written in order. -/
theorem Written.append {after : List Token} {rest : List Char} (h : Written tokens cs)
    (hafter : Written after rest) : Written (tokens ++ after) (cs ++ rest) := by
  induction h with
  | nil hblanks => exact hafter.blanks_append hblanks
  | cons hblanks htoken _ ih =>
    rw [List.append_assoc, List.append_assoc]
    exact .cons hblanks htoken ih

/-- A token is written in front of others without a blank. -/
theorem Token.Spells.written_cons {token : Token} {rest : List Char} (htoken : token.Spells cs)
    (h : Written tokens rest) : Written (token :: tokens) (cs ++ rest) :=
  Written.cons (List.forall_mem_nil _) htoken h

/-- The spelling of one token is a text with that token alone. -/
theorem Token.Spells.written {token : Token} (h : token.Spells cs) : Written [token] cs := by
  rw [← List.append_nil cs]
  exact h.written_cons (.nil (List.forall_mem_nil _))

/-- A space is a blank. -/
theorem isBlank_space : ∀ c ∈ [' '], isBlank c = true := List.forall_mem_singleton.mpr rfl

/-- A line break with its indentation consists of blanks. -/
theorem isBlank_lineBreak (depth : Nat) : ∀ c ∈ Tree.lineBreak depth, isBlank c = true := by
  intro c h
  rcases List.mem_cons.mp h with rfl | h
  · rfl
  · rw [List.eq_of_mem_replicate h]
    rfl

end Texts

/-! ### Trees -/

namespace Tree

/-- The characters that are chosen for the numbers and strings of a tree write them. -/
inductive IsWritable : Tree → Prop where
  | null : IsWritable .null
  | bool (b : Bool) : IsWritable (.bool b)
  | number {n : Number} (h : n.Spells n.chars) : IsWritable (.number n)
  | string {t : Quoted} (h : t.Spells t.chars) : IsWritable (.string t)
  | array {items : List Tree} (h : ∀ item ∈ items, IsWritable item) : IsWritable (.array items)
  | object {members : List (Quoted × Tree)}
      (hkeys : ∀ member ∈ members, member.1.Spells member.1.chars)
      (hvalues : ∀ member ∈ members, IsWritable member.2) : IsWritable (.object members)

/-- The tree of a natural number is writable. -/
theorem isWritable_ofNat (k : Nat) : (ofNat k).IsWritable := .number (Number.spells_ofNat k)

/-- The tree of an integer is writable. -/
theorem isWritable_ofInt (i : Int) : (ofInt i).IsWritable := .number (Number.spells_ofInt i)

/-- The tree of a list is writable if the trees of its elements are. -/
theorem isWritable_ofList {α : Type} {write : α → Tree} (h : ∀ a, (write a).IsWritable)
    (xs : List α) : (ofList write xs).IsWritable :=
  .array (List.forall_mem_map.mpr fun a _ => h a)

/-- The tree of a record is writable if the trees of its members are. -/
theorem isWritable_record {members : List (String × Tree)}
    (h : ∀ member ∈ members, member.2.IsWritable) : (record members).IsWritable :=
  .object (List.forall_mem_map.mpr fun member _ => Quoted.spells_ofString member.1)
    (List.forall_mem_map.mpr h)

section Compact

/-- The characters of the items that are left, side by side, write their tokens. -/
theorem written_itemTokens {items : List Tree}
    (hitems : ∀ item ∈ items, Written item.tokens (item.tokens.flatMap Token.chars)) :
    Written (itemTokens items) ((itemTokens items).flatMap Token.chars) := by
  induction items with
  | nil => exact Token.Spells.endArray.written
  | cons item items ih =>
    obtain ⟨hitem, hrest⟩ := List.forall_mem_cons.mp hitems
    cases items with
    | nil =>
      rw [itemTokens, List.flatMap_append]
      exact hitem.append Token.Spells.endArray.written
    | cons next items =>
      rw [itemTokens, List.flatMap_append]
      · exact hitem.append (Token.Spells.comma.written_cons (ih hrest))
      · exact nofun

/-- The characters of the members that are left, side by side, write their tokens. -/
theorem written_memberTokens {members : List (Quoted × Tree)}
    (hkeys : ∀ member ∈ members, member.1.Spells member.1.chars)
    (hvalues : ∀ member ∈ members,
      Written member.2.tokens (member.2.tokens.flatMap Token.chars)) :
    Written (memberTokens members) ((memberTokens members).flatMap Token.chars) := by
  induction members with
  | nil => exact Token.Spells.endObject.written
  | cons member members ih =>
    obtain ⟨key, value⟩ := member
    obtain ⟨hkey, hkeys⟩ := List.forall_mem_cons.mp hkeys
    obtain ⟨hvalue, hvalues⟩ := List.forall_mem_cons.mp hvalues
    have hstart : ∀ {after : List Token}, Written after (after.flatMap Token.chars) →
        Written (.string key :: .colon :: after)
          ((Token.string key :: .colon :: after).flatMap Token.chars) :=
      fun h => (Token.spells_string hkey).written_cons (Token.Spells.colon.written_cons h)
    cases members with
    | nil =>
      rw [memberTokens, List.cons_append, List.cons_append]
      refine hstart ?_
      rw [List.flatMap_append]
      exact hvalue.append Token.Spells.endObject.written
    | cons next members =>
      rw [memberTokens, List.cons_append, List.cons_append]
      · refine hstart ?_
        rw [List.flatMap_append]
        exact hvalue.append (Token.Spells.comma.written_cons (ih hkeys hvalues))
      · exact nofun

/-- The compact text, in which tokens follow each other directly, writes the tokens of a tree. -/
theorem IsWritable.written_flatMap {tree : Tree} (h : tree.IsWritable) :
    Written tree.tokens (tree.tokens.flatMap Token.chars) := by
  induction h with
  | null => exact Token.Spells.null.written
  | bool b => cases b with
    | true => exact Token.Spells.yes.written
    | false => exact Token.Spells.no.written
  | number h =>
    rw [tokens, List.flatMap_singleton]
    exact (Token.Spells.number h).written
  | string h =>
    rw [tokens, List.flatMap_singleton]
    exact (Token.spells_string h).written
  | array _ ih => exact Token.Spells.beginArray.written_cons (written_itemTokens ih)
  | object hkeys _ ih =>
    exact Token.Spells.beginObject.written_cons (written_memberTokens hkeys ih)

/-- The compact text of a tree writes it. -/
theorem IsWritable.spelledBy_compact {tree : Tree} (h : tree.IsWritable) :
    tree.SpelledBy tree.compact := by
  rw [SpelledBy, compact, String.toList_ofList]
  exact h.written_flatMap

end Compact

section Pretty

/-- An item and those after it, each on a line of its own, write their tokens. -/
theorem written_prettyItems {item : Tree} {items : List Tree}
    (hitems : ∀ i ∈ item :: items, ∀ depth, Written i.tokens (i.prettyChars depth)) (depth : Nat) :
    Written (itemTokens (item :: items))
      (item.prettyChars (depth + 1) ++ prettyItems depth items) := by
  induction items generalizing item with
  | nil =>
    have hend := Token.Spells.endArray.written.blanks_append (isBlank_lineBreak depth)
    exact (hitems item List.mem_cons_self (depth + 1)).append hend
  | cons next items ih =>
    obtain ⟨hitem, hrest⟩ := List.forall_mem_cons.mp hitems
    have hnext := (ih hrest).blanks_append (isBlank_lineBreak (depth + 1))
    rw [itemTokens, prettyItems, List.append_assoc]
    · exact (hitem (depth + 1)).append (Token.Spells.comma.written_cons hnext)
    · exact nofun

/-- A member and those after it, each on a line of its own, write their tokens. -/
theorem written_prettyMembers {key : Quoted} {value : Tree} {members : List (Quoted × Tree)}
    (hkeys : ∀ m ∈ (key, value) :: members, m.1.Spells m.1.chars)
    (hvalues : ∀ m ∈ (key, value) :: members, ∀ depth,
      Written m.2.tokens (m.2.prettyChars depth))
    (depth : Nat) :
    Written (memberTokens ((key, value) :: members))
      ((Token.string key).chars ++ ':' :: ' ' ::
        (value.prettyChars (depth + 1) ++ prettyMembers depth members)) := by
  induction members generalizing key value with
  | nil =>
    have hend := Token.Spells.endObject.written.blanks_append (isBlank_lineBreak depth)
    have hvalue := (hvalues (key, value) List.mem_cons_self (depth + 1)).append hend
    exact (Token.spells_string (hkeys (key, value) List.mem_cons_self)).written_cons
      (Token.Spells.colon.written_cons (hvalue.blanks_append isBlank_space))
  | cons next members ih =>
    obtain ⟨nextKey, nextValue⟩ := next
    obtain ⟨hkey, hkeys⟩ := List.forall_mem_cons.mp hkeys
    obtain ⟨hvalue, hvalues⟩ := List.forall_mem_cons.mp hvalues
    have hnext := (ih hkeys hvalues).blanks_append (isBlank_lineBreak (depth + 1))
    have hrest := (hvalue (depth + 1)).append (Token.Spells.comma.written_cons hnext)
    have hmember := (Token.spells_string hkey).written_cons
      (Token.Spells.colon.written_cons (hrest.blanks_append isBlank_space))
    rw [memberTokens, prettyMembers]
    · simpa using hmember
    · exact nofun

/-- The indented text, with its line breaks and spaces, writes the tokens of a tree. -/
theorem IsWritable.written_prettyChars {tree : Tree} (h : tree.IsWritable) (depth : Nat) :
    Written tree.tokens (tree.prettyChars depth) := by
  induction h generalizing depth with
  | null => exact Token.Spells.null.written
  | bool b => cases b with
    | true => exact Token.Spells.yes.written
    | false => exact Token.Spells.no.written
  | number h => exact (Token.Spells.number h).written
  | string h => exact (Token.spells_string h).written
  | @array items _ ih =>
    cases items with
    | nil => exact Token.Spells.beginArray.written_cons Token.Spells.endArray.written
    | cons item items =>
      have hitems := (written_prettyItems ih depth).blanks_append
        (isBlank_lineBreak (depth + 1))
      rw [tokens, prettyChars, List.append_assoc]
      exact Token.Spells.beginArray.written_cons hitems
  | @object members hkeys _ ih =>
    cases members with
    | nil => exact Token.Spells.beginObject.written_cons Token.Spells.endObject.written
    | cons member members =>
      obtain ⟨key, value⟩ := member
      have hmembers := (written_prettyMembers hkeys ih depth).blanks_append
        (isBlank_lineBreak (depth + 1))
      have hobject := Token.Spells.beginObject.written_cons hmembers
      rw [tokens, prettyChars]
      simpa using hobject

/-- The pretty text of a tree writes it. -/
theorem IsWritable.spelledBy_pretty {tree : Tree} (h : tree.IsWritable) :
    tree.SpelledBy tree.pretty := by
  rw [SpelledBy, pretty, String.toList_ofList]
  exact h.written_prettyChars 0

end Pretty

end Tree

end LatticeScene.Json
