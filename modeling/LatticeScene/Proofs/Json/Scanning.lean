import LatticeScene.Json.Text
import LatticeScene.Text

/-!
# Spelling and scanning

The texts that spell a list of tokens are described without reference to the scanner, and the
scanner finds the tokens in each of them.
-/

namespace LatticeScene.Json

/-!
## Ways to write JSON

A token may be written in several ways: the digits of a character's code in either case, and an
exponent with a large or a small letter and with a plus sign or without.  `Token.Spells` says that
characters are one way to write a token, and `Written` that they are one way to write several
tokens, with any blanks around them.  `Tree.SpelledBy` says that a text writes the tokens of a tree.
-/

/-! ### Tokens -/

/-- The characters are decimal digits, and there is at least one. -/
def IsDigits (cs : List Char) : Prop := cs ≠ [] ∧ ∀ c ∈ cs, c.isDigit = true

/-- A way to write one unit of a string. -/
inductive QuotedUnit.Spells : QuotedUnit → List Char → Prop where
  /-- A character stands for itself, unless it ends the string, starts an escape or is a control
  character. -/
  | plain {c : Char} (hcontrol : ¬c < ' ') (hquote : c ≠ '"') (hescape : c ≠ '\\') :
      Spells (.plain c) [c]
  | escaped {letter c : Char} (h : escapeMeaning? letter = some c) :
      Spells (.escaped c) ['\\', letter]
  | codeUnit {a b c d : Char} {i j k l : Nat} (ha : Text.hexValue? a = some i)
      (hb : Text.hexValue? b = some j) (hc : Text.hexValue? c = some k)
      (hd : Text.hexValue? d = some l) :
      Spells (.codeUnit (i * 0x1000 + j * 0x100 + k * 0x10 + l)) ['\\', 'u', a, b, c, d]

/-- A way to write a string between its quotes. -/
inductive Quoted.Spells : Quoted → List Char → Prop where
  | nil : Spells [] []
  | cons {unit : QuotedUnit} {t : Quoted} {cs rest : List Char} (hunit : unit.Spells cs)
      (ht : Spells t rest) : Spells (unit :: t) (cs ++ rest)

/-- A way to write an exponent.  Only a minus sign has to be written. -/
inductive Exponent.Spells : Exponent → List Char → Prop where
  | negative {mark : Char} {digits : List Char} (hmark : mark = 'e' ∨ mark = 'E')
      (hdigits : IsDigits digits) : Spells ⟨true, digits⟩ (mark :: '-' :: digits)
  | signed {mark : Char} {digits : List Char} (hmark : mark = 'e' ∨ mark = 'E')
      (hdigits : IsDigits digits) : Spells ⟨false, digits⟩ (mark :: '+' :: digits)
  | unsigned {mark : Char} {digits : List Char} (hmark : mark = 'e' ∨ mark = 'E')
      (hdigits : IsDigits digits) : Spells ⟨false, digits⟩ (mark :: digits)

/-- A way to write the digits after the point, with the point if there are any. -/
inductive Number.SpellsFraction : List Char → List Char → Prop where
  | absent : SpellsFraction [] []
  | present {digits : List Char} (h : IsDigits digits) : SpellsFraction digits ('.' :: digits)

/-- A way to write an exponent that may be missing. -/
inductive Number.SpellsExponent : Option Exponent → List Char → Prop where
  | absent : SpellsExponent none []
  | present {e : Exponent} {cs : List Char} (h : e.Spells cs) : SpellsExponent (some e) cs

/-- A way to write a number.  A zero in front of the point stands alone. -/
inductive Number.Spells : Number → List Char → Prop where
  | mk {negative : Bool} {whole fraction fractionChars exponentChars : List Char}
      {exponent : Option Exponent} (hwhole : IsDigits whole)
      (hzero : ∀ rest, whole = '0' :: rest → rest = [])
      (hfraction : SpellsFraction fraction fractionChars)
      (hexponent : SpellsExponent exponent exponentChars) :
      Spells ⟨negative, whole, fraction, exponent⟩
        ((if negative then ['-'] else []) ++ (whole ++ (fractionChars ++ exponentChars)))

/-- A way to write a token. -/
inductive Token.Spells : Token → List Char → Prop where
  | beginArray : Spells .beginArray ['[']
  | endArray : Spells .endArray [']']
  | beginObject : Spells .beginObject ['{']
  | endObject : Spells .endObject ['}']
  | colon : Spells .colon [':']
  | comma : Spells .comma [',']
  | null : Spells .null ['n', 'u', 'l', 'l']
  | yes : Spells (.bool true) ['t', 'r', 'u', 'e']
  | no : Spells (.bool false) ['f', 'a', 'l', 's', 'e']
  | number {n : Number} {cs : List Char} (h : n.Spells cs) : Spells (.number n) cs
  | string {t : Quoted} {cs : List Char} (h : t.Spells cs) :
      Spells (.string t) ('"' :: (cs ++ ['"']))

/-- A way to write tokens one after the other, with blanks around them. -/
inductive Written : List Token → List Char → Prop where
  | nil {blanks : List Char} (hblanks : ∀ c ∈ blanks, isBlank c = true) : Written [] blanks
  | cons {token : Token} {tokens : List Token} {blanks cs rest : List Char}
      (hblanks : ∀ c ∈ blanks, isBlank c = true) (htoken : token.Spells cs)
      (hrest : Written tokens rest) : Written (token :: tokens) (blanks ++ (cs ++ rest))

/-- A text writes the tokens of a tree. -/
def Tree.SpelledBy (tree : Tree) (text : String) : Prop := Written tree.tokens text.toList

/-!
## Scanning what has been written

Whichever way a token is written, scanning it gives the token and what follows it
(`Token.Spells.next?`).  Brackets, punctuation and strings show where they end.  A number or a word
does not: it ends where the next character does not carry it on (`Ends`), which is so at the end of
the text, at a blank and in front of every other kind of token.  Several tokens are therefore
scanned from a text that writes them if no two numbers or words are next to each other
(`Separated`, `Written.scanFrom?`).
-/

/-! ### Strings -/

section Strings

variable {unit : QuotedUnit} {before t : Quoted} {cs : List Char}

/-- One unit is scanned at a time. -/
theorem QuotedUnit.Spells.scanFrom? (h : unit.Spells cs) (before : Quoted) (rest : List Char) :
    Quoted.scanFrom? before (cs ++ rest) = Quoted.scanFrom? (unit :: before) rest := by
  cases h with
  | @plain c hcontrol hquote hescape => simp [Quoted.scanFrom?, hcontrol, hescape]
  | @escaped letter c h =>
    -- the letter that starts a code has no meaning of its own
    have hletter : letter ≠ 'u' := by
      rintro rfl
      cases h
    simp [Quoted.scanFrom?, hletter, h]
  | codeUnit ha hb hc hd => simp [Quoted.scanFrom?, ha, hb, hc, hd]

/-- A string is scanned up to the quote that ends it. -/
theorem Quoted.Spells.scanFrom? (h : t.Spells cs) (before : Quoted) (rest : List Char) :
    Quoted.scanFrom? before (cs ++ '"' :: rest) = some (before.reverse ++ t, rest) := by
  induction h generalizing before with
  | nil => rw [List.nil_append, Quoted.scanFrom?, List.append_nil]
  | cons hunit ht ih =>
    rw [List.append_assoc, hunit.scanFrom?, ih, List.reverse_cons, List.append_assoc]
    rfl

end Strings

/-! ### Numbers -/

/-- Whether a character could carry on a number or a word. -/
def continues (c : Char) : Bool := c.isAlphanum || c == '.'

/-- What follows does not carry on a number or a word. -/
def Ends (rest : List Char) : Prop := ∀ c ∈ rest.head?, continues c = false

section Numbers

variable {c : Char} {rest : List Char}

/-- A character that carries nothing on is no digit. -/
theorem isDigit_of_continues (h : continues c = false) : c.isDigit = false := by
  simp only [continues, Char.isAlphanum, Bool.or_eq_false_iff] at h
  exact h.1.2

/-- A character that carries nothing on is no letter. -/
theorem isAlpha_of_continues (h : continues c = false) : c.isAlpha = false := by
  simp only [continues, Char.isAlphanum, Bool.or_eq_false_iff] at h
  exact h.1.1

/-- A character that carries nothing on differs from every character that does. -/
theorem ne_of_continues {d : Char} (h : continues c = false) (hd : continues d = true) : c ≠ d := by
  rintro rfl
  exact absurd hd (ne_true_of_eq_false h)

/-- An exponent starts with a letter. -/
theorem Exponent.Spells.exists_cons {e : Exponent} {cs : List Char} (h : e.Spells cs) :
    ∃ mark tail, cs = mark :: tail ∧ (mark = 'e' ∨ mark = 'E') := by
  cases h with
  | negative hmark => exact ⟨_, _, rfl, hmark⟩
  | signed hmark => exact ⟨_, _, rfl, hmark⟩
  | unsigned hmark => exact ⟨_, _, rfl, hmark⟩

/-- A spelled exponent is scanned up to its end. -/
theorem Exponent.Spells.scan? {e : Exponent} {cs : List Char} (h : e.Spells cs)
    (hrest : Ends rest) : Exponent.scan? (cs ++ rest) = some (some e, rest) := by
  have hstop : ∀ c ∈ rest.head?, c.isDigit = false :=
    fun c hc => isDigit_of_continues (hrest c hc)
  cases h with
  | negative hmark hdigits | signed hmark hdigits =>
    simp [Exponent.scan?, hmark, Text.takeWhile_append hdigits.2 hstop,
      Text.dropWhile_append hdigits.2 hstop, hdigits.1]
  | @unsigned mark digits hmark hdigits =>
    obtain ⟨d, tail, rfl⟩ := List.exists_cons_of_ne_nil hdigits.1
    have hd : d.isDigit = true := hdigits.2 d List.mem_cons_self
    -- the first digit is not taken for a sign
    have hminus : d ≠ '-' := by rintro rfl; cases hd
    have hplus : d ≠ '+' := by rintro rfl; cases hd
    have htake := Text.takeWhile_append hdigits.2 hstop
    have hdrop := Text.dropWhile_append hdigits.2 hstop
    rw [List.cons_append] at htake hdrop
    simp [Exponent.scan?, hmark, hminus, hplus, htake, hdrop]

/-- An exponent that may be missing is scanned up to its end, or found missing. -/
theorem Number.SpellsExponent.scan? {exponent : Option Exponent} {cs : List Char}
    (h : SpellsExponent exponent cs) (hrest : Ends rest) :
    Exponent.scan? (cs ++ rest) = some (exponent, rest) := by
  cases h with
  | absent =>
    cases rest with
    | nil => rfl
    | cons c rest =>
      have hc : continues c = false := hrest c rfl
      have hmark : ¬(c = 'e' ∨ c = 'E') :=
        not_or.mpr ⟨ne_of_continues hc (by decide), ne_of_continues hc (by decide)⟩
      exact if_neg hmark
  | present h => exact h.scan? hrest

/-- A fraction that may be missing is scanned up to its end, or found missing. -/
theorem Number.SpellsFraction.scan? {digits cs : List Char} (h : SpellsFraction digits cs)
    (hdigit : ∀ c ∈ rest.head?, c.isDigit = false) (hpoint : ∀ c ∈ rest.head?, c ≠ '.') :
    Number.scanFraction? (cs ++ rest) = some (digits, rest) := by
  cases h with
  | absent =>
    cases rest with
    | nil => rfl
    | cons c rest => simp [scanFraction?, hpoint c rfl]
  | present h =>
    rw [List.cons_append, scanFraction?, Text.takeWhile_append h.2 hdigit,
      Text.dropWhile_append h.2 hdigit]
    simp [h.1]

/-- Digits of which a zero in front stands alone are accepted in front of the point. -/
theorem isWhole_of_isDigits {whole : List Char} (h : IsDigits whole)
    (hzero : ∀ rest, whole = '0' :: rest → rest = []) : Number.isWhole whole = true := by
  obtain ⟨d, tail, rfl⟩ := List.exists_cons_of_ne_nil h.1
  by_cases hd : d = '0'
  · subst hd
    rw [hzero tail rfl]
    rfl
  · simp [Number.isWhole, hd]

/-- Where the exponent begins, or the number ends, there is neither a digit nor a point. -/
theorem Number.SpellsExponent.head? {exponent : Option Exponent} {cs : List Char}
    (h : SpellsExponent exponent cs) (hrest : Ends rest) :
    ∀ c ∈ (cs ++ rest).head?, c.isDigit = false ∧ c ≠ '.' := by
  cases h with
  | absent =>
    exact fun c hc => ⟨isDigit_of_continues (hrest c hc), ne_of_continues (hrest c hc) rfl⟩
  | present h =>
    obtain ⟨mark, tail, rfl, hmark⟩ := h.exists_cons
    intro c hc
    obtain rfl : mark = c := Option.some.inj hc
    rcases hmark with rfl | rfl <;> decide

/-- Where the fraction begins, or the digits in front of it end, there is no digit. -/
theorem Number.SpellsFraction.head? {digits cs : List Char} (h : SpellsFraction digits cs)
    (hrest : ∀ c ∈ rest.head?, c.isDigit = false) :
    ∀ c ∈ (cs ++ rest).head?, c.isDigit = false := by
  cases h with
  | absent => exact hrest
  | present h =>
    intro c hc
    obtain rfl : '.' = c := Option.some.inj hc
    rfl

/-- A number is scanned up to where it ends. -/
theorem Number.Spells.scan? {n : Number} {cs : List Char} (h : n.Spells cs) (hrest : Ends rest) :
    Number.scan? (cs ++ rest) = some (n, rest) := by
  cases h with
  | @mk negative whole fraction fractionChars exponentChars exponent hwhole hzero hfraction
      hexponent =>
    have hafter := hexponent.head? hrest
    have hscanned := hfraction.scan? (fun c hc => (hafter c hc).1) fun c hc => (hafter c hc).2
    have hstop := hfraction.head? fun c hc => (hafter c hc).1
    have htake := Text.takeWhile_append hwhole.2 hstop
    have hdrop := Text.dropWhile_append hwhole.2 hstop
    obtain ⟨d, tail, rfl⟩ := List.exists_cons_of_ne_nil hwhole.1
    have hminus : d ≠ '-' := by
      rintro rfl
      cases hwhole.2 '-' List.mem_cons_self
    rw [List.cons_append] at htake hdrop
    cases negative <;>
      simp [Number.scan?, hminus, htake, hdrop, isWhole_of_isDigits hwhole hzero, hscanned,
        hexponent.scan? hrest]

end Numbers

/-! ### Where tokens end -/

/-- Whether a token ends only where something else begins: a number or a word. -/
def Token.isOpen : Token → Bool
  | .null => true
  | .bool _ => true
  | .number _ => true
  | _ => false

section Tokens

variable {token : Token} {tokens : List Token} {cs rest : List Char}

/-- Blanks carry nothing on. -/
theorem not_continues_of_isBlank {c : Char} (h : isBlank c = true) : continues c = false := by
  simp only [isBlank, Bool.or_eq_true, beq_iff_eq] at h
  rcases h with ((rfl | rfl) | rfl) | rfl <;> rfl

/-- A number starts with a minus sign or a digit. -/
theorem Number.Spells.exists_cons {n : Number} (h : n.Spells cs) :
    ∃ c tail, cs = c :: tail ∧ (c = '-' ∨ c.isDigit = true) := by
  cases h with
  | @mk negative whole _ _ _ _ hwhole hzero hfraction hexponent =>
    obtain ⟨d, tail, rfl⟩ := List.exists_cons_of_ne_nil hwhole.1
    cases negative with
    | true => exact ⟨'-', _, rfl, Or.inl rfl⟩
    | false => exact ⟨d, _, rfl, Or.inr (hwhole.2 d List.mem_cons_self)⟩

/-- A token starts with a character that is no blank, and that carries nothing on unless the token
is a number or a word. -/
theorem Token.Spells.exists_cons (h : token.Spells cs) :
    ∃ c tail, cs = c :: tail ∧ isBlank c = false ∧
      (token.isOpen = false → continues c = false) := by
  cases h with
  | number h =>
    obtain ⟨c, tail, rfl, hc⟩ := h.exists_cons
    refine ⟨c, tail, rfl, Bool.eq_false_iff.mpr fun hblank => ?_, nofun⟩
    have hdigit := isDigit_of_continues (not_continues_of_isBlank hblank)
    rcases hc with rfl | hc
    · cases hblank
    · exact absurd hc (ne_true_of_eq_false hdigit)
  | null | yes | no => exact ⟨_, _, rfl, rfl, nofun⟩
  | beginArray | endArray | beginObject | endObject | colon | comma | string _ =>
    exact ⟨_, _, rfl, rfl, fun _ => rfl⟩

/-- A number is scanned as a token. -/
theorem Number.Spells.next? {n : Number} {c : Char} (h : n.Spells (c :: cs)) (hrest : Ends rest) :
    Token.next? c (cs ++ rest) = some (.number n, rest) := by
  have hscan : Number.scan? (c :: (cs ++ rest)) = some (n, rest) := h.scan? hrest
  obtain ⟨c', tail, hcs, hc⟩ := h.exists_cons
  obtain rfl : c = c' := (List.cons.inj hcs).1
  have hne : ∀ d, (d == '-') = false → d.isDigit = false → c ≠ d := by
    rintro d hminus hdigit rfl
    rcases hc with rfl | hc
    · cases hminus
    · exact absurd hc (ne_true_of_eq_false hdigit)
  rw [Token.next?, if_neg (hne '[' rfl rfl), if_neg (hne ']' rfl rfl), if_neg (hne '\x7b' rfl rfl),
    if_neg (hne '\x7d' rfl rfl), if_neg (hne ':' rfl rfl), if_neg (hne ',' rfl rfl),
    if_neg (hne '"' rfl rfl), if_pos hc, hscan]
  rfl

/-- A word is scanned as a token, up to the first character that is no letter. -/
theorem Token.next?_word {c : Char} (hc : c.isAlpha = true)
    (hdigit : ¬(c = '-' ∨ c.isDigit = true)) (hletters : ∀ d ∈ cs, d.isAlpha = true)
    (hword : Token.ofWord? (c :: cs) = some token) (hrest : Ends rest) :
    Token.next? c (cs ++ rest) = some (token, rest) := by
  have hstop : ∀ d ∈ rest.head?, d.isAlpha = false := fun d hd => isAlpha_of_continues (hrest d hd)
  have hne : ∀ d, d.isAlpha = false → c ≠ d := by
    rintro d hd rfl
    exact absurd hc (ne_true_of_eq_false hd)
  rw [Token.next?, if_neg (hne '[' rfl), if_neg (hne ']' rfl), if_neg (hne '\x7b' rfl),
    if_neg (hne '\x7d' rfl), if_neg (hne ':' rfl), if_neg (hne ',' rfl), if_neg (hne '"' rfl),
    if_neg hdigit, Text.takeWhile_append hletters hstop, hword,
    Text.dropWhile_append hletters hstop]
  rfl

/-- A token is scanned up to its end. -/
theorem Token.Spells.next? {c : Char} (h : token.Spells (c :: cs))
    (hrest : token.isOpen = true → Ends rest) :
    Token.next? c (cs ++ rest) = some (token, rest) := by
  cases h with
  | beginArray | endArray | beginObject | endObject | colon | comma => rfl
  | null | yes | no =>
    exact Token.next?_word rfl (by decide) (List.all_eq_true.mp rfl) (by decide) (hrest rfl)
  | number h => exact h.next? (hrest rfl)
  | @string t cs h =>
    have hscan : Quoted.scanFrom? [] (cs ++ ['"'] ++ rest) = some (t, rest) := by
      rw [List.append_assoc]
      exact h.scanFrom? [] rest
    exact congrArg (Option.map _) hscan

end Tokens

/-! ### Texts -/

/-- Of two tokens in a row, one is neither a number nor a word, so that they do not run into each
other. -/
def Separated : List Token → Prop
  | [] => True
  | token :: rest =>
    (token.isOpen = true → ∀ next ∈ rest.head?, next.isOpen = false) ∧ Separated rest

section Texts

variable {tokens : List Token} {cs : List Char}

/-- Blanks between tokens are skipped. -/
theorem scanFrom?_blanks {blanks : List Char} (h : ∀ c ∈ blanks, isBlank c = true)
    (before : List Token) (cs : List Char) :
    Token.scanFrom? before (blanks ++ cs) = Token.scanFrom? before cs := by
  induction blanks with
  | nil => rfl
  | cons c blanks ih =>
    rw [List.cons_append, Token.scanFrom?, if_pos (h c List.mem_cons_self)]
    exact ih fun d hd => h d (List.mem_cons_of_mem c hd)

/-- A token in front is put before those that were scanned, and scanning goes on behind it. -/
theorem scanFrom?_token {token : Token} {c : Char} {rest : List Char} (hc : isBlank c = false)
    (h : Token.next? c cs = some (token, rest)) (before : List Token) :
    Token.scanFrom? before (c :: cs) = Token.scanFrom? (token :: before) rest := by
  rw [Token.scanFrom?, if_neg (ne_true_of_eq_false hc)]
  split
  · next hnone =>
    rw [h] at hnone
    cases hnone
  · next hsome =>
    rw [h] at hsome
    cases hsome
    rfl

/-- Blanks in front of what carries nothing on carry nothing on either. -/
theorem Ends.blanks_append {blanks rest : List Char} (hblanks : ∀ c ∈ blanks, isBlank c = true)
    (hrest : Ends rest) : Ends (blanks ++ rest) := by
  cases blanks with
  | nil => exact hrest
  | cons c blanks =>
    intro d hd
    obtain rfl : c = d := Option.some.inj hd
    exact not_continues_of_isBlank (hblanks c List.mem_cons_self)

/-- What is written next carries on no number and no word, unless it is one itself. -/
theorem Written.ends (h : Written tokens cs) (hnext : ∀ next ∈ tokens.head?, next.isOpen = false) :
    Ends cs := by
  cases h with
  | nil hblanks =>
    rw [← List.append_nil cs]
    exact Ends.blanks_append hblanks nofun
  | cons hblanks htoken hrest =>
    refine Ends.blanks_append hblanks ?_
    obtain ⟨c, tail, rfl, -, hc⟩ := htoken.exists_cons
    intro d hd
    obtain rfl : c = d := Option.some.inj hd
    exact hc (hnext _ rfl)

/-- What writes tokens that are separated is scanned as these tokens. -/
theorem Written.scanFrom? (h : Written tokens cs) (hseparated : Separated tokens)
    (before : List Token) : Token.scanFrom? before cs = some (before.reverse ++ tokens) := by
  induction h generalizing before with
  | @nil blanks hblanks =>
    rw [← List.append_nil blanks, scanFrom?_blanks hblanks, Token.scanFrom?, List.append_nil]
  | @cons token tokens blanks cs rest hblanks htoken hrest ih =>
    obtain ⟨hopen, hseparated⟩ := hseparated
    obtain ⟨c, tail, rfl, hc, -⟩ := htoken.exists_cons
    have hnext := htoken.next? fun h => hrest.ends (hopen h)
    rw [scanFrom?_blanks hblanks, List.cons_append, scanFrom?_token hc hnext, ih hseparated,
      List.reverse_cons, List.append_assoc]
    rfl

end Texts

end LatticeScene.Json
