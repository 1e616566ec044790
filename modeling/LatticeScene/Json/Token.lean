import LatticeScene.Json.Tree
import LatticeScene.Text

/-!
# JSON tokens

The tokens of a JSON text and their spelling.  `Token.chars` writes a token and `Token.scan?`
cuts a text into tokens, passing over blanks.  A text with a character that starts no token, a
number or string that breaks off, or a word other than `null`, `true` and `false` has no tokens
at all.
-/

namespace LatticeScene.Json

open LatticeScene.Text (hexValue?)

/-- A token of a JSON text. -/
inductive Token where
  | beginArray
  | endArray
  | beginObject
  | endObject
  | colon
  | comma
  | null
  | bool (value : Bool)
  | number (value : Number)
  | string (value : Quoted)
deriving DecidableEq, Repr

/-- The four blanks that may stand between tokens. -/
def isBlank (c : Char) : Bool := c == ' ' || c == '\t' || c == '\n' || c == '\r'

/-- The four lower-case hexadecimal digits of a code unit. -/
def hexDigits (u : Nat) : List Char :=
  [u / 0x1000 % 16, u / 0x100 % 16, u / 0x10 % 16, u % 16].map Nat.digitChar

/-! ### Spelling -/

/-- The characters of one unit of a string. -/
def QuotedUnit.chars : QuotedUnit → List Char
  | .plain c => [c]
  | .escaped c => ['\\', (escapeLetter? c).getD c]
  | .codeUnit u => '\\' :: 'u' :: hexDigits u

/-- The characters of a string between its quotes. -/
def Quoted.chars (t : Quoted) : List Char := t.flatMap QuotedUnit.chars

/-- The characters of an exponent.  Its sign is always written. -/
def Exponent.chars (e : Exponent) : List Char :=
  'e' :: (if e.negative then '-' else '+') :: e.digits

/-- The characters of a number. -/
def Number.chars (n : Number) : List Char :=
  (if n.negative then ['-'] else []) ++ n.whole
    ++ (if n.fraction.isEmpty then [] else '.' :: n.fraction)
    ++ (n.exponent.map Exponent.chars).getD []

/-- The characters of a token. -/
def Token.chars : Token → List Char
  | .beginArray => ['[']
  | .endArray => [']']
  | .beginObject => ['{']
  | .endObject => ['}']
  | .colon => [':']
  | .comma => [',']
  | .null => ['n', 'u', 'l', 'l']
  | .bool true => ['t', 'r', 'u', 'e']
  | .bool false => ['f', 'a', 'l', 's', 'e']
  | .number n => n.chars
  | .string t => '"' :: t.chars ++ ['"']

/-! ### Scanning -/

/-- Scan the inside of a string up to its closing quote, after the units of `before`, which are
kept in reverse.  Gives the string and what follows it. -/
def Quoted.scanFrom? (before : Quoted) : List Char → Option (Quoted × List Char)
  | [] => none
  | '"' :: rest => some (before.reverse, rest)
  | '\\' :: 'u' :: a :: b :: c :: d :: rest => do
    let u := (← hexValue? a) * 0x1000 + (← hexValue? b) * 0x100 + (← hexValue? c) * 0x10
      + (← hexValue? d)
    scanFrom? (.codeUnit u :: before) rest
  | '\\' :: letter :: rest => do
    scanFrom? (.escaped (← escapeMeaning? letter) :: before) rest
  | c :: rest => if c < ' ' || c == '\\' then none else scanFrom? (.plain c :: before) rest

/-- Whether digits may stand before the point: there is at least one, and a zero in front stands
alone. -/
def Number.isWhole : List Char → Bool
  | [] => false
  | ['0'] => true
  | '0' :: _ => false
  | _ => true

/-- Scan an exponent, if one stands here. -/
def Exponent.scan? : List Char → Option (Option Exponent × List Char)
  | [] => some (none, [])
  | c :: rest =>
    if c = 'e' ∨ c = 'E' then
      let (negative, rest) := match rest with
        | '-' :: rest => (true, rest)
        | '+' :: rest => (false, rest)
        | rest => (false, rest)
      let digits := rest.takeWhile Char.isDigit
      if digits.isEmpty then none else some (some ⟨negative, digits⟩, rest.dropWhile Char.isDigit)
    else some (none, c :: rest)

/-- Scan the fraction of a number, if one stands here. -/
def Number.scanFraction? : List Char → Option (List Char × List Char)
  | '.' :: rest =>
    let digits := rest.takeWhile Char.isDigit
    if digits.isEmpty then none else some (digits, rest.dropWhile Char.isDigit)
  | rest => some ([], rest)

/-- Scan a number.  Gives the number and what follows it. -/
def Number.scan? (cs : List Char) : Option (Number × List Char) :=
  let (negative, cs) := match cs with
    | '-' :: rest => (true, rest)
    | cs => (false, cs)
  let whole := cs.takeWhile Char.isDigit
  if isWhole whole then do
    let (fraction, rest) ← scanFraction? (cs.dropWhile Char.isDigit)
    let (exponent, rest) ← Exponent.scan? rest
    some (⟨negative, whole, fraction, exponent⟩, rest)
  else none

/-- The token that a word stands for. -/
def Token.ofWord? (word : List Char) : Option Token :=
  [Token.null, Token.bool true, Token.bool false].find? fun token => token.chars == word

/-- Scan the token that starts with `c`.  Gives the token and what follows it. -/
def Token.next? (c : Char) (rest : List Char) : Option (Token × List Char) :=
  if c = '[' then some (.beginArray, rest)
  else if c = ']' then some (.endArray, rest)
  else if c = '{' then some (.beginObject, rest)
  else if c = '}' then some (.endObject, rest)
  else if c = ':' then some (.colon, rest)
  else if c = ',' then some (.comma, rest)
  else if c = '"' then (Quoted.scanFrom? [] rest).map fun (t, rest) => (.string t, rest)
  else if c = '-' ∨ c.isDigit then
    (Number.scan? (c :: rest)).map fun (n, rest) => (.number n, rest)
  else (ofWord? (c :: rest.takeWhile Char.isAlpha)).map fun token =>
    (token, rest.dropWhile Char.isAlpha)

/-! ### Scanning comes to an end -/

/-- What is left after dropping characters is no longer than the text. -/
theorem length_dropWhile_le (p : Char → Bool) (cs : List Char) :
    (cs.dropWhile p).length ≤ cs.length := (List.dropWhile_suffix p).length_le

/-- A quoted text takes at least its closing mark off the text that is scanned. -/
theorem Quoted.length_scanFrom? {before t : Quoted} {cs rest : List Char}
    (h : scanFrom? before cs = some (t, rest)) : rest.length < cs.length := by
  fun_induction scanFrom? before cs <;> simp_all [Option.bind_eq_some_iff] <;> grind

/-- Scanning for an exponent, which need not be there, makes a text no longer. -/
theorem Exponent.length_scan? {e : Option Exponent} {cs rest : List Char}
    (h : scan? cs = some (e, rest)) : rest.length ≤ cs.length := by
  unfold scan? at h
  have := @length_dropWhile_le
  grind

/-- Scanning for a fraction, which need not be there, makes a text no longer. -/
theorem Number.length_scanFraction? {ds cs rest : List Char}
    (h : scanFraction? cs = some (ds, rest)) : rest.length ≤ cs.length := by
  unfold scanFraction? at h
  have := @length_dropWhile_le
  grind

/-- The digits of a whole number are at least one character. -/
theorem Number.length_dropWhile_isWhole {cs : List Char}
    (h : isWhole (cs.takeWhile Char.isDigit) = true) :
    (cs.dropWhile Char.isDigit).length < cs.length := by
  cases cs with
  | nil => simp [isWhole] at h
  | cons c cs =>
    have hc : c.isDigit = true := by
      by_cases hc : c.isDigit = true
      · exact hc
      · simp [hc, isWhole] at h
    have := length_dropWhile_le Char.isDigit cs
    simp only [List.dropWhile_cons, hc, if_true, List.length_cons]
    omega

/-- A number takes at least one character off the text that is scanned. -/
theorem Number.length_scan? {n : Number} {cs rest : List Char}
    (h : scan? cs = some (n, rest)) : rest.length < cs.length := by
  unfold scan? at h
  split at h
  all_goals
    simp only at h
    split at h
    · next hwhole =>
      have h₀ := length_dropWhile_isWhole hwhole
      simp only [Option.bind_eq_bind, Option.bind_eq_some_iff, Prod.exists, Option.some.injEq,
        Prod.mk.injEq] at h
      obtain ⟨fraction, afterFraction, hf, e, afterExponent, he, -, rfl⟩ := h
      have h₁ := length_scanFraction? hf
      have h₂ := Exponent.length_scan? he
      grind
    · contradiction

/-- Every token takes at least one character. -/
theorem Token.length_next? {c : Char} {token : Token} {cs rest : List Char}
    (h : next? c cs = some (token, rest)) : rest.length ≤ cs.length := by
  unfold next? at h
  repeat' split at h
  all_goals
    simp only [Option.map_eq_some_iff, Option.some.injEq, Prod.mk.injEq, Prod.exists] at h
  all_goals try obtain ⟨-, rfl⟩ := h; exact Nat.le_refl _
  · obtain ⟨t, r, ht, -, rfl⟩ := h
    exact Nat.le_of_lt (Quoted.length_scanFrom? ht)
  · obtain ⟨n, r, hn, -, rfl⟩ := h
    exact Nat.le_of_lt_succ (Number.length_scan? hn)
  · obtain ⟨t, -, -, rfl⟩ := h
    exact length_dropWhile_le _ _

/-- Cut a text into tokens, after those of `before`, which are kept in reverse. -/
def Token.scanFrom? (before : List Token) (cs : List Char) : Option (List Token) :=
  match cs with
  | [] => some before.reverse
  | c :: rest =>
    if isBlank c then scanFrom? before rest
    else match h : next? c rest with
      | none => none
      | some (token, rest') =>
        have : rest'.length ≤ rest.length := length_next? h
        scanFrom? (token :: before) rest'
termination_by cs.length

/-- The tokens of a text. -/
def Token.scan? (cs : List Char) : Option (List Token) := scanFrom? [] cs

end LatticeScene.Json
