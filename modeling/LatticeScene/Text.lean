/-!
# Texts

Texts are lists of characters here.  They are cut into parts, the parts are trimmed, and some of
them name flags or give hexadecimal digits.
-/

namespace LatticeScene.Text

/-!
## Hexadecimal digits

The value of a hexadecimal digit, which may be written in either case.
-/

/-- The value of a hexadecimal digit. -/
def hexValue? (c : Char) : Option Nat :=
  if '0' ≤ c ∧ c ≤ '9' then some (c.toNat - '0'.toNat)
  else if 'a' ≤ c ∧ c ≤ 'f' then some (c.toNat - 'a'.toNat + 10)
  else if 'A' ≤ c ∧ c ≤ 'F' then some (c.toNat - 'A'.toNat + 10)
  else none

/-!
## Cutting text into parts

`parts` cuts a text at every occurrence of a separator, and `trim` takes the blanks off both ends of
a text.  The blanks are all characters with the Unicode property `White_Space`.
-/

/-- The parts of a text between the occurrences of `separator`.  There is always one more part
than there are separators. -/
def parts (separator : Char) : List Char → List (List Char)
  | [] => [[]]
  | c :: cs =>
    if c = separator then [] :: parts separator cs
    else match parts separator cs with
      | [] => [[c]]
      | first :: others => (c :: first) :: others

/-- The first and last characters of the ranges with the property `White_Space`. -/
def blankRanges : List (Nat × Nat) :=
  [(0x09, 0x0D), (0x20, 0x20), (0x85, 0x85), (0xA0, 0xA0), (0x1680, 0x1680), (0x2000, 0x200A),
    (0x2028, 0x2029), (0x202F, 0x202F), (0x205F, 0x205F), (0x3000, 0x3000)]

/-- Whether a character has the property `White_Space`. -/
def isBlank (c : Char) : Bool :=
  blankRanges.any fun range => range.1 ≤ c.toNat && c.toNat ≤ range.2

/-- A text without the blanks at its ends. -/
def trim (cs : List Char) : List Char :=
  ((cs.dropWhile isBlank).reverse.dropWhile isBlank).reverse

/-!
## Where texts are cut

A text is cut at every separator, or where the first character stands that is not of some kind.  The
first is `List.splitOn` (`parts_eq_splitOn`).  The second gives back what was put together, if the
kind changes there (`takeWhile_append`, `dropWhile_append`).
-/

/-- The parts of a text are those between its separators. -/
theorem parts_eq_splitOn (separator : Char) (cs : List Char) :
    parts separator cs = cs.splitOn separator := by
  induction cs with
  | nil => rfl
  | cons c cs ih =>
    rw [parts, List.splitOn_cons_eq_if_modifyHead, ih]
    simp only [beq_iff_eq]
    by_cases h : c = separator
    · rw [if_pos h, if_pos h]
    · rw [if_neg h, if_neg h]
      cases hparts : cs.splitOn separator with
      | nil => exact absurd hparts (List.splitOn_ne_nil separator cs)
      | cons first others => rfl

section Spans

variable {p : Char → Bool} {front rest : List Char}

/-- Characters are taken up to the first one that does not count. -/
theorem takeWhile_append (hfront : ∀ c ∈ front, p c = true)
    (hrest : ∀ c ∈ rest.head?, p c = false) :
    (front ++ rest).takeWhile p = front := by
  rw [List.takeWhile_append_of_pos hfront]
  cases rest with
  | nil => exact List.append_nil front
  | cons c rest =>
    rw [List.takeWhile_cons_of_neg (ne_true_of_eq_false (hrest c rfl)), List.append_nil]

/-- Characters are dropped up to the first one that does not count. -/
theorem dropWhile_append (hfront : ∀ c ∈ front, p c = true)
    (hrest : ∀ c ∈ rest.head?, p c = false) :
    (front ++ rest).dropWhile p = rest := by
  rw [List.dropWhile_append_of_pos hfront]
  cases rest with
  | nil => rfl
  | cons c rest => exact List.dropWhile_cons_of_neg (ne_true_of_eq_false (hrest c rfl))

end Spans

/-!
## Sets of named flags

A set of flags is held in the bits of a byte.  Its text names the flags it contains, in the
order in which they are declared and with a bar between them; bits without a name follow in
hexadecimal.

A text may name flags in any order and repeatedly, and may give any bits in hexadecimal.  The
empty text stands for no flags, but between two bars a flag has to be named.
-/

/-- A name for some of the bits of a set of flags. -/
structure NamedFlag where
  name : String
  bits : UInt8
deriving DecidableEq, Repr

namespace NamedFlag

/-- The names of the flags that are contained in `bits`, and the bits that are left over.  A flag
is named only if some of its bits have no name yet. -/
def named (bits : UInt8) : List NamedFlag → UInt8 → List String × UInt8
  | [], left => ([], left)
  | flag :: flags, left =>
    if bits &&& flag.bits == flag.bits && left &&& flag.bits != 0 then
      let (names, left) := named bits flags (left &&& ~~~flag.bits)
      (flag.name :: names, left)
    else named bits flags left

/-- The text of a set of flags. -/
def write (flags : List NamedFlag) (bits : UInt8) : String :=
  let (names, left) := named bits flags bits
  let unnamed := if left = 0 then [] else ["0x" ++ String.ofList (Nat.toDigits 16 left.toNat)]
  " | ".intercalate (names ++ unnamed)

/-- The value of hexadecimal digits after those that make up `value`, none when it passes the
range of a byte. -/
def hexFrom? (value : Nat) : List Char → Option Nat
  | [] => some value
  | c :: cs => do
    let next := 16 * value + (← hexValue? c)
    if next < UInt8.size then hexFrom? next cs else none

/-- The byte that hexadecimal digits stand for, with a plus sign in front or without. -/
def hexByte? (cs : List Char) : Option UInt8 :=
  let digits := match cs with
    | '+' :: rest => rest
    | cs => cs
  if digits.isEmpty then none else (hexFrom? 0 digits).map Nat.toUInt8

/-- The bits that one part of a text stands for. -/
def readPart? (flags : List NamedFlag) (part : List Char) : Option UInt8 :=
  match part with
  | [] => none
  | '0' :: 'x' :: digits => hexByte? digits
  | part => (flags.find? fun flag => flag.name.toList == part).map (·.bits)

/-- The set of flags that a text stands for. -/
def read? (flags : List NamedFlag) (text : String) : Option UInt8 :=
  if (trim text.toList).isEmpty then some 0
  else (parts '|' text.toList).foldlM (fun bits part => do
    return bits ||| (← readPart? flags (trim part))) 0

end NamedFlag

end LatticeScene.Text
