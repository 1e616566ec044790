/-!
# JSON trees

A `Tree` is a JSON value as it is spelled.  Numbers keep their digits and strings keep their
escapes, so that what a spelling means is decided where it is used: the same literal may be
asked for an integer or for a number of limited precision, and a string that is never looked
at may hold escapes that stand for no character.

`Quoted.toString?` gives the characters that a string stands for, and `Quoted.ofString` spells a
string with the fewest escapes.
-/

namespace LatticeScene.Json

/-- One unit of a string as it is spelled between its quotes. -/
inductive QuotedUnit where
  /-- A character that stands for itself. -/
  | plain (c : Char)
  /-- A backslash and a letter; `c` is the character meant. -/
  | escaped (c : Char)
  /-- A backslash, the letter `u` and four hexadecimal digits. -/
  | codeUnit (value : Nat)
deriving DecidableEq, Repr

/-- A string as it is spelled between its quotes. -/
abbrev Quoted := List QuotedUnit

/-- The exponent of a number. -/
structure Exponent where
  /-- Whether the exponent is written with a minus sign. -/
  negative : Bool
  /-- The digits of the exponent. -/
  digits : List Char
deriving DecidableEq, Repr

/-- A number as it is spelled: sign, digits before and after the point, exponent. -/
structure Number where
  /-- Whether the number starts with a minus sign. -/
  negative : Bool
  /-- The digits before the point. -/
  whole : List Char
  /-- The digits after the point, none when there is no point. -/
  fraction : List Char
  /-- The exponent, if one is written. -/
  exponent : Option Exponent
deriving DecidableEq, Repr

/-- A JSON value as it is spelled, without the blanks between its tokens. -/
inductive Tree where
  | null
  | bool (value : Bool)
  | number (value : Number)
  | string (value : Quoted)
  | array (items : List Tree)
  | object (members : List (Quoted × Tree))

/-- The letter after a backslash and the character that the two stand for. -/
def escapes : List (Char × Char) :=
  [('"', '"'), ('\\', '\\'), ('/', '/'), ('b', '\x08'), ('f', '\x0c'), ('n', '\n'),
    ('r', '\r'), ('t', '\t')]

/-- The character that a backslash and `letter` stand for. -/
def escapeMeaning? (letter : Char) : Option Char :=
  (escapes.find? fun entry => entry.1 == letter).map (·.2)

/-- The letter that stands for `c` after a backslash. -/
def escapeLetter? (c : Char) : Option Char :=
  (escapes.find? fun entry => entry.2 == c).map (·.1)

namespace Quoted

/-- Whether a code unit is the first half of a surrogate pair. -/
def isHighSurrogate (u : Nat) : Bool := 0xD800 ≤ u && u ≤ 0xDBFF

/-- Whether a code unit is the second half of a surrogate pair. -/
def isLowSurrogate (u : Nat) : Bool := 0xDC00 ≤ u && u ≤ 0xDFFF

/-- The characters that a string stands for after those of `before`, which are kept in reverse.
Two code units that form a surrogate pair stand for one character; a surrogate on its own
stands for none, and a string with one has no meaning. -/
def charsFrom? (before : List Char) : Quoted → Option (List Char)
  | [] => some before.reverse
  | .plain c :: rest => charsFrom? (c :: before) rest
  | .escaped c :: rest => charsFrom? (c :: before) rest
  | .codeUnit u :: rest =>
    if isLowSurrogate u then none
    else if isHighSurrogate u then
      match rest with
      | .codeUnit v :: rest =>
        if isLowSurrogate v then
          charsFrom? (Char.ofNat (0x10000 + (u - 0xD800) * 0x400 + (v - 0xDC00)) :: before) rest
        else none
      | _ => none
    else charsFrom? (Char.ofNat u :: before) rest

/-- The characters that a quoted string stands for. -/
def chars? (t : Quoted) : Option (List Char) := charsFrom? [] t

/-- The string that a quoted string stands for. -/
def toString? (t : Quoted) : Option String := t.chars?.map String.ofList

/-- The spelling of one character: itself, a backslash and a letter where one stands for it,
or its code where it is another control character. -/
def unitOf (c : Char) : QuotedUnit :=
  if c = '/' then .plain c
  else match escapeLetter? c with
    | some _ => .escaped c
    | none => if c < ' ' then .codeUnit c.toNat else .plain c

/-- The spelling of a string with the fewest escapes. -/
def ofString (s : String) : Quoted := s.toList.map unitOf

/-- The characters of a string that is spelled without any escape. -/
def plainChars? (t : Quoted) : Option (List Char) :=
  t.mapM fun
    | .plain c => some c
    | _ => none

end Quoted

end LatticeScene.Json
