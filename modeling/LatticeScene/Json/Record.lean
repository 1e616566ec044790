import LatticeScene.Json.Numeral
import LatticeScene.Json.Text

/-!
# Records in JSON

How values of known shape are found in a tree and spelled as one.

A record is an object with one member per field or an array of the fields in order.
`Tree.fields?` finds the fields of a record: each may have several names, members with other
names are passed over, and a field that is there twice makes the record unreadable.  What to do
about a missing field is up to the reader: `required?` insists on it and `orDefault?` does not.

The readers for single values take exactly the tokens they are named for; in particular a
number is never read from a string, nor an integer from a number with a point.
-/

namespace LatticeScene.Json

namespace Tree

variable {α : Type}

/-! ### Reading -/

/-- The names under which a field may appear. -/
abbrev Names := List String

/-- The field with the given names among the members of an object: none if it is missing, and
unreadable if it is there twice. -/
def field? (members : List (String × Tree)) (names : Names) : Option (Option Tree) :=
  match members.filter fun member => names.contains member.1 with
  | [] => some none
  | [member] => some (some member.2)
  | _ => none

/-- The fields of a record, in the order of `names`; a missing field is `none`. -/
def fields? (names : List Names) : Tree → Option (List (Option Tree))
  | .object members => do
    let members ← members.mapM fun member => return (← member.1.toString?, member.2)
    names.mapM (field? members)
  | .array items =>
    if items.length ≤ names.length then
      some (items.map some ++ List.replicate (names.length - items.length) none)
    else none
  | _ => none

/-- Read a field that has to be there. -/
def required? (read : Tree → Option α) (field : Option Tree) : Option α := field.bind read

/-- Read a field that stands for `default` when it is missing. -/
def orDefault? (default : α) (read : Tree → Option α) : Option Tree → Option α
  | none => some default
  | some tree => read tree

/-- Read `null` as nothing. -/
def orNull? (read : Tree → Option α) : Tree → Option (Option α)
  | .null => some none
  | tree => (read tree).map some

/-- Read an array of values of one kind. -/
def list? (read : Tree → Option α) : Tree → Option (List α)
  | .array items => items.mapM read
  | _ => none

/-- Read an integer from zero up to `max`. -/
def natUpTo? (max : Nat) : Tree → Option Nat
  | .number n => n.natUpTo? max
  | _ => none

/-- Read an integer of 32 bits without sign. -/
def nat32? : Tree → Option Nat := natUpTo? (UInt32.size - 1)

/-- Read an integer of 64 bits without sign. -/
def nat64? : Tree → Option Nat := natUpTo? (UInt64.size - 1)

/-- Read an integer of 64 bits with sign. -/
def int64? : Tree → Option Int
  | .number n => n.int64?
  | _ => none

/-- Read a binary32 number. -/
def float32? : Tree → Option Float32
  | .number n => n.toBinary32?
  | _ => none

/-- Read a string. -/
def string? : Tree → Option String
  | .string t => t.toString?
  | _ => none

/-- Read an object as a map from integers of 32 bits, each key spelled exactly like the integer
it stands for.  The entries come in the order of the text. -/
def nat32Map? (read : Tree → Option α) : Tree → Option (List (Nat × α))
  | .object members => members.mapM fun member => do
    let key ← member.1.plainChars?
    match ← Number.scan? key with
    | (n, []) => return (← n.natUpTo? (UInt32.size - 1), ← read member.2)
    | _ => none
  | _ => none

/-! ### Writing -/

/-- The spelling of a string. -/
def ofString (s : String) : Tree := .string (Quoted.ofString s)

/-- The spelling of a natural number. -/
def ofNat (k : Nat) : Tree := .number (.ofNat k)

/-- The spelling of an integer. -/
def ofInt (i : Int) : Tree := .number (.ofInt i)

/-- The spelling of a binary32 number; one that is not finite is `null`. -/
def ofFloat32 (x : Float32) : Tree :=
  match Number.ofBinary32? x with
  | some n => .number n
  | none => .null

/-- The spelling of a value that may be missing. -/
def ofOption (write : α → Tree) : Option α → Tree
  | none => .null
  | some a => write a

/-- The spelling of a list. -/
def ofList (write : α → Tree) (xs : List α) : Tree := .array (xs.map write)

/-- The spelling of a record as an object. -/
def record (members : List (String × Tree)) : Tree :=
  .object (members.map fun member => (Quoted.ofString member.1, member.2))

end Tree

end LatticeScene.Json
