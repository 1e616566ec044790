import LatticeScene.Json.Token

/-!
# JSON texts

Trees are written as texts, and read from them.
-/

namespace LatticeScene.Json

/-!
## Writing JSON texts

A tree is written in one of two ways: `Tree.compact` puts its tokens side by side, and
`Tree.pretty` gives every item and every member a line of its own, indented by two blanks for
each container around it, with an empty container on one line.
-/

namespace Tree

mutual

/-- The tokens of a tree. -/
def tokens : Tree → List Token
  | .null => [.null]
  | .bool b => [.bool b]
  | .number n => [.number n]
  | .string t => [.string t]
  | .array items => .beginArray :: itemTokens items
  | .object members => .beginObject :: memberTokens members

/-- The tokens of the items of an array, up to its end. -/
def itemTokens : List Tree → List Token
  | [] => [.endArray]
  | [item] => item.tokens ++ [.endArray]
  | item :: items => item.tokens ++ .comma :: itemTokens items

/-- The tokens of the members of an object, up to its end. -/
def memberTokens : List (Quoted × Tree) → List Token
  | [] => [.endObject]
  | [(key, value)] => .string key :: .colon :: value.tokens ++ [.endObject]
  | (key, value) :: members =>
    .string key :: .colon :: value.tokens ++ .comma :: memberTokens members

end

/-- The text of a tree without blanks. -/
def compact (tree : Tree) : String := String.ofList (tree.tokens.flatMap Token.chars)

/-- A line break and the indentation of `depth` containers. -/
def lineBreak (depth : Nat) : List Char := '\n' :: List.replicate (2 * depth) ' '

mutual

/-- The characters of a tree that stands inside `depth` containers. -/
def prettyChars (depth : Nat) : Tree → List Char
  | .array [] => ['[', ']']
  | .object [] => ['{', '}']
  | .array (item :: items) =>
    '[' :: lineBreak (depth + 1) ++ prettyChars (depth + 1) item ++ prettyItems depth items
  | .object ((key, value) :: members) =>
    '{' :: lineBreak (depth + 1) ++ (Token.string key).chars ++ ':' :: ' ' ::
      prettyChars (depth + 1) value ++ prettyMembers depth members
  | .null => Token.null.chars
  | .bool b => (Token.bool b).chars
  | .number n => n.chars
  | .string t => (Token.string t).chars

/-- The characters of the items that follow the first one of an array inside `depth`
containers, up to its end. -/
def prettyItems (depth : Nat) : List Tree → List Char
  | [] => lineBreak depth ++ [']']
  | item :: items =>
    ',' :: lineBreak (depth + 1) ++ prettyChars (depth + 1) item ++ prettyItems depth items

/-- The characters of the members that follow the first one of an object inside `depth`
containers, up to its end. -/
def prettyMembers (depth : Nat) : List (Quoted × Tree) → List Char
  | [] => lineBreak depth ++ ['}']
  | (key, value) :: members =>
    ',' :: lineBreak (depth + 1) ++ (Token.string key).chars ++ ':' :: ' ' ::
      prettyChars (depth + 1) value ++ prettyMembers depth members

end

/-- The text of a tree with a line for every item and member. -/
def pretty (tree : Tree) : String := String.ofList (tree.prettyChars 0)

end Tree

/-!
## Reading JSON texts

A tree is put together from its tokens one at a time.  Between two tokens the `Progress` is
either a complete tree, or the containers that are open, innermost first, with what may come
next in the innermost one.  Nesting costs no recursion, so its depth has no limit.

`Tree.ofTokens?` puts a whole token list together and `Tree.read?` reads a text.
-/

/-- A container whose end has not been reached, with what it holds so far in reverse. -/
inductive OpenContainer where
  /-- An array. -/
  | array (items : List Tree)
  /-- An object between two members. -/
  | object (members : List (Quoted × Tree))
  /-- An object with the key of the member whose value is being read. -/
  | member (members : List (Quoted × Tree)) (key : Quoted)

/-- What may come next in the innermost open container. -/
inductive Expected where
  /-- A value. -/
  | value
  /-- The first item of an array, or its end. -/
  | itemOrEnd
  /-- The first key of an object, or its end. -/
  | keyOrEnd
  /-- A key. -/
  | key
  /-- The colon after a key. -/
  | colon
  /-- A comma, or the end of the container. -/
  | commaOrEnd

/-- How far a tree has been read. -/
inductive Progress where
  /-- Something is still to come. -/
  | reading (expected : Expected) (outer : List OpenContainer)
  /-- The tree is complete, and nothing may follow it. -/
  | complete (tree : Tree)

namespace Progress

/-- Nothing has been read yet. -/
def start : Progress := reading .value []

/-- Put a finished value into the innermost open container.  An object between two members takes
no value, and none is ever expected there. -/
def deliver (tree : Tree) : List OpenContainer → Progress
  | .array items :: outer => reading .commaOrEnd (.array (tree :: items) :: outer)
  | .member members key :: outer => reading .commaOrEnd (.object ((key, tree) :: members) :: outer)
  | .object members :: outer => reading .commaOrEnd (.object members :: outer)
  | [] => complete tree

/-- Take a token that starts a value, or is one. -/
def beginValue (outer : List OpenContainer) : Token → Option Progress
  | .beginArray => some (reading .itemOrEnd (.array [] :: outer))
  | .beginObject => some (reading .keyOrEnd (.object [] :: outer))
  | .null => some (deliver .null outer)
  | .bool b => some (deliver (.bool b) outer)
  | .number n => some (deliver (.number n) outer)
  | .string t => some (deliver (.string t) outer)
  | _ => none

/-- Take one token. -/
def feed : Progress → Token → Option Progress
  | reading .value outer, token => beginValue outer token
  | reading .itemOrEnd (.array items :: outer), .endArray =>
    some (deliver (.array items.reverse) outer)
  | reading .itemOrEnd outer, token => beginValue outer token
  | reading .keyOrEnd (.object members :: outer), .endObject =>
    some (deliver (.object members.reverse) outer)
  | reading .keyOrEnd (.object members :: outer), .string key =>
    some (reading .colon (.member members key :: outer))
  | reading .key (.object members :: outer), .string key =>
    some (reading .colon (.member members key :: outer))
  | reading .colon outer, .colon => some (reading .value outer)
  | reading .commaOrEnd (.array items :: outer), .comma =>
    some (reading .value (.array items :: outer))
  | reading .commaOrEnd (.array items :: outer), .endArray =>
    some (deliver (.array items.reverse) outer)
  | reading .commaOrEnd (.object members :: outer), .comma =>
    some (reading .key (.object members :: outer))
  | reading .commaOrEnd (.object members :: outer), .endObject =>
    some (deliver (.object members.reverse) outer)
  | _, _ => none

end Progress

/-- The tree that a list of tokens spells. -/
def Tree.ofTokens? (tokens : List Token) : Option Tree :=
  match tokens.foldlM Progress.feed Progress.start with
  | some (.complete tree) => some tree
  | _ => none

/-- The tree that a text spells. -/
def Tree.read? (text : String) : Option Tree := do
  Tree.ofTokens? (← Token.scan? text.toList)

end LatticeScene.Json
