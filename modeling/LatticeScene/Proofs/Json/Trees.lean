import LatticeScene.Json.Text
import LatticeScene.Proofs.Json.Scanning

/-!
# Trees read back

Whatever text writes the tokens of a tree is read as that tree (`Tree.SpelledBy.read?`).  The
tokens are scanned one by one because those of a tree are separated: between two values there is a
comma, and before the value of a member a colon (`Tree.separated_tokens`).  Fed to a `Progress` that
expects a value, they deliver the tree to the container around it, whatever follows
(`Tree.delivers`).
-/

namespace LatticeScene.Json

/-! ### Induction -/

/-- An item is smaller than the array it is in. -/
theorem Tree.sizeOf_item_lt {items : List Tree} {item : Tree} (h : item ∈ items) :
    sizeOf item < sizeOf (Tree.array items) := by
  have := List.sizeOf_lt_of_mem h
  simp only [array.sizeOf_spec]
  omega

/-- A value is smaller than the object it is in. -/
theorem Tree.sizeOf_member_lt {members : List (Quoted × Tree)} {member : Quoted × Tree}
    (h : member ∈ members) : sizeOf member.2 < sizeOf (Tree.object members) := by
  have := List.sizeOf_lt_of_mem h
  obtain ⟨key, value⟩ := member
  simp only [object.sizeOf_spec, Prod.mk.sizeOf_spec] at *
  omega

/-- What holds of a container as soon as it holds of everything in it holds of all trees. -/
@[elab_as_elim]
theorem Tree.induction {motive : Tree → Prop} (null : motive .null)
    (bool : ∀ b, motive (.bool b)) (number : ∀ n, motive (.number n))
    (string : ∀ t, motive (.string t))
    (array : ∀ items, (∀ item ∈ items, motive item) → motive (.array items))
    (object : ∀ members, (∀ member ∈ members, motive member.2) → motive (.object members))
    (tree : Tree) : motive tree :=
  match tree with
  | .null => null
  | .bool b => bool b
  | .number n => number n
  | .string t => string t
  | .array items => array items fun item _ => item.induction null bool number string array object
  | .object members =>
    object members fun member _ => member.2.induction null bool number string array object
termination_by sizeOf tree
decreasing_by
  · exact sizeOf_item_lt ‹_›
  · exact sizeOf_member_lt ‹_›

/-! ### Putting tokens together -/

section Feeding

/-- Where a value may come, a token begins one unless it ends an array. -/
theorem feed_eq_beginValue {expected : Expected} (h : expected = .value ∨ expected = .itemOrEnd)
    (outer : List OpenContainer) (token : Token) (htoken : token ≠ .endArray) :
    Progress.feed (.reading expected outer) token = Progress.beginValue outer token := by
  rcases h with rfl | rfl
  · rfl
  · simp [Progress.feed, htoken]

/-- Where a value may come, the tokens of a tree deliver it to the container around it. -/
def Tree.Delivers (tree : Tree) : Prop :=
  ∀ expected, (expected = .value ∨ expected = .itemOrEnd) → ∀ outer rest,
    (tree.tokens ++ rest).foldlM Progress.feed (.reading expected outer) =
      rest.foldlM Progress.feed (Progress.deliver tree outer)

variable (outer : List OpenContainer) (rest : List Token)

/-- The tokens of the items that are left complete an array. -/
theorem foldlM_itemTokens {items : List Tree} (hitems : ∀ item ∈ items, item.Delivers)
    (hne : items ≠ []) {expected : Expected} (h : expected = .value ∨ expected = .itemOrEnd)
    (before : List Tree) :
    (Tree.itemTokens items ++ rest).foldlM Progress.feed
        (.reading expected (.array before :: outer)) =
      rest.foldlM Progress.feed (Progress.deliver (.array (before.reverse ++ items)) outer) := by
  induction items generalizing expected before with
  | nil => exact absurd rfl hne
  | cons item items ih =>
    have hitem := hitems item List.mem_cons_self expected h (.array before :: outer)
    cases items with
    | nil =>
      rw [Tree.itemTokens, List.append_assoc, hitem, ← List.reverse_cons]
      rfl
    | cons next items =>
      -- after the comma an item must follow, and `item` is among those that are there
      have hrest := ih (fun i hi => hitems i (List.mem_cons_of_mem item hi)) (List.cons_ne_nil _ _)
        (Or.inl rfl) (item :: before)
      rw [List.reverse_cons, List.append_assoc, List.singleton_append] at hrest
      rw [Tree.itemTokens, List.append_assoc, hitem, ← hrest]
      · rfl
      · exact nofun

/-- The tokens of the members that are left complete an object. -/
theorem foldlM_memberTokens {members : List (Quoted × Tree)}
    (hmembers : ∀ member ∈ members, member.2.Delivers) (hne : members ≠ []) {expected : Expected}
    (h : expected = .keyOrEnd ∨ expected = .key) (before : List (Quoted × Tree)) :
    (Tree.memberTokens members ++ rest).foldlM Progress.feed
        (.reading expected (.object before :: outer)) =
      rest.foldlM Progress.feed (Progress.deliver (.object (before.reverse ++ members)) outer) := by
  induction members generalizing expected before with
  | nil => exact absurd rfl hne
  | cons member members ih =>
    obtain ⟨key, value⟩ := member
    -- a key and its colon are taken alike, whether an end could have come in their place or not
    have hkey : ∀ tokens, (Token.string key :: .colon :: tokens).foldlM Progress.feed
        (.reading expected (.object before :: outer)) =
          tokens.foldlM Progress.feed (.reading .value (.member before key :: outer)) := by
      rcases h with rfl | rfl <;> exact fun _ => rfl
    have hvalue := hmembers (key, value) List.mem_cons_self .value (Or.inl rfl)
      (.member before key :: outer)
    cases members with
    | nil =>
      simp only [Tree.memberTokens, List.cons_append, List.append_assoc, List.nil_append]
      rw [hkey, hvalue, ← List.reverse_cons]
      rfl
    | cons next members =>
      have hrest := ih (fun m hm => hmembers m (List.mem_cons_of_mem _ hm)) (List.cons_ne_nil _ _)
        (Or.inr rfl) ((key, value) :: before)
      rw [List.reverse_cons, List.append_assoc, List.singleton_append] at hrest
      rw [Tree.memberTokens]
      · simp only [List.cons_append, List.append_assoc]
        rw [hkey, hvalue, ← hrest]
        rfl
      · exact nofun

end Feeding

namespace Tree

/-- Every tree is delivered by its tokens. -/
theorem delivers (tree : Tree) : tree.Delivers := by
  intro expected h outer rest
  -- what is expected next and what is open around the tree stay general
  induction tree using Tree.induction generalizing expected outer rest with
  | null | bool b | number n | string t =>
    rw [tokens, List.singleton_append, List.foldlM_cons, feed_eq_beginValue h outer]
    · rfl
    · exact nofun
  | array items ih =>
    rw [tokens, List.cons_append, List.foldlM_cons, feed_eq_beginValue h outer .beginArray nofun]
    by_cases hitems : items = []
    · subst hitems
      rfl
    · exact foldlM_itemTokens outer rest ih hitems (Or.inr rfl) []
  | object members ih =>
    rw [tokens, List.cons_append, List.foldlM_cons, feed_eq_beginValue h outer .beginObject nofun]
    by_cases hmembers : members = []
    · subst hmembers
      rfl
    · exact foldlM_memberTokens outer rest ih hmembers (Or.inl rfl) []

/-- A tree is put together from its tokens. -/
theorem ofTokens?_tokens (tree : Tree) : Tree.ofTokens? tree.tokens = some tree := by
  have h := tree.delivers .value (Or.inl rfl) [] []
  rw [List.append_nil] at h
  rw [Tree.ofTokens?, Progress.start, h]
  rfl

end Tree

/-! ### Separation -/

section Separation

/-- The tokens of a tree are separated if those after it are and do not start with a number or a
word. -/
def Tree.IsSeparated (tree : Tree) : Prop :=
  ∀ after, Separated after → (∀ next ∈ after.head?, next.isOpen = false) →
    Separated (tree.tokens ++ after)

variable {after : List Token} (hafter : Separated after)
include hafter

/-- A bracket, a colon or a comma separates what is next to it. -/
theorem separated_cons {token : Token} (h : token.isOpen = false) : Separated (token :: after) :=
  ⟨fun hopen => absurd hopen (ne_true_of_eq_false h), hafter⟩

/-- The items of an array are separated from each other and from what follows, if each of them is.
-/
theorem separated_itemTokens {items : List Tree} (hitems : ∀ item ∈ items, item.IsSeparated) :
    Separated (Tree.itemTokens items ++ after) := by
  induction items with
  | nil => exact separated_cons hafter rfl
  | cons item items ih =>
    have hrest := ih fun i hi => hitems i (List.mem_cons_of_mem item hi)
    cases items with
    | nil =>
      rw [Tree.itemTokens, List.append_assoc]
      exact hitems item List.mem_cons_self _ hrest fun _ h => Option.some.inj h ▸ rfl
    | cons next items =>
      rw [Tree.itemTokens, List.append_assoc]
      · exact hitems item List.mem_cons_self _ (separated_cons hrest rfl)
          fun _ h => Option.some.inj h ▸ rfl
      · exact nofun

/-- The members of an object are separated from each other and from what follows, if each of their
values is. -/
theorem separated_memberTokens {members : List (Quoted × Tree)}
    (hmembers : ∀ member ∈ members, member.2.IsSeparated) :
    Separated (Tree.memberTokens members ++ after) := by
  induction members with
  | nil => exact separated_cons hafter rfl
  | cons member members ih =>
    obtain ⟨key, value⟩ := member
    have hvalue := hmembers (key, value) List.mem_cons_self
    have hrest := ih fun m hm => hmembers m (List.mem_cons_of_mem _ hm)
    cases members with
    | nil =>
      simp only [Tree.memberTokens, List.cons_append, List.append_assoc, List.nil_append]
      refine separated_cons (separated_cons ?_ rfl) rfl
      exact hvalue _ hrest fun _ h => Option.some.inj h ▸ rfl
    | cons next members =>
      rw [Tree.memberTokens]
      · simp only [List.cons_append, List.append_assoc]
        refine separated_cons (separated_cons ?_ rfl) rfl
        exact hvalue _ (separated_cons hrest rfl) fun _ h => Option.some.inj h ▸ rfl
      · exact nofun

end Separation

namespace Tree

/-- The tokens of every tree are separated. -/
theorem isSeparated (tree : Tree) : tree.IsSeparated := by
  intro after hafter hnext
  induction tree using Tree.induction generalizing after with
  | null | bool b | number n | string t => exact ⟨fun _ => hnext, hafter⟩
  | array items ih => exact separated_cons (separated_itemTokens hafter ih) rfl
  | object members ih => exact separated_cons (separated_memberTokens hafter ih) rfl

/-- The tokens of a tree are separated. -/
theorem separated_tokens (tree : Tree) : Separated tree.tokens := by
  rw [← List.append_nil tree.tokens]
  exact tree.isSeparated [] trivial nofun

/-- What writes a tree is read as this tree. -/
theorem SpelledBy.read? {tree : Tree} {text : String} (h : tree.SpelledBy text) :
    Tree.read? text = some tree := by
  have hscan : Token.scan? text.toList = some tree.tokens :=
    Written.scanFrom? h tree.separated_tokens []
  rw [Tree.read?, hscan]
  exact tree.ofTokens?_tokens

end Tree

end LatticeScene.Json
