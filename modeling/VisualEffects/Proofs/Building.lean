import VisualEffects.Proofs.Spellings

namespace VisualEffects.Json

/-! A tree that can be read whole is spelled by the text that it was built of.

While a tree is built, what has been taken of the text is kept in it, token by token, until something stands where it
must not; from then on nothing reads the tree whole.
-/

namespace Node

section
variable {room : Nat} {value : Value}

theorem value_list_eq_ok {items : List Node} {ending : ListEnd} :
    (list items ending).value room = .ok value ↔
      ending = .closed ∧ ∃ below values, room = below + 1 ∧ valueItems below items = .ok values ∧
        value = .list values := by
  cases room with
  | zero => simp [Node.value]
  | succ room => cases ending <;> simp [Node.value, bind_eq_ok, Fault.check, ListEnd.fault?, @eq_comm _ value]

theorem value_object_eq_ok {members : List Member} {ending : ObjectEnd} :
    (object members ending).value room = .ok value ↔
      ending = .closed ∧ ∃ below values, room = below + 1 ∧ valueMembers below members = .ok values ∧
        value = .object values := by
  cases room with
  | zero => simp [Node.value]
  | succ room => cases ending <;> simp [Node.value, bind_eq_ok, Fault.check, ObjectEnd.fault?, @eq_comm _ value]

theorem valueItems_cons_eq_ok {item : Node} {rest : List Node} {values : List Value} :
    valueItems room (item :: rest) = .ok values ↔
      ∃ first others, item.value room = .ok first ∧ valueItems room rest = .ok others ∧ values = first :: others := by
  simp [valueItems, bind_eq_ok, -bind_pure_comp, pure, Except.pure, @eq_comm _ values]

theorem valueMembers_cons_eq_ok {key : Scanned String} {node : Node} {rest : List Member}
    {values : List (String × Value)} :
    valueMembers room ((key, node) :: rest) = .ok values ↔
      ∃ name first others, key.value = .ok name ∧ node.value room = .ok first ∧ valueMembers room rest = .ok others ∧
        values = (name, first) :: others := by
  simp [valueMembers, bind_eq_ok, -bind_pure_comp, pure, Except.pure, @eq_comm _ values]

theorem exists_value_of_mem {items : List Node} {values : List Value} (read : valueItems room items = .ok values) :
    ∀ item ∈ items, ∃ value, item.value room = .ok value := by
  induction items generalizing values with
  | nil => exact List.forall_mem_nil _
  | cons item rest ih =>
      obtain ⟨first, others, here, there, _⟩ := valueItems_cons_eq_ok.mp read
      exact List.forall_mem_cons.mpr ⟨⟨first, here⟩, ih there⟩

end

/-- Whether no reader of whole values gets through a tree. -/
def Unreadable (tree : Node) : Prop := ∀ room value, tree.value room ≠ .ok value

theorem unreadable_gap (cause : Gap) : (gap cause).Unreadable := nofun

theorem unreadable_list {items : List Node} {ending : ListEnd} (broken : ending.fault?.isSome = true) :
    (list items ending).Unreadable := by
  intro room value read
  obtain ⟨rfl, _⟩ := value_list_eq_ok.mp read
  cases broken

theorem unreadable_object {members : List Member} {ending : ObjectEnd} (broken : ending.fault?.isSome = true) :
    (object members ending).Unreadable := by
  intro room value read
  obtain ⟨rfl, _⟩ := value_object_eq_ok.mp read
  cases broken

theorem unreadable_closedList (items : List Node) (ending : ListEnd) :
    (list (items ++ [.gap .closedList]) ending).Unreadable := by
  intro room value read
  obtain ⟨_, below, values, _, inner, _⟩ := value_list_eq_ok.mp read
  obtain ⟨value, found⟩ := exists_value_of_mem inner (.gap .closedList) (List.mem_append_right _ List.mem_cons_self)
  exact unreadable_gap _ _ _ found

theorem unreadable_cut {node : Node} (unreadable : node.Unreadable) (around : List Frame) :
    (Progress.cut node around).Unreadable := by
  induction around generalizing node with
  | nil => exact unreadable
  | cons frame around ih =>
      cases frame with
      | list items => exact ih (unreadable_list rfl)
      | object members key => exact ih (unreadable_object rfl)

mutual
/-- The tokens that spell a tree. -/
def tokens : Node → List Token
  | .gap _ => []
  | .null => [.null]
  | .bool value => [.bool value]
  | .number scanned => [.number scanned]
  | .text scanned => [.text scanned]
  | .list [] _ => [.openList, .closeList]
  | .list (first :: others) _ => .openList :: first.tokens ++ tokensItems others
  | .object [] _ => [.openObject, .closeObject]
  | .object ((key, node) :: others) _ => .openObject :: .text key :: .colon :: node.tokens ++ tokensMembers others

/-- The tokens after the first item. -/
def tokensItems : List Node → List Token
  | [] => [.closeList]
  | item :: others => .comma :: item.tokens ++ tokensItems others

/-- The tokens after the first member. -/
def tokensMembers : List Member → List Token
  | [] => [.closeObject]
  | (key, node) :: others => .comma :: .text key :: .colon :: node.tokens ++ tokensMembers others
end

end Node

namespace Progress

open Node (tokensItems tokensMembers)

/-- Whether tokens open a list that has these items, last first, before an item that is due. -/
def ItemDue (items : List Node) (opened : List Token) : Prop :=
  ∀ item others, opened ++ item.tokens ++ tokensItems others = (Node.list (items.reverse ++ item :: others) .closed).tokens

/-- Whether tokens open an object with these members, last first, before the content of a key. -/
def ContentDue (members : List Member) (key : Scanned String) (opened : List Token) : Prop :=
  ∀ content others, opened ++ content.tokens ++ tokensMembers others =
    (Node.object (members.reverse ++ (key, content) :: others) .closed).tokens

/-- Whether tokens are what has been taken of the innermost open container, up to a place in it. -/
def Opened : Place → List Token → Prop
  | .value, opened => opened = []
  | .firstItem, opened => opened = [.openList]
  | .nextItem items, opened => ItemDue items opened
  | .afterItem items, opened =>
      ∀ others, opened ++ tokensItems others = (Node.list (items.reverse ++ others) .closed).tokens
  | .firstKey, opened => opened = [.openObject]
  | .nextKey members, opened => ∀ key, ContentDue members key (opened ++ [.text key, .colon])
  | .colon members key, opened => ContentDue members key (opened ++ [.colon])
  | .afterMember members, opened =>
      ∀ others, opened ++ tokensMembers others = (Node.object (members.reverse ++ others) .closed).tokens

/-- Whether tokens are what has been taken of the containers around a value. -/
inductive Around : List Frame → List Token → Prop
  | outermost : Around [] []
  | item (outside : Around around before) (due : ItemDue items opened) : Around (.list items :: around) (before ++ opened)
  | content (outside : Around around before) (due : ContentDue members key opened) :
      Around (.object members key :: around) (before ++ opened)

/-- Whether a progress keeps all tokens that have been taken, unless what it keeps cannot be read. -/
inductive Keeps : Progress → List Token → Prop
  | expecting {inner : List Token} (outside : Around around before) (opened : Opened place inner) :
      Keeps (.expecting place around) (before ++ inner)
  | complete : Keeps (.complete tree) tree.tokens
  | overlong : Keeps (.overlong tree) taken
  | broken (unreadable : tree.Unreadable) : Keeps (.broken tree) taken

variable {around : List Frame} {before : List Token}

theorem keeps_put (outside : Around around before) (node : Node) : Keeps (put node around) (before ++ node.tokens) := by
  cases outside with
  | outermost => exact .complete
  | item outside due =>
      rw [List.append_assoc]
      refine .expecting outside fun others => ?_
      rw [due, List.reverse_cons, List.append_assoc]
      rfl
  | content outside due =>
      rw [List.append_assoc]
      refine .expecting outside fun others => ?_
      rw [due, List.reverse_cons, List.append_assoc]
      rfl

theorem keeps_putScanned (outside : Around around before) {passed : Except Fault Unit} {node : Node}
    (passable : ∀ room value, node.value room = .ok value → passed = .ok ()) :
    Keeps (putScanned passed node around) (before ++ node.tokens) := by
  cases passed with
  | ok _ => exact keeps_put outside node
  | error fault =>
      refine .broken (Node.unreadable_cut (fun room value read => ?_) around)
      cases passable room value read

theorem keeps_startValue (outside : Around around before) {token : Token} (passable : token.Passable) :
    Keeps (startValue token around) (before ++ [token]) := by
  cases token with
  | openList => exact .expecting outside rfl
  | openObject => exact .expecting outside rfl
  | null => exact keeps_put outside .null
  | bool value => exact keeps_put outside (.bool value)
  | number scanned =>
      exact keeps_putScanned outside fun _ _ read => passable ((map_eq_ok.mp read).imp fun _ => And.left)
  | text scanned =>
      exact keeps_putScanned outside fun _ _ read => passable ((map_eq_ok.mp read).imp fun _ => And.left)
  | _ => exact .broken (Node.unreadable_cut (Node.unreadable_gap _) around)

theorem Keeps.reopened {place : Place} {inner : List Token} {token : Token} (outside : Around around before)
    (opened : Opened place (inner ++ [token])) : Keeps (.expecting place around) (before ++ inner ++ [token]) := by
  rw [List.append_assoc]
  exact .expecting outside opened

theorem Keeps.closed {node : Node} {inner : List Token} {token : Token} (outside : Around around before)
    (same : inner ++ [token] = node.tokens) : Keeps (put node around) (before ++ inner ++ [token]) := by
  rw [List.append_assoc, same]
  exact keeps_put outside node

theorem Keeps.ended {node : Node} {taken : List Token} (unreadable : node.Unreadable) :
    Keeps (.broken (cut node around)) taken := .broken (Node.unreadable_cut unreadable around)

theorem keeps_startKey (outside : Around around before) {members : List Member} {inner : List Token}
    (due : Opened (.nextKey members) inner) (token : Token) :
    Keeps (startKey members token around) (before ++ inner ++ [token]) := by
  cases token with
  | text key =>
      cases passed : key.passed with
      | ok _ =>
          have opened : Opened (.colon members key) (inner ++ [.text key]) := by
            rw [Opened, List.append_assoc]
            exact due key
          simpa only [startKey, passed] using Keeps.reopened outside opened
      | error fault =>
          simp only [startKey, passed]
          exact .ended (Node.unreadable_object rfl)
  | _ => exact .ended (Node.unreadable_object rfl)

theorem Keeps.step {progress : Progress} {taken : List Token} (keeps : Keeps progress taken) {token : Token}
    (passable : token.Passable) : Keeps (progress.step token) (taken ++ [token]) := by
  -- Where a token must not stand the tree breaks for good; elsewhere the place says what it adds to the tokens kept.
  cases keeps with
  | complete => exact .overlong
  | overlong => exact .overlong
  | broken unreadable => exact .broken unreadable
  | @expecting around before place inner outside opened =>
      cases place with
      | value =>
          cases opened
          rw [List.append_nil]
          exact keeps_startValue outside passable
      | firstItem =>
          cases opened
          have inside : Around (.list [] :: around) (before ++ [.openList]) := .item outside fun _ _ => rfl
          cases token with
          | closeList => exact .closed outside rfl
          | _ => exact keeps_startValue inside passable
      | nextItem items =>
          cases token with
          | closeList => exact .ended (Node.unreadable_closedList _ _)
          | _ => exact keeps_startValue (.item outside opened) passable
      | afterItem items =>
          cases token with
          | comma =>
              refine .reopened outside fun item others => ?_
              rw [← opened (item :: others)]
              simp only [tokensItems, List.append_assoc, List.cons_append, List.nil_append]
          | closeList => exact .closed outside (by rw [← List.append_nil items.reverse, ← opened []]; rfl)
          | _ => exact .ended (Node.unreadable_list rfl)
      | firstKey =>
          cases opened
          have due : Opened (.nextKey []) [.openObject] := fun _ _ _ => rfl
          by_cases closes : token = .closeObject
          · subst closes
            exact .closed outside rfl
          · rw [step_firstKey around token closes]
            exact keeps_startKey outside due token
      | nextKey members =>
          by_cases closes : token = .closeObject
          · subst closes
            exact .ended (Node.unreadable_object rfl)
          · rw [step_nextKey members around token closes]
            exact keeps_startKey outside opened token
      | colon members key =>
          cases token with
          | colon => exact List.append_nil (before ++ inner ++ [Token.colon]) ▸
              .expecting (List.append_assoc .. ▸ .content outside opened) rfl
          | _ => exact .ended (Node.unreadable_object rfl)
      | afterMember members =>
          cases token with
          | comma =>
              refine .reopened outside fun key content others => ?_
              rw [← opened ((key, content) :: others)]
              simp only [tokensMembers, List.append_assoc, List.cons_append, List.nil_append]
          | closeObject => exact .closed outside (by rw [← List.append_nil members.reverse, ← opened []]; rfl)
          | _ => exact .ended (Node.unreadable_object rfl)

theorem Keeps.foldl {progress : Progress} {taken tokens : List Token} (keeps : Keeps progress taken)
    (passable : ∀ token ∈ tokens, token.Passable) : Keeps (tokens.foldl Progress.step progress) (taken ++ tokens) := by
  induction tokens generalizing progress taken with
  | nil => rwa [List.append_nil]
  | cons token rest ih =>
      obtain ⟨here, others⟩ := List.forall_mem_cons.mp passable
      have kept := ih (keeps.step here) others
      rwa [List.append_assoc, List.singleton_append] at kept

theorem unreadable_finish (place : Place) (around : List Frame) :
    (Progress.expecting place around).finish.Unreadable := by
  cases place with
  | value => exact Node.unreadable_cut (Node.unreadable_gap _) around
  | firstItem | nextItem | afterItem => exact Node.unreadable_cut (Node.unreadable_list rfl) around
  | firstKey | nextKey | colon | afterMember => exact Node.unreadable_cut (Node.unreadable_object rfl) around

end Progress

/-- A tree that can be read whole has kept all tokens that it was built of. -/
theorem Document.tokens_eq {tokens : List Token} {tree : Node} (built : ofTokens tokens = ⟨tree, false⟩) {room : Nat}
    {value : Value} (read : tree.value room = .ok value) (passable : ∀ token ∈ tokens, token.Passable) :
    tokens = tree.tokens := by
  have keeps : Progress.Keeps (tokens.foldl Progress.step (.expecting .value [])) ([] ++ [] ++ tokens) :=
    Progress.Keeps.foldl (.expecting .outermost rfl) passable
  rw [ofTokens] at built
  generalize tokens.foldl Progress.step (.expecting .value []) = progress at keeps built
  generalize same : [] ++ [] ++ tokens = taken at keeps
  obtain ⟨rfl, complete⟩ := Document.mk.inj built
  cases keeps with
  | @expecting around before place inner => exact absurd read (Progress.unreadable_finish place around room value)
  | complete => exact same
  | overlong => cases complete
  | broken unreadable => exact absurd read (unreadable room value)

namespace Node

theorem literal_of_all {cs : List Char} {more : List Token} {scanned : Scanned String} {text : String}
    (found : Token.all cs = .text scanned :: more) (read : scanned.value = .ok text) :
    ∃ rest, Literal scanned cs rest ∧ Token.all rest = more := by
  have passable := Token.passable_of_mem_all cs (.text scanned) (found ▸ List.mem_cons_self)
  exact (Token.all_eq_text_iff (passable ⟨text, read⟩)).mp found

mutual
/-- A text that starts with the tokens of a tree spells it, if the tree can be read whole. -/
theorem exists_spells (tree : Node) {room : Nat} {value : Value} (read : tree.value room = .ok value)
    {cs : List Char} {more : List Token} (found : Token.all cs = tree.tokens ++ more) :
    ∃ rest, tree.Spells cs rest ∧ Token.all rest = more :=
  match tree, read with
  | .null, _ => Token.all_eq_null_iff.mp found
  | .bool _, _ => Token.all_eq_bool_iff.mp found
  | .number scanned, read => by
      have passable := Token.passable_of_mem_all cs (.number scanned) (found ▸ List.mem_cons_self)
      exact (Token.all_eq_number_iff (passable ((map_eq_ok.mp read).imp fun _ => And.left))).mp found
  | .text _, read => by
      obtain ⟨text, read, _⟩ := map_eq_ok.mp read
      exact literal_of_all found read
  | .list [] _, read => by
      obtain ⟨rfl, _⟩ := value_list_eq_ok.mp read
      obtain ⟨inner, opened, found⟩ := (Token.all_eq_mark_iff rfl).mp found
      obtain ⟨rest, closed, found⟩ := (Token.all_eq_mark_iff rfl).mp found
      exact ⟨rest, ⟨rfl, inner, opened, closed⟩, found⟩
  | .list (first :: others) _, read => by
      obtain ⟨rfl, below, values, _, read, _⟩ := value_list_eq_ok.mp read
      obtain ⟨_, _, here, there, _⟩ := valueItems_cons_eq_ok.mp read
      rw [tokens, List.append_assoc] at found
      obtain ⟨inner, opened, found⟩ := (Token.all_eq_mark_iff rfl).mp found
      obtain ⟨after, spelled, found⟩ := exists_spells first here found
      obtain ⟨rest, others, found⟩ := exists_spellsItems others there found
      exact ⟨rest, ⟨rfl, inner, opened, after, spelled, others⟩, found⟩
  | .object [] _, read => by
      obtain ⟨rfl, _⟩ := value_object_eq_ok.mp read
      obtain ⟨inner, opened, found⟩ := (Token.all_eq_mark_iff rfl).mp found
      obtain ⟨rest, closed, found⟩ := (Token.all_eq_mark_iff rfl).mp found
      exact ⟨rest, ⟨rfl, inner, opened, closed⟩, found⟩
  | .object ((key, node) :: others) _, read => by
      obtain ⟨rfl, below, values, _, read, _⟩ := value_object_eq_ok.mp read
      obtain ⟨name, _, _, named, here, there, _⟩ := valueMembers_cons_eq_ok.mp read
      rw [tokens, List.append_assoc] at found
      obtain ⟨inner, opened, found⟩ := (Token.all_eq_mark_iff rfl).mp found
      obtain ⟨colon, literal, found⟩ := literal_of_all found named
      obtain ⟨content, marked, found⟩ := (Token.all_eq_mark_iff rfl).mp found
      obtain ⟨after, spelled, found⟩ := exists_spells node here found
      obtain ⟨rest, others, found⟩ := exists_spellsMembers others there found
      exact ⟨rest, ⟨rfl, inner, opened, colon, content, after, literal, marked, spelled, others⟩, found⟩

theorem exists_spellsItems (items : List Node) {room : Nat} {values : List Value}
    (read : valueItems room items = .ok values) {cs : List Char} {more : List Token}
    (found : Token.all cs = tokensItems items ++ more) : ∃ rest, SpellsItems items cs rest ∧ Token.all rest = more :=
  match items, read with
  | [], _ => (Token.all_eq_mark_iff rfl).mp found
  | item :: others, read => by
      obtain ⟨_, _, here, there, _⟩ := valueItems_cons_eq_ok.mp read
      rw [tokensItems, List.append_assoc] at found
      obtain ⟨inner, comma, found⟩ := (Token.all_eq_mark_iff rfl).mp found
      obtain ⟨after, spelled, found⟩ := exists_spells item here found
      obtain ⟨rest, others, found⟩ := exists_spellsItems others there found
      exact ⟨rest, ⟨inner, after, comma, spelled, others⟩, found⟩

theorem exists_spellsMembers (members : List Member) {room : Nat} {values : List (String × Value)}
    (read : valueMembers room members = .ok values) {cs : List Char} {more : List Token}
    (found : Token.all cs = tokensMembers members ++ more) :
    ∃ rest, SpellsMembers members cs rest ∧ Token.all rest = more :=
  match members, read with
  | [], _ => (Token.all_eq_mark_iff rfl).mp found
  | (key, node) :: others, read => by
      obtain ⟨name, _, _, named, here, there, _⟩ := valueMembers_cons_eq_ok.mp read
      rw [tokensMembers, List.append_assoc] at found
      obtain ⟨inner, comma, found⟩ := (Token.all_eq_mark_iff rfl).mp found
      obtain ⟨colon, literal, found⟩ := literal_of_all found named
      obtain ⟨content, marked, found⟩ := (Token.all_eq_mark_iff rfl).mp found
      obtain ⟨after, spelled, found⟩ := exists_spells node here found
      obtain ⟨rest, others, found⟩ := exists_spellsMembers others there found
      exact ⟨rest, ⟨inner, colon, content, after, comma, literal, marked, spelled, others⟩, found⟩
end

end Node

/-- A text whose tree can be read whole spells that tree. -/
theorem Document.spelledBy_of_ofText {tree : Node} {text : String} (built : ofText text = ⟨tree, false⟩) {room : Nat}
    {value : Value} (read : tree.value room = .ok value) : tree.SpelledBy text := by
  have kept := Document.tokens_eq built read (Token.passable_of_mem_all text.toList)
  rw [← List.append_nil tree.tokens] at kept
  obtain ⟨rest, spelled, nothing⟩ := Node.exists_spells tree read kept
  exact ⟨rest, spelled, Token.all_eq_nil_iff.mp nothing⟩

end VisualEffects.Json
