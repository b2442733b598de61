import SchemaToJava.Proofs.PlainTrees
import SchemaToJava.Proofs.WrittenTokens
import SchemaToJava.Reading.OfValue

/-!
The tree of a written JSON text. Reading the compact text of a value without floating-point numbers
gives the tree of the value and comes to the end of the text.
-/
namespace SchemaToJava.Json

open Reading

namespace Value

mutual

def numbers : Value → List Number
  | null => []
  | bool _ => []
  | number n => [n]
  | string _ => []
  | array items => itemsNumbers items
  | object members => membersNumbers members

def itemsNumbers : List Value → List Number
  | [] => []
  | x :: rest => x.numbers ++ itemsNumbers rest

def membersNumbers : List (String × Value) → List Number
  | [] => []
  | (_, x) :: rest => x.numbers ++ membersNumbers rest

end

mutual

def tokens : Value → List Token
  | null => [atomToken .null]
  | bool b => [atomToken (.bool b)]
  | number n => [atomToken (.number n)]
  | string s => [textToken s]
  | array items => .openList :: (itemsTokens items ++ [.closeList])
  | object members => .openTable :: (membersTokens members ++ [.closeTable])

def itemsTokens : List Value → List Token
  | [] => []
  | [x] => x.tokens
  | x :: y :: rest => x.tokens ++ .comma :: itemsTokens (y :: rest)

def membersTokens : List (String × Value) → List Token
  | [] => []
  | [(name, x)] => textToken name :: .colon :: x.tokens
  | (name, x) :: y :: rest =>
    textToken name :: .colon :: (x.tokens ++ .comma :: membersTokens (y :: rest))

end

end Value

def AreExact (ns : List Number) : Prop := ∀ n ∈ ns, n.Fits ∧ ∃ i, n = .int i

theorem areExact_append {ns ms : List Number} :
    AreExact (ns ++ ms) ↔ AreExact ns ∧ AreExact ms := List.forall_mem_append

theorem isEnd_cons {c : Char} (h : c = ',' ∨ c = ']' ∨ c = '\x7d') (cs : List Char) :
    IsEnd (c :: cs) := by
  intro x hx
  obtain rfl := Option.some.inj hx
  exact h

theorem tokens_comma (cs : List Char) : tokens (',' :: cs) = .comma :: tokens cs :=
  tokens_cons rfl rfl

theorem tokens_colon (cs : List Char) : tokens (':' :: cs) = .colon :: tokens cs :=
  tokens_cons rfl rfl

mutual

/-- The text of a value has its tokens. -/
theorem tokens_text : (v : Value) → AreExact v.numbers → {rest : List Char} → IsEnd rest →
    tokens (v.text.toList ++ rest) = v.tokens ++ tokens rest
  | .null, _, _, _ => by
    unfold Value.text Value.tokens
    exact tokens_cons rfl rfl
  | .bool true, _, _, _ => by
    unfold Value.text Value.tokens
    exact tokens_cons rfl rfl
  | .bool false, _, _, _ => by
    unfold Value.text Value.tokens
    exact tokens_cons rfl rfl
  | .number n, h, rest, hrest => by
    unfold Value.numbers at h
    unfold Value.text Value.tokens
    obtain ⟨hfits, i, rfl⟩ := h n List.mem_cons_self
    exact tokens_int hfits.1 hfits.2 hrest
  | .string s, _, rest, _ => by
    unfold Value.text Value.tokens
    exact tokens_quote s rest
  | .array items, h, rest, _ => by
    unfold Value.numbers at h
    unfold Value.text Value.tokens
    have hitems := tokens_itemsText items h (isEnd_cons (.inr (.inl rfl)) rest)
    have hclose : tokens (']' :: rest) = .closeList :: tokens rest := tokens_cons rfl rfl
    calc tokens (("[" ++ Value.itemsText items ++ "]").toList ++ rest)
      _ = tokens ('[' :: ((Value.itemsText items).toList ++ ']' :: rest)) := by simp
      _ = .openList :: tokens ((Value.itemsText items).toList ++ ']' :: rest) :=
        tokens_cons rfl rfl
      _ = .openList :: (Value.itemsTokens items ++ [.closeList]) ++ tokens rest := by
        simp [hitems, hclose]
  | .object members, h, rest, _ => by
    unfold Value.numbers at h
    unfold Value.text Value.tokens
    have hmembers := tokens_membersText members h (isEnd_cons (.inr (.inr rfl)) rest)
    have hclose : tokens ('\x7d' :: rest) = .closeTable :: tokens rest := tokens_cons rfl rfl
    calc tokens (("\x7b" ++ Value.membersText members ++ "\x7d").toList ++ rest)
      _ = tokens ('\x7b' :: ((Value.membersText members).toList ++ '\x7d' :: rest)) := by simp
      _ = .openTable :: tokens ((Value.membersText members).toList ++ '\x7d' :: rest) :=
        tokens_cons rfl rfl
      _ = .openTable :: (Value.membersTokens members ++ [.closeTable]) ++ tokens rest := by
        simp [hmembers, hclose]

/-- The text of items has their tokens, with commas between them. -/
theorem tokens_itemsText : (items : List Value) → AreExact (Value.itemsNumbers items) →
    {rest : List Char} → IsEnd rest →
    tokens ((Value.itemsText items).toList ++ rest) = Value.itemsTokens items ++ tokens rest
  | [], _, _, _ => by
    unfold Value.itemsText Value.itemsTokens
    rfl
  | [x], h, rest, hrest => by
    unfold Value.itemsNumbers at h
    unfold Value.itemsText Value.itemsTokens
    exact tokens_text x (areExact_append.1 h).1 hrest
  | x :: y :: more, h, rest, hrest => by
    unfold Value.itemsNumbers at h
    unfold Value.itemsText Value.itemsTokens
    obtain ⟨hx, hmore⟩ := areExact_append.1 h
    have hitems := tokens_itemsText (y :: more) hmore hrest
    calc tokens ((x.text ++ "," ++ Value.itemsText (y :: more)).toList ++ rest)
      _ = tokens (x.text.toList ++ ',' :: ((Value.itemsText (y :: more)).toList ++ rest)) := by
        simp
      _ = x.tokens ++ tokens (',' :: ((Value.itemsText (y :: more)).toList ++ rest)) :=
        tokens_text x hx (isEnd_cons (.inl rfl) _)
      _ = x.tokens ++ .comma :: Value.itemsTokens (y :: more) ++ tokens rest := by
        simp [tokens_comma, hitems]

/-- The text of members has their tokens, with commas between them. -/
theorem tokens_membersText : (members : List (String × Value)) →
    AreExact (Value.membersNumbers members) → {rest : List Char} → IsEnd rest →
    tokens ((Value.membersText members).toList ++ rest) =
      Value.membersTokens members ++ tokens rest
  | [], _, _, _ => by
    unfold Value.membersText Value.membersTokens
    rfl
  | [(name, x)], h, rest, hrest => by
    unfold Value.membersNumbers at h
    unfold Value.membersText Value.membersTokens
    calc tokens ((quote name ++ ":" ++ x.text).toList ++ rest)
      _ = tokens ((quote name).toList ++ ':' :: (x.text.toList ++ rest)) := by simp
      _ = textToken name :: .colon :: tokens (x.text.toList ++ rest) := by
        rw [tokens_quote, tokens_colon]
      _ = textToken name :: .colon :: x.tokens ++ tokens rest := by
        rw [tokens_text x (areExact_append.1 h).1 hrest]
        rfl
  | (name, x) :: y :: more, h, rest, hrest => by
    unfold Value.membersNumbers at h
    unfold Value.membersText Value.membersTokens
    obtain ⟨hx, hmore⟩ := areExact_append.1 h
    have hmembers := tokens_membersText (y :: more) hmore hrest
    calc tokens ((quote name ++ ":" ++ x.text ++ "," ++
          Value.membersText (y :: more)).toList ++ rest)
      _ = tokens ((quote name).toList ++ ':' :: (x.text.toList ++
          ',' :: ((Value.membersText (y :: more)).toList ++ rest))) := by simp
      _ = textToken name :: .colon :: tokens (x.text.toList ++
          ',' :: ((Value.membersText (y :: more)).toList ++ rest)) := by
        rw [tokens_quote, tokens_colon]
      _ = textToken name :: .colon :: (x.tokens ++ .comma :: Value.membersTokens (y :: more)) ++
          tokens rest := by
        rw [tokens_text x hx (isEnd_cons (.inl rfl) _), tokens_comma, hmembers]
        simp

end

/-- What comes of a complete value inside the open containers. -/
def completed (n : Node) (stack : List Frame) (rest : List Token) : Document :=
  match stack with
  | [] => ⟨n, !rest.isEmpty⟩
  | frame :: outer => build .separator (frame.put n :: outer) rest

section Trees

def nameNode (name : String) : Node := .scalar (.ofAtom (.string name))

theorem build_name {awaited : Awaited} (h : awaited = .firstKey ∨ awaited = .key) {name : String}
    {before : List (Node × Node)} {stack : List Frame} {rest : List Token} :
    build awaited (.table before :: stack) (textToken name :: .colon :: rest) =
      build .value (.member before (nameNode name) :: stack) rest := by
  rcases h with rfl | rfl <;> rfl

mutual

/-- The tokens of a value build its tree. -/
theorem build_tokens : (v : Value) → {awaited : Awaited} →
    awaited = .value ∨ awaited = .firstItem → (stack : List Frame) → (rest : List Token) →
    build awaited stack (v.tokens ++ rest) = completed (.ofValue v) stack rest
  | .null, _, h, _, _ => by
    unfold Value.tokens Node.ofValue
    rcases h with rfl | rfl <;> rfl
  | .bool b, _, h, _, _ => by
    unfold Value.tokens Node.ofValue
    rcases h with rfl | rfl <;> rfl
  | .number n, _, h, _, _ => by
    unfold Value.tokens Node.ofValue
    rcases h with rfl | rfl <;> rfl
  | .string s, _, h, _, _ => by
    unfold Value.tokens Node.ofValue
    rcases h with rfl | rfl <;> rfl
  | .array items, _, h, stack, rest => by
    unfold Value.tokens Node.ofValue
    rw [List.cons_append, List.append_assoc]
    have hitems := build_itemsTokens items (.inl rfl) [] stack rest
    rcases h with rfl | rfl <;> exact hitems
  | .object members, _, h, stack, rest => by
    unfold Value.tokens Node.ofValue
    rw [List.cons_append, List.append_assoc]
    have hmembers := build_membersTokens members (.inl rfl) [] stack rest
    rcases h with rfl | rfl <;> exact hmembers

/-- The tokens of items build them up behind those that stand there already. -/
theorem build_itemsTokens : (items : List Value) → {awaited : Awaited} →
    awaited = .firstItem ∨ awaited = .value ∧ items ≠ [] → (before : List Node) →
    (stack : List Frame) → (rest : List Token) →
    build awaited (.list before :: stack) (Value.itemsTokens items ++ .closeList :: rest) =
      completed (.list (before.reverse ++ Node.ofItems items) none) stack rest
  | [], _, h, before, stack, rest => by
    obtain rfl := h.resolve_right fun h => h.2 rfl
    unfold Value.itemsTokens Node.ofItems
    rw [List.append_nil]
    rfl
  | [x], _, h, before, stack, rest => by
    have hclose : completed (.ofValue x) (.list before :: stack) (.closeList :: rest) =
        completed (.list (Node.ofValue x :: before).reverse none) stack rest := rfl
    unfold Value.itemsTokens
    rw [build_tokens x (h.symm.imp_left And.left) (.list before :: stack), hclose]
    simp [Node.ofItems]
  | x :: y :: more, _, h, before, stack, rest => by
    have hawaited : Awaited.value = .firstItem ∨ Awaited.value = .value ∧ y :: more ≠ [] :=
      .inr ⟨rfl, by simp⟩
    have hmore := build_itemsTokens (y :: more) hawaited (.ofValue x :: before) stack rest
    have hcomma (ts : List Token) : completed (.ofValue x) (.list before :: stack) (.comma :: ts) =
        build .value (.list (.ofValue x :: before) :: stack) ts := rfl
    unfold Value.itemsTokens
    rw [List.append_assoc, List.cons_append,
      build_tokens x (h.symm.imp_left And.left) (.list before :: stack), hcomma, hmore]
    simp [Node.ofItems]

/-- The tokens of members build them up behind those that stand there already. -/
theorem build_membersTokens : (members : List (String × Value)) → {awaited : Awaited} →
    awaited = .firstKey ∨ awaited = .key ∧ members ≠ [] → (before : List (Node × Node)) →
    (stack : List Frame) → (rest : List Token) →
    build awaited (.table before :: stack) (Value.membersTokens members ++ .closeTable :: rest) =
      completed (.table (before.reverse ++ Node.ofMembers members) none) stack rest
  | [], _, h, before, stack, rest => by
    obtain rfl := h.resolve_right fun h => h.2 rfl
    unfold Value.membersTokens Node.ofMembers
    rw [List.append_nil]
    rfl
  | [(name, x)], _, h, before, stack, rest => by
    have hclose : completed (.ofValue x) (.member before (nameNode name) :: stack)
        (.closeTable :: rest) =
        completed (.table ((nameNode name, Node.ofValue x) :: before).reverse none) stack rest :=
      rfl
    unfold Value.membersTokens
    rw [List.cons_append, List.cons_append, build_name (h.imp_right And.left),
      build_tokens x (.inl rfl), hclose]
    simp [Node.ofMembers, nameNode]
  | (name, x) :: y :: more, _, h, before, stack, rest => by
    have hawaited : Awaited.key = .firstKey ∨ Awaited.key = .key ∧ y :: more ≠ [] :=
      .inr ⟨rfl, by simp⟩
    have hmore := build_membersTokens (y :: more) hawaited
      ((nameNode name, .ofValue x) :: before) stack rest
    have hcomma (ts : List Token) :
        completed (.ofValue x) (.member before (nameNode name) :: stack) (.comma :: ts) =
          build .key (.table ((nameNode name, .ofValue x) :: before) :: stack) ts := rfl
    unfold Value.membersTokens
    rw [List.cons_append, List.cons_append, build_name (h.imp_right And.left), List.append_assoc,
      List.cons_append, build_tokens x (.inl rfl), hcomma, hmore]
    simp [Node.ofMembers, nameNode]

end

/-- Reading the text of a value gives its tree, and nothing follows it. -/
theorem documentOf_text {v : Value} (h : AreExact v.numbers) :
    documentOf v.text = ⟨.ofValue v, false⟩ := by
  have hscan : tokens (v.text.toList ++ []) = v.tokens ++ tokens [] :=
    tokens_text v h (by simp [IsEnd])
  have hnone : tokens [] = [] := by rw [tokens]
  rw [List.append_nil, hnone] at hscan
  rw [documentOf, hscan, build_tokens v (.inl rfl)]
  rfl

end Trees

end SchemaToJava.Json
