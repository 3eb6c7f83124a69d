import AnimatedCanvas.Document.Reading
import AnimatedCanvas.Proofs.Document.YamlText

namespace AnimatedCanvas.Yaml

open Value (isWord Scalar Printed KeyText PlainText)

/-! ## Nodes -/

def scalarNode : Value → Node
  | .text s => .scalar none (if isWord s then .plain else .singleQuoted) s
  | w => .scalar none .plain (w.yamlInline?.getD "")

mutual

def nodeOf : Value → Node
  | .list items => .list none (itemNodes items)
  | .map entries => .map none (entryNodes entries)
  | .null => scalarNode .null
  | .flag b => scalarNode (.flag b)
  | .number n => scalarNode (.number n)
  | .text s => scalarNode (.text s)
  | .tagged _ content => nodeOf content

def itemNodes : List Value → List Node
  | [] => []
  | w :: items => nodeOf w :: itemNodes items

def entryNodes : List (Value × Value) → List (Node × Node)
  | [] => []
  | (k, w) :: entries => (nodeOf k, nodeOf w) :: entryNodes entries

end

theorem node_scalar {allowed : Number → Prop} {w : Value} (h : Scalar allowed w) :
    nodeOf w = scalarNode w := by
  cases h with
  | natural _ => rfl
  | real _ => rfl
  | flag b => rfl
  | text _ => rfl

theorem scalarNode_eq (w : Value) :
    ∃ style s, scalarToken w = .scalar style s ∧ scalarNode w = .scalar none style s := by
  cases w with
  | text s => exact ⟨_, _, rfl, rfl⟩
  | _ => exact ⟨_, _, rfl, rfl⟩

/-! ## Putting the tokens together -/

namespace Builder

def begins : Token → Bool
  | .scalar _ _ => true
  | .blockEntry => true
  | .blockMapStart => true
  | _ => false

theorem node?_of_begins {b : Builder} {t : Token} {ts : List Token} (here : b.tokens = t :: ts)
    (start : begins t = true) (fuel : Nat) (place : Place) :
    node? (fuel + 1) place b = content? fuel place false none b.begin := by
  have head : b.head? = some t := by rw [head?, here]; rfl
  have properties : b.properties? = some (none, none, b) := by
    unfold properties?
    rw [here]
    cases t with
    | scalar => rfl
    | blockEntry => rfl
    | blockMapStart => rfl
    | _ => cases start
  rw [node?, head]
  split
  next name same =>
    cases same
    cases start
  · rw [properties]
    exact Option.bind_fun_some _

theorem not_sees {b : Builder} {t : Token} {ts stops : List Token} (here : b.tokens = t :: ts)
    (other : stops.contains t = false) : b.sees stops = false := by
  rw [sees, head?, here]
  exact other

theorem node?_scalar {b : Builder} {rest : List Token} (w : Value)
    (here : b.tokens = scalarToken w :: rest) (fuel : Nat) (place : Place) :
    ∃ b', node? (fuel + 2) place b = some (scalarNode w, b') ∧ b'.tokens = rest := by
  obtain ⟨style, s, token, node⟩ := scalarNode_eq w
  rw [token] at here
  have head : b.begin.head? = some (.scalar style s) := by rw [head?, begin, here]; rfl
  refine ⟨b.begin.drop, ?_, by simp [drop, begin, here]⟩
  rw [node?_of_begins here rfl, content?, head, node]
  rfl

theorem dashes?_items {allowed : Number → Prop} {items : List Value}
    (each : ∀ w ∈ items, Scalar allowed w) {rest : List Token}
    (other : rest.head? ≠ some .blockEntry) :
    ∀ {b : Builder} {fuel : Nat}, b.tokens = itemTokens items ++ rest →
      2 * (itemTokens items).length < fuel →
      ∃ b', dashes? fuel b = some (itemNodes items, b') ∧ b'.tokens = rest := by
  induction items with
  | nil =>
      intro b fuel here enough
      obtain ⟨fuel, rfl⟩ := Nat.exists_eq_add_of_lt enough
      refine ⟨b, ?_, here⟩
      rw [dashes?]
      split
      next same =>
        rw [head?, here] at same
        exact absurd same other
      · rfl
  | cons w items ih =>
      intro b fuel here enough
      obtain ⟨scalar, others⟩ := List.forall_mem_cons.1 each
      rw [itemTokens, tokens_scalar scalar] at here enough
      simp only [List.length_cons, List.length_append, List.length_nil] at enough
      obtain ⟨fuel, rfl⟩ := Nat.exists_eq_add_of_lt (show 2 < fuel by omega)
      have head : b.head? = some .blockEntry := by rw [head?, here]; rfl
      have dropped : b.drop.tokens = scalarToken w :: (itemTokens items ++ rest) := by
        simp [drop, here]
      have sees : b.drop.sees [.blockEntry, .key, .value, .blockEnd] = false := by
        obtain ⟨style, s, token, -⟩ := scalarNode_eq w
        exact not_sees dropped (by rw [token]; rfl)
      obtain ⟨b', item, after⟩ := node?_scalar w dropped fuel .block
      obtain ⟨b'', later, ends⟩ := ih others after (show _ < fuel + 2 by omega)
      refine ⟨b'', ?_, ends⟩
      rw [show 2 + fuel + 1 = (fuel + 2) + 1 by omega, dashes?, head]
      dsimp only
      rw [sees, if_neg Bool.false_ne_true, item]
      dsimp only [Option.bind_eq_bind, Option.bind_some]
      rw [later, itemNodes, node_scalar scalar]
      rfl

/-- Where a value stands in a block, its tokens are put together to its node. -/
structure Builds (place : Place) (w : Value) : Prop where
  starts : ∃ t ts, tokensOf w = t :: ts ∧ begins t = true
  node : ∀ {b rest fuel}, b.tokens = tokensOf w ++ rest → rest.head? ≠ some .blockEntry →
    2 * (tokensOf w).length + 2 < fuel →
    ∃ b', node? fuel place b = some (nodeOf w, b') ∧ b'.tokens = rest

theorem Builds.not_sees {place : Place} {w : Value} (builds : Builds place w) {b : Builder}
    {rest : List Token} (here : b.tokens = tokensOf w ++ rest) :
    b.sees [.key, .value, .blockEnd] = false := by
  obtain ⟨t, ts, same, start⟩ := builds.starts
  rw [same] at here
  refine Builder.not_sees here ?_
  cases t with
  | scalar => rfl
  | blockEntry => rfl
  | blockMapStart => rfl
  | _ => cases start

theorem builds_scalar {allowed : Number → Prop} {w : Value} (h : Scalar allowed w) (place : Place) :
    Builds place w where
  starts := by
    obtain ⟨style, s, token, -⟩ := scalarNode_eq w
    exact ⟨_, [], tokens_scalar h, by rw [token]; rfl⟩
  node := by
    intro b rest fuel here _ enough
    obtain ⟨fuel, rfl⟩ := Nat.exists_eq_add_of_lt (show 1 < fuel by omega)
    rw [tokens_scalar h] at here
    rw [node_scalar h, Nat.add_comm 1 fuel]
    exact node?_scalar w here fuel place

theorem builds_list {allowed : Number → Prop} {items : List Value} (nonempty : items ≠ [])
    (each : ∀ w ∈ items, Scalar allowed w) : Builds .blockValue (.list items) where
  starts := by
    obtain ⟨w, items, rfl⟩ := List.exists_cons_of_ne_nil nonempty
    exact ⟨.blockEntry, _, rfl, rfl⟩
  node := by
    intro b rest fuel here other enough
    obtain ⟨fuel, rfl⟩ := Nat.exists_eq_add_of_lt (show 1 < fuel by omega)
    rw [tokensOf] at here enough
    obtain ⟨b', all, ends⟩ := dashes?_items each other (b := b.begin) here (show _ < fuel by omega)
    refine ⟨b'.begin, ?_, ends⟩
    obtain ⟨w, items, rfl⟩ := List.exists_cons_of_ne_nil nonempty
    have head : b.begin.head? = some .blockEntry := by rw [head?, begin, here]; rfl
    rw [show 1 + fuel + 1 = (fuel + 1) + 1 by omega, node?_of_begins here rfl, content?, head]
    dsimp only
    rw [if_pos rfl, all]
    rfl

structure BuildsField (f : String × Value) : Prop where
  name : KeyText f.1
  value : Builds .blockValue f.2

theorem entries_head {fields : List (String × Value)} (rest : List Token) :
    (entryTokens (entries fields) ++ .blockEnd :: rest).head? ≠ some .blockEntry := by
  cases fields with
  | nil => simp [entries, entryTokens]
  | cons f fields => simp [entries, entryTokens]

theorem blockEntries?_entries {fields : List (String × Value)} (each : ∀ f ∈ fields, BuildsField f)
    {rest : List Token} :
    ∀ {b : Builder} {fuel : Nat},
      b.tokens = entryTokens (entries fields) ++ .blockEnd :: rest →
      2 * (entryTokens (entries fields)).length < fuel →
      ∃ b', blockEntries? fuel b = some (entryNodes (entries fields), b') ∧ b'.tokens = rest := by
  induction fields with
  | nil =>
      intro b fuel here enough
      obtain ⟨fuel, rfl⟩ := Nat.exists_eq_add_of_lt enough
      have head : b.head? = some .blockEnd := by rw [head?, here]; rfl
      refine ⟨b.drop, ?_, by simp [drop, here, entries, entryTokens]⟩
      rw [blockEntries?, head]
      rfl
  | cons f fields ih =>
      intro b fuel here enough
      obtain ⟨⟨name, value⟩, others⟩ := List.forall_mem_cons.1 each
      have text : entryTokens (entries (f :: fields)) = .key :: .scalar .plain f.1 :: .value ::
          (tokensOf f.2 ++ entryTokens (entries fields)) := by
        simp [entries, entryTokens, tokens_name name.word]
      rw [text] at here enough
      simp only [List.length_cons, List.length_append] at enough
      obtain ⟨fuel, rfl⟩ := Nat.exists_eq_add_of_lt (show 2 < fuel by omega)
      have head : b.head? = some .key := by rw [head?, here]; rfl
      have dropped : b.drop.tokens = scalarToken (.text f.1) ::
          (.value :: (tokensOf f.2 ++ (entryTokens (entries fields) ++ .blockEnd :: rest))) := by
        simp [drop, here, scalarToken, name.word]
      obtain ⟨b₁, key, after⟩ := node?_scalar (.text f.1) dropped fuel .blockValue
      have atKey : b.drop.sees [.key, .value, .blockEnd] = false := not_sees dropped rfl
      have atColon : b₁.sees [.value] = true := by rw [sees, head?, after]; rfl
      have valued : b₁.drop.tokens =
          tokensOf f.2 ++ (entryTokens (entries fields) ++ .blockEnd :: rest) := by
        simp [drop, after]
      have atValue := value.not_sees valued
      obtain ⟨b₂, inner, next⟩ := value.node valued (entries_head rest)
        (show _ < fuel + 2 by omega)
      obtain ⟨b₃, later, ends⟩ := ih others next (show _ < fuel + 2 by omega)
      refine ⟨b₃, ?_, ends⟩
      rw [show 2 + fuel + 1 = (fuel + 2) + 1 by omega, blockEntries?, head]
      dsimp only
      rw [atKey, if_neg Bool.false_ne_true, key]
      dsimp only [Option.bind_eq_bind, Option.bind_some]
      rw [atColon, if_pos rfl, atValue, if_neg Bool.false_ne_true, inner]
      dsimp only [Option.bind_some]
      rw [later]
      rfl

theorem builds_record {fields : List (String × Value)} (each : ∀ f ∈ fields, BuildsField f)
    {place : Place} (block : place ≠ .flow) : Builds place (.record fields) where
  starts := ⟨.blockMapStart, _, tokens_record fields, rfl⟩
  node := by
    intro b rest fuel here _ enough
    rw [tokens_record] at here enough
    simp only [List.length_cons, List.length_append, List.length_nil] at enough
    obtain ⟨fuel, rfl⟩ := Nat.exists_eq_add_of_lt (show 1 < fuel by omega)
    have head : b.begin.head? = some .blockMapStart := by rw [head?, begin, here]; rfl
    have dropped : b.begin.drop.tokens =
        entryTokens (entries fields) ++ .blockEnd :: rest := by
      simp [begin, drop, here]
    obtain ⟨b', all, ends⟩ := blockEntries?_entries each dropped (show _ < fuel by omega)
    refine ⟨b'.begin, ?_, ends⟩
    rw [show 1 + fuel + 1 = (fuel + 1) + 1 by omega, node?_of_begins here rfl, content?, head]
    dsimp only
    rw [if_pos (by simpa using block), all]
    rfl

theorem builds_printed {allowed : Number → Prop} {w : Value} (h : Printed allowed w) :
    Builds .blockValue w := by
  induction h with
  | scalar scalar => exact builds_scalar scalar _
  | list nonempty each => exact builds_list nonempty each
  | record nonempty names parts ih =>
      exact builds_record (fun f member => ⟨names f member, ih f member⟩) (by decide)

theorem document?_tokens {allowed : Number → Prop} {fields : List (String × Value)}
    (h : Printed allowed (.record fields)) :
    ∃ t, document? (tokensOf (.record fields)) = some t ∧ t.root = nodeOf (.record fields) := by
  obtain ⟨-, names, parts⟩ := Value.printed_record.1 h
  have builds : Builds .block (.record fields) :=
    builds_record (fun f member => ⟨names f member, builds_printed (parts f member)⟩) (by decide)
  have begun : (⟨tokensOf (.record fields), standardHandles, [], [], 0⟩ : Builder).tokens =
      tokensOf (.record fields) ++ [] := by simp
  have enough : 2 * (tokensOf (.record fields)).length + 2 <
      4 * (tokensOf (.record fields)).length + 4 := by omega
  obtain ⟨b, read, ends⟩ := builds.node begun (by simp) enough
  refine ⟨⟨nodeOf (.record fields), b.anchored, b.parts⟩, ?_, rfl⟩
  rw [tokens_record] at read ⊢
  unfold document?
  dsimp only
  rw [read]
  dsimp only [Option.bind_eq_bind, Option.bind_some]
  rw [ends]
  rfl

end Builder

/-! ## What the nodes are read as -/

namespace Tree

variable {t : Tree}

theorem value?_scalar {style : ScalarStyle} {s : String} {w : Value}
    (h : scalarValue? none style s = some w) (bare : w.hasTag = false) :
    t.reading.value? (.scalar none style s) = some w := by
  have level : (t.valueOf? (maxDepth - 2) (.scalar none style s)).run t.budget =
      some (w, t.budget) := by
    rw [show maxDepth - 2 = 125 + 1 from rfl, valueOf?]
    simp [level?, spend?, localName?, h, named?]
  unfold reading
  dsimp only
  rw [level]
  simp [bare]

theorem value?_text (s : String) : t.reading.value? (nodeOf (.text s)) = some (.text s) := by
  refine value?_scalar ?_ rfl
  by_cases word : isWord s = true
  · rw [if_pos word]
    exact plainValue?_of_isWord word
  · rw [if_neg word]
    rfl

theorem represents_scalar {w : Value} (h : Scalar ReadsBack w) :
    Represents t.reading w (nodeOf w) := by
  cases h with
  | natural number => exact represents_count.2 (naturalText?_of_readsBack number)
  | @real x number =>
      refine represents_real.2 ⟨realText?_of_readsBack number, .real x, ?_, rfl⟩
      exact value?_scalar (plainValue?_of_readsBack number) rfl
  | flag b =>
      refine represents_flag.2 ?_
      cases b <;> rfl
  | text plain => exact represents_text.2 ⟨rfl, rfl, value?_text _⟩

theorem itemNodes_eq_map (items : List Value) : itemNodes items = items.map nodeOf := by
  induction items with
  | nil => rfl
  | cons w items ih => rw [itemNodes, ih, List.map_cons]

theorem entryNodes_eq_map (fields : List (String × Value)) :
    entryNodes (entries fields) = fields.map fun f => (nodeOf (.text f.1), nodeOf f.2) := by
  induction fields with
  | nil => rfl
  | cons f fields ih => simpa [entries, entryNodes] using ih

theorem represents_printed {w : Value} (h : Printed ReadsBack w) :
    Represents t.reading w (nodeOf w) := by
  induction h with
  | scalar scalar => exact represents_scalar scalar
  | @list items nonempty each =>
      refine represents_list.2 ⟨itemNodes items, rfl, ?_⟩
      rw [itemNodes_eq_map, List.forall₂_map_right_iff, List.forall₂_same]
      exact fun w member => represents_scalar (each w member)
  | @record fields nonempty names parts ih =>
      have same : nodeOf (.record fields) =
          .map none (fields.map fun f => (nodeOf (.text f.1), nodeOf f.2)) :=
        congrArg (Node.map none) (entryNodes_eq_map fields)
      rw [same]
      refine represents_record.2
        ⟨fields.map fun f => ⟨f.1, nodeOf (.text f.1), nodeOf f.2⟩, fun _ => ?_, ?_, ?_⟩
      · change List.mapM _ (fields.map _) = _
        rw [List.mapM_map, List.map_map]
        exact List.mapM_pure (m := Option) (l := fields) (f := fun f => (f.1, nodeOf f.2))
      · simp [reading, follow?, localName?, Function.comp_def]
      · rw [List.forall₂_map_right_iff, List.forall₂_same]
        exact fun f member => ⟨rfl, value?_text f.1, ih f member⟩

theorem read?_yaml {fields : List (String × Value)} (h : Printed ReadsBack (.record fields)) :
    ∃ t, read? (Value.record fields).yaml = some t ∧
      Represents t.reading (.record fields) t.root := by
  obtain ⟨t, built, root⟩ := Builder.document?_tokens h
  refine ⟨t, ?_, root ▸ represents_printed h⟩
  rw [read?, scan?_yaml h]
  exact built

end Tree

end AnimatedCanvas.Yaml
