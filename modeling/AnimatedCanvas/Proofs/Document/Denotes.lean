import AnimatedCanvas.Proofs.Document.Layering
import AnimatedCanvas.Proofs.Document.Represents
import AnimatedCanvas.Proofs.Document.WholeText

namespace AnimatedCanvas.Yaml

def scalarNode? (tag : Option String) (style : ScalarStyle) (s : String) : Option Value :=
  let content :=
    if (localName? tag).isNone then scalarValue? tag style s
    else if style == .plain then plainValue? s
    else some (.text s)
  content.bind (Tree.named? tag)

theorem kind_of_scalarNode? {tag : Option String} {style : ScalarStyle} {s : String} {w : Value}
    (h : scalarNode? tag style s = some w) :
    (localName? tag = none ∧ Kind s w) ∨
      ∃ name content, localName? tag = some name ∧ w = .tagged name content ∧ Kind s content := by
  obtain ⟨content, plain, named⟩ := Option.bind_eq_some_iff.1 h
  have kind : Kind s content := by
    split at plain
    · exact kind_of_scalarValue? plain
    · split at plain
      · exact kind_of_plainValue? plain
      · cases plain
        exact .text
  unfold Tree.named? at named
  split at named
  next none =>
    cases named
    exact .inl ⟨none, kind⟩
  next name given =>
    split at named
    · cases named
    · cases named
      exact .inr ⟨name, content, given, rfl, kind⟩

theorem bare_of_named? {tag : Option String} {content w : Value}
    (h : Tree.named? tag content = some w) : w.bare = content.bare := by
  unfold Tree.named? at h
  split at h
  · cases h
    rfl
  · split at h
    · cases h
    · cases h
      rfl

namespace Tree

/-! ## Nodes and their parts -/

/-- What a node stands for, by what its parts stand for. -/
inductive Stands (t : Tree) (R : Node → Value → Prop) (v : Node) (w : Value) : Prop where
  | scalar {tag : Option String} {style : ScalarStyle} {s : String}
    (node : t.follow? v = some (.scalar tag style s)) (value : scalarNode? tag style s = some w)
  | list {tag : Option String} {items : List Node} {ws : List Value}
    (node : t.follow? v = some (.list tag items)) (parts : List.Forall₂ R items ws)
    (value : named? tag (.list ws) = some w)
  | map {tag : Option String} {entries : List (Node × Node)} {ws : List (Value × Value)}
    (node : t.follow? v = some (.map tag entries))
    (parts : List.Forall₂ (fun e f => R e.1 f.1 ∧ R e.2 f.2) entries ws)
    (keys : ws.Pairwise fun a b => a.1.same b.1 = false) (value : named? tag (.map ws) = some w)

theorem follow?_of_spend? {t : Tree} {v node : Node} {budget rest : Nat}
    (h : t.spend? v budget = some (node, rest)) : t.follow? v = some node := by
  unfold spend? at h
  split at h
  · split at h
    · cases h
    · obtain ⟨found, resolved, same⟩ := Option.map_eq_some_iff.1 h
      cases same
      exact resolved
  next other =>
    cases h
    unfold follow?
    split
    · exact absurd rfl (other _)
    · rfl

theorem forall₂_of_mapM {α β : Type} {inner : α → StateT Nat Option β} {R : α → β → Prop}
    (related : ∀ x budget y rest, inner x budget = some (y, rest) → R x y) {xs : List α} :
    ∀ {budget rest : Nat} {ys : List β}, xs.mapM inner budget = some (ys, rest) →
      List.Forall₂ R xs ys := by
  induction xs with
  | nil =>
      intro budget rest ys h
      cases h
      exact .nil
  | cons x xs ih =>
      intro budget rest ys h
      rw [List.mapM_cons] at h
      obtain ⟨⟨y, budget'⟩, head, h⟩ := Option.bind_eq_some_iff.1 h
      obtain ⟨⟨others, budget''⟩, tail, h⟩ := Option.bind_eq_some_iff.1 h
      cases h
      exact .cons (related _ _ _ _ head) (ih tail)

theorem stands_of_level? {t : Tree} {inner : Option (Node → StateT Nat Option Value)}
    {R : Node → Value → Prop}
    (related : ∀ f, inner = some f → ∀ v budget w rest, f v budget = some (w, rest) → R v w)
    {v : Node} {budget rest : Nat} {w : Value}
    (h : t.level? inner v budget = some (w, rest)) : t.Stands R v w := by
  unfold Tree.level? at h
  obtain ⟨⟨node, budget⟩, spent, h⟩ := Option.bind_eq_some_iff.1 h
  have followed := follow?_of_spend? spent
  dsimp only at h
  split at h
  next tag style s =>
    obtain ⟨w, value, h⟩ := Option.bind_eq_some_iff.1 h
    cases h
    exact .scalar followed value
  next tag items =>
    split at h
    · cases h
    · obtain ⟨⟨ws, _⟩, parts, h⟩ := Option.bind_eq_some_iff.1 h
      obtain ⟨w, value, h⟩ := Option.bind_eq_some_iff.1 h
      cases h
      exact .list followed (forall₂_of_mapM (related _ rfl) parts) value
  next tag entries =>
    split at h
    · cases h
    · obtain ⟨⟨ws, _⟩, parts, h⟩ := Option.bind_eq_some_iff.1 h
      obtain ⟨w, value, h⟩ := Option.bind_eq_some_iff.1 h
      cases h
      obtain ⟨content, unique, value⟩ := Option.bind_eq_some_iff.1 value
      obtain ⟨rfl, keys⟩ := pairwise_of_mapValue? unique
      refine .map followed (forall₂_of_mapM ?_ parts) keys value
      intro e budget f rest h
      obtain ⟨⟨key, _⟩, first, h⟩ := Option.bind_eq_some_iff.1 h
      obtain ⟨⟨w, _⟩, second, h⟩ := Option.bind_eq_some_iff.1 h
      cases h
      exact ⟨related _ rfl _ _ _ _ first, related _ rfl _ _ _ _ second⟩
  · cases h

theorem distinct_of_named? {tag : Option String} {content w : Value} (distinct : content.Distinct)
    (h : named? tag content = some w) : w.Distinct := by
  unfold named? at h
  split at h
  · cases h
    exact distinct
  · split at h
    · cases h
    · cases h
      exact .leaf (by simp)

theorem Stands.distinct {t : Tree} {v : Node} {w : Value}
    (h : t.Stands (fun _ w => w.Distinct) v w) : w.Distinct := by
  cases h with
  | scalar _ value =>
      obtain ⟨-, kind⟩ | ⟨name, content, -, rfl, -⟩ := kind_of_scalarNode? value
      · exact .leaf kind.flat
      · exact .leaf (by simp)
  | list _ _ value => exact distinct_of_named? (.leaf (by simp)) value
  | map _ parts keys value =>
      refine distinct_of_named? (.map keys fun e member => ?_) value
      obtain ⟨_, -, related⟩ := exists_mem_of_forall₂ parts.flip member
      exact related.2

/-! ## Values -/

def Denotes (t : Tree) (v : Node) (w : Value) : Prop :=
  ∃ depth budget rest, t.valueOf? depth v budget = some (w, rest)

theorem stands_of_valueOf? {t : Tree} {R : Node → Value → Prop} {depth : Nat}
    (related : ∀ less < depth, ∀ v budget w rest, t.valueOf? less v budget = some (w, rest) → R v w)
    {v : Node} {budget rest : Nat} {w : Value}
    (h : t.valueOf? depth v budget = some (w, rest)) : t.Stands R v w := by
  cases depth with
  | zero => exact stands_of_level? (by simp) h
  | succ depth =>
      refine stands_of_level? (fun f same => ?_) h
      cases same
      exact related depth depth.lt_succ_self

theorem Denotes.stands {t : Tree} {v : Node} {w : Value} (h : t.Denotes v w) :
    t.Stands t.Denotes v w := by
  obtain ⟨depth, budget, rest, valued⟩ := h
  exact stands_of_valueOf? (fun less _ _ _ _ _ part => ⟨less, _, _, part⟩) valued

theorem distinct_of_valueOf? {t : Tree} (depth : Nat) :
    ∀ {v : Node} {budget rest : Nat} {w : Value},
      t.valueOf? depth v budget = some (w, rest) → w.Distinct := by
  induction depth using Nat.strong_induction_on with
  | h depth ih =>
      intro v budget rest w valued
      exact (stands_of_valueOf? (fun less below _ _ _ _ part => ih less below part) valued).distinct

theorem Denotes.distinct {t : Tree} {v : Node} {w : Value} (h : t.Denotes v w) : w.Distinct := by
  obtain ⟨depth, budget, rest, valued⟩ := h
  exact distinct_of_valueOf? depth valued

theorem eq_of_valueOf? {t : Tree} (depth : Nat) : ∀ {v : Node} {budget rest : Nat} {w w' : Value},
    t.valueOf? depth v budget = some (w, rest) → t.Denotes v w' → w = w' := by
  induction depth using Nat.strong_induction_on with
  | h depth ih =>
      intro v budget rest w w' valued denotes
      have stands : t.Stands (fun v w => ∀ w', t.Denotes v w' → w = w') v w :=
        stands_of_valueOf? (fun less below _ _ _ _ part _ => ih less below part) valued
      -- Both values follow the node to one place, so that they stand for it in the same way.
      cases stands with
      | scalar node value =>
          cases denotes.stands with
          | scalar node' value' =>
              cases node.symm.trans node'
              exact Option.some.inj (value.symm.trans value')
          | list node' => cases node.symm.trans node'
          | map node' => cases node.symm.trans node'
      | list node parts value =>
          cases denotes.stands with
          | scalar node' => cases node.symm.trans node'
          | list node' parts' value' =>
              cases node.symm.trans node'
              rw [eq_of_forall₂ parts parts'] at value
              exact Option.some.inj (value.symm.trans value')
          | map node' => cases node.symm.trans node'
      | map node parts _ value =>
          cases denotes.stands with
          | scalar node' => cases node.symm.trans node'
          | list node' => cases node.symm.trans node'
          | map node' parts' _ value' =>
              cases node.symm.trans node'
              rw [eq_of_forall₂ (parts.imp fun e f part g part' =>
                Prod.ext (part.1 _ part'.1) (part.2 _ part'.2)) parts'] at value
              exact Option.some.inj (value.symm.trans value')

theorem Denotes.unique {t : Tree} {v : Node} {w w' : Value} (h : t.Denotes v w)
    (h' : t.Denotes v w') : w = w' := by
  obtain ⟨depth, budget, rest, valued⟩ := h
  exact eq_of_valueOf? depth valued h'

theorem denotes_of_value? {t : Tree} {w : Value} (h : t.value? = some w) :
    t.Denotes t.root w := by
  obtain ⟨⟨_, rest⟩, valued, rfl⟩ := Option.map_eq_some_iff.1 h
  exact ⟨maxDepth, t.budget, rest, valued⟩

theorem distinct_of_value? {t : Tree} {w : Value} (h : t.value? = some w) : w.Distinct :=
  (denotes_of_value? h).distinct

end Tree

namespace Tree.Denotes

variable {t : Tree} {v : Node} {w : Value}

theorem scalarNode? {tag : Option String} {style : ScalarStyle} {s : String} (h : t.Denotes v w)
    (node : t.follow? v = some (.scalar tag style s)) : scalarNode? tag style s = some w := by
  cases h.stands with
  | scalar node' value =>
      cases node.symm.trans node'
      exact value
  | list node' => cases node.symm.trans node'
  | map node' => cases node.symm.trans node'

theorem kind {tag : Option String} {style : ScalarStyle} {s : String} (h : t.Denotes v w)
    (node : t.follow? v = some (.scalar tag style s)) : Kind s w.bare := by
  obtain ⟨-, kind⟩ | ⟨name, content, -, rfl, kind⟩ := kind_of_scalarNode? (h.scalarNode? node)
  · rwa [kind.bare]
  · rwa [Value.bare, kind.bare]

theorem scalar_of_null (h : t.Denotes v .null) : ∃ tag style s,
    t.follow? v = some (.scalar tag style s) ∧ localName? tag = none ∧ Kind s .null := by
  have other {tag : Option String} {content : Value} (filled : content.bare ≠ .null) :
      named? tag content ≠ some .null := fun same => filled (bare_of_named? same).symm
  cases h.stands with
  | scalar node value =>
      obtain ⟨bare, kind⟩ | ⟨name, content, -, same, -⟩ := kind_of_scalarNode? value
      · exact ⟨_, _, _, node, bare, kind⟩
      · cases same
  | list node _ value => exact absurd value (other (by simp [Value.bare]))
  | map node _ _ value => exact absurd value (other (by simp [Value.bare]))

/-! ## Reading a node and reading its value -/

theorem kind_of_bareText? {α : Type} {tag : String} {f : String → Option α} {x : α}
    (h : t.Denotes v w) (read : (do f (← (← t.follow? v).bareText? tag)) = some x) :
    ∃ s, Kind s w.bare ∧ f s = some x := by
  obtain ⟨node, followed, read⟩ := Option.bind_eq_some_iff.1 read
  obtain ⟨s, bare, read⟩ := Option.bind_eq_some_iff.1 read
  cases node with
  | scalar tag' style text =>
      obtain ⟨-, rfl⟩ : _ ∧ text = s := by simpa [Node.bareText?] using bare
      exact ⟨text, h.kind followed, read⟩
  | _ => cases bare

theorem eq_of_count? {m n : Nat} (h : t.Denotes v w) (read : t.reading.count? v = some m)
    (read' : Value.reading.count? w = some n) : m = n := by
  obtain ⟨s, kind, natural⟩ := h.kind_of_bareText? read
  have bare : w.bare = .count n := by
    simp only [Value.reading] at read'
    split at read'
    next same => rw [same, Option.some.inj read', Value.count]
    · cases read'
  rw [bare] at kind
  have signed := (naturalText?_eq_some.1 natural).1
  generalize same : Value.count n = u at kind
  cases kind with
  | natural natural' =>
      cases same
      exact Option.some.inj (natural.symm.trans natural')
  | zero signed' => cases signed.symm.trans signed'
  | _ => cases same

theorem beq_of_real? {x y : Float} (h : t.Denotes v w) (read : t.reading.real? v = some x)
    (read' : Value.reading.real? w = some y) (number : x.isNaN = false) : (x == y) = true := by
  obtain ⟨s, kind, real⟩ := h.kind_of_bareText? read
  simp only [Value.reading] at read'
  split at read'
  next n bare =>
    rw [bare] at kind
    rw [← Option.some.inj read']
    exact kind.beq_of_realText? real number
  · cases read'

theorem eq_of_flag? {a b : Bool} (h : t.Denotes v w) (read : t.reading.flag? v = some a)
    (read' : Value.reading.flag? w = some b) : a = b := by
  obtain ⟨s, kind, flag⟩ := h.kind_of_bareText? read
  simp only [Value.reading] at read'
  split at read'
  next c bare =>
    cases read'
    rw [bare] at kind
    generalize same : Value.flag b = u at kind
    cases kind with
    | flag flag' =>
        cases same
        exact Option.some.inj (flag.symm.trans flag')
    | _ => cases same
  · cases read'

theorem scalar_of_text? {s : String} (read : t.reading.text? v = some s) :
    ∃ tag style, t.follow? v = some (.scalar tag style s) := by
  obtain ⟨node, followed, text⟩ := Option.bind_eq_some_iff.1 read
  cases node with
  | scalar tag style s' =>
      cases text
      exact ⟨tag, style, followed⟩
  | _ => cases text

theorem eq_of_text? {a b : String} (h : t.Denotes v w) (read : t.reading.text? v = some a)
    (read' : Value.reading.text? w = some b) : a = b := by
  obtain ⟨tag, style, followed⟩ := scalar_of_text? read
  have kind := h.kind followed
  simp only [Value.reading] at read'
  split at read'
  next c bare =>
    cases read'
    rw [bare] at kind
    exact kind.eq_of_text.symm
  · cases read'

theorem eq_of_word? {a b : String} (h : t.Denotes v w) (read : t.reading.word? v = some a)
    (read' : Value.reading.word? w = some b) : a = b := by
  obtain ⟨node, followed, word⟩ := Option.bind_eq_some_iff.1 read
  cases node with
  | scalar tag style s =>
      simp only [Node.word?] at word
      obtain ⟨bare, kind⟩ | ⟨name, content, given, rfl, kind⟩ :=
        kind_of_scalarNode? (h.scalarNode? followed)
      · rw [bare] at word
        cases word
        cases kind with
        | text => exact Option.some.inj read'
        | _ => cases read'
      · rw [given] at word
        simp only [Option.ite_none_right_eq_some] at word
        cases word.2
        cases content with
        | null => exact Option.some.inj read'
        | _ => cases read'
  | _ => cases word

theorem forall₂_of_items? {vs : List Node} {ws : List Value} (h : t.Denotes v w)
    (read : t.reading.items? v = some vs) (read' : Value.reading.items? w = some ws) :
    List.Forall₂ t.Denotes vs ws := by
  obtain ⟨node, followed, items⟩ := Option.bind_eq_some_iff.1 read
  cases h.stands with
  | scalar node' =>
      cases followed.symm.trans node'
      have kind := h.kind followed
      obtain ⟨-, rfl⟩ : _ ∧ [] = vs := by simpa using items
      simp only [Value.reading] at read'
      split at read'
      next bare =>
        rw [bare] at kind
        cases kind
      · cases read'
        exact .nil
      · cases read'
  | @list tag items' ws' node' parts value =>
      cases followed.symm.trans node'
      cases items
      have same : Value.reading.items? w = some ws' := by
        simp only [Value.reading, bare_of_named? value, Value.bare]
      cases read'.symm.trans same
      exact parts
  | map node' =>
      cases followed.symm.trans node'
      cases items

theorem eq_of_value? {u : Value} (h : t.Denotes v w) (read : t.reading.value? v = some u) :
    u = w := by
  obtain ⟨⟨content, rest⟩, valued, untagged⟩ := Option.bind_eq_some_iff.1 read
  obtain ⟨-, rfl⟩ : _ ∧ content = u := by simpa using untagged
  exact unique ⟨_, _, _, valued⟩ h

end Tree.Denotes
end AnimatedCanvas.Yaml
