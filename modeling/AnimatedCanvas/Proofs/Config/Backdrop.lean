import AnimatedCanvas.Proofs.Config.Paths

namespace AnimatedCanvas

open Reading
open Yaml (Tree Node)

namespace Backdrop

def isMode : Value → Bool
  | .text "mode" => true
  | _ => false

theorem isMode_iff {k : Value} : isMode k = true ↔ k = .text "mode" := by
  unfold isMode
  split
  · simp
  next other => simpa using other

theorem split?_eq_some {ν : Type} {r : Reading ν} {R : ν → Value → Prop}
    (valued : ∀ {v w u}, R v w → r.value? v = some u → u = w) {entries : List (ν × ν)}
    {ws : List (Value × Value)}
    (same : List.Forall₂ (fun e f => R e.1 f.1 ∧ R e.2 f.2) entries ws) :
    ∀ {mode : Option String} {fields : List (Value × Value)},
      split? r entries = some (mode, fields) →
        (fields = ws.filter fun e => !isMode e.1) ∧
          ∀ s, mode = some s → ∃ v w, Value.find? ws (.text "mode") = some w ∧ R v w ∧
            r.text? v = some s := by
  induction same with
  | nil =>
      intro mode fields h
      cases h
      exact ⟨rfl, fun _ none => (nomatch none)⟩
  | @cons e f entries ws head _ ih =>
      intro mode fields h
      obtain ⟨k, v⟩ := e
      obtain ⟨key, w⟩ := f
      obtain ⟨key', read, h⟩ := Option.bind_eq_some_iff.1 h
      obtain rfl := valued head.1 read
      split at h
      next =>
        obtain ⟨s, text, h⟩ := Option.bind_eq_some_iff.1 h
        obtain ⟨⟨mode', fields'⟩, rest, h⟩ := Option.bind_eq_some_iff.1 h
        split at h
        next none =>
          cases h
          cases none
          refine ⟨(ih rest).1.trans (by simp [isMode]), fun s' same => ?_⟩
          cases same
          exact ⟨v, w, Value.find?_cons_self .., head.2, text⟩
        · cases h
      next other =>
        obtain ⟨w', value, h⟩ := Option.bind_eq_some_iff.1 h
        obtain ⟨⟨mode', fields'⟩, rest, h⟩ := Option.bind_eq_some_iff.1 h
        cases h
        obtain rfl := valued head.2 value
        obtain ⟨rfl, named⟩ := ih rest
        have kept : isMode key' = false := Bool.eq_false_iff.2 (mt isMode_iff.1 other)
        refine ⟨by rw [List.filter_cons]; simp [kept], fun s same => ?_⟩
        rw [Value.find?_cons_other other]
        exact named s same

section

variable {ν : Type} {r : Reading ν} {v : ν} {b : Backdrop}

theorem mode_of_read?_map {entries : List (ν × ν)}
    (collection : r.collection? v = some (.map entries)) (h : read? r v = some b) :
    ∃ mode fields, split? r entries = some (some mode, fields) ∧
      (mode = "clear" ∧ b = .clear ∨ mode = "fade" ∧ fade? fields = some b) := by
  unfold read? at h
  rw [collection, Option.bind_eq_bind, Option.bind_some] at h
  obtain ⟨⟨mode, fields⟩, splits, h⟩ := Option.bind_eq_some_iff.1 h
  split at h
  next same =>
    cases h
    cases same
    exact ⟨_, _, splits, .inl ⟨rfl, rfl⟩⟩
  next same =>
    cases same
    exact ⟨_, _, splits, .inr ⟨rfl, h⟩⟩
  · cases h

theorem eq_of_mode {mode : String} {fields fields' : List (Value × Value)} {x y : Backdrop}
    (direct : mode = "clear" ∧ x = .clear ∨ mode = "fade" ∧ fade? fields = some x)
    (layered : mode = "clear" ∧ y = .clear ∨ mode = "fade" ∧ fade? fields' = some y)
    (fades : fade? fields = some x → fade? fields' = some y → x = y) : x = y := by
  obtain ⟨rfl, rfl⟩ | ⟨rfl, direct⟩ := direct
  · obtain ⟨-, rfl⟩ | ⟨clash, -⟩ := layered
    · rfl
    · exact absurd clash (by decide)
  · obtain ⟨clash, -⟩ | ⟨-, layered⟩ := layered
    · exact absurd clash (by decide)
    · exact fades direct layered

def ofList? (mode : String) (fields : List Value) : Option Backdrop :=
  match mode, fields with
  | "clear", [] => some .clear
  | "fade", [color, alpha] => do return .fade (← colorOf? color) (← alphaOf? alpha)
  | _, _ => none

theorem mode_of_read?_list {items : List ν} (collection : r.collection? v = some (.list items))
    (h : read? r v = some b) : ∃ first rest mode fields, items = first :: rest ∧
      rest.mapM r.value? = some fields ∧ r.text? first = some mode ∧
        ofList? mode fields = some b := by
  unfold read? at h
  rw [collection, Option.bind_eq_bind, Option.bind_some] at h
  cases items with
  | nil => cases h
  | cons first rest =>
      obtain ⟨fields, values, h⟩ := Option.bind_eq_some_iff.1 h
      obtain ⟨mode, text, h⟩ := Option.bind_eq_some_iff.1 h
      exact ⟨first, rest, mode, fields, rfl, values, text, h⟩

end

section

variable {t : Tree} {v : Node} {w : Value} {x y : Backdrop}

theorem of_value?_value {v w u : Value} (same : v = w) (h : Value.reading.value? v = some u) :
    u = w := by
  obtain ⟨-, rfl⟩ : _ ∧ v = u := by simpa [Value.reading] using h
  exact same

theorem collection?_of_denotes {collection : Collection Node} (denotes : t.Denotes v w)
    (h : t.reading.collection? v = some collection) :
    (∃ items ws, collection = .list items ∧ w = .list ws ∧
        List.Forall₂ t.Denotes items ws) ∨
      ∃ entries ws, collection = .map entries ∧ w = .map ws ∧ Valued t entries ws := by
  obtain ⟨node, followed, h⟩ := Option.bind_eq_some_iff.1 h
  have untagged {tag : Option String} {content : Value} (bare : (Yaml.localName? tag).isNone = true)
      (named : Tree.named? tag content = some w) : w = content := by
    rw [Tree.named?, Option.isNone_iff_eq_none.1 bare] at named
    exact (Option.some.inj named).symm
  cases denotes.stands with
  | scalar node' =>
      cases followed.symm.trans node'
      cases h
  | list node' parts value =>
      cases followed.symm.trans node'
      obtain ⟨bare, rfl⟩ : _ ∧ Collection.list _ = collection := by simpa using h
      exact .inl ⟨_, _, rfl, untagged (by simpa using bare) value, parts⟩
  | map node' parts _ value =>
      cases followed.symm.trans node'
      obtain ⟨bare, rfl⟩ : _ ∧ Collection.map _ = collection := by simpa using h
      exact .inr ⟨_, _, rfl, untagged (by simpa using bare) value, parts⟩

theorem eq_of_lists {items : List Node} {ws : List Value}
    (collection : t.reading.collection? v = some (.list items))
    (parts : List.Forall₂ t.Denotes items ws) (direct : read? t.reading v = some x)
    (layered : read? Value.reading (.list ws) = some y) : x = y := by
  obtain ⟨first, rest, mode, fields, rfl, values, text, direct⟩ :=
    mode_of_read?_list collection direct
  obtain ⟨first', rest', mode', fields', rfl, values', text', layered⟩ :=
    mode_of_read?_list
      (show Value.reading.collection? (.list ws) = some (.list ws) from rfl) layered
  obtain ⟨head, tail⟩ := List.forall₂_cons.1 parts
  have same : List.Forall₂ Eq fields rest' :=
    forall₂_trans (Codec.mapM_eq_some_iff.1 values).flip tail
      fun _ _ _ value denotes => denotes.eq_of_value? value
  have same' : List.Forall₂ Eq rest' fields' :=
    (Codec.mapM_eq_some_iff.1 values').imp fun _ _ value => (of_value?_value rfl value).symm
  rw [List.forall₂_eq_eq_eq] at same same'
  rw [head.eq_of_text? text text', same.trans same'] at direct
  exact Option.some.inj (direct.symm.trans layered)

theorem eq_of_maps {entries : List (Node × Node)} {ws : List (Value × Value)}
    (collection : t.reading.collection? v = some (.map entries))
    (valued : Valued t entries ws) (direct : read? t.reading v = some x)
    (layered : read? Value.reading (.map ws) = some y) : x = y := by
  obtain ⟨mode, fields, splits, direct⟩ := mode_of_read?_map collection direct
  obtain ⟨mode', fields', splits', layered⟩ :=
    mode_of_read?_map (show Value.reading.collection? (.map ws) = some (.map ws) from rfl) layered
  obtain ⟨rfl, named⟩ :=
    split?_eq_some (fun denotes value => denotes.eq_of_value? value) valued splits
  obtain ⟨rfl, named'⟩ := split?_eq_some of_value?_value
    (List.forall₂_same.2 fun _ _ => ⟨rfl, rfl⟩) splits'
  obtain ⟨m, w, found, denotes, text⟩ := named mode rfl
  obtain ⟨w', _, found', rfl, text'⟩ := named' mode' rfl
  cases found.symm.trans found'
  cases denotes.eq_of_text? text text'
  exact eq_of_mode direct layered fun direct layered =>
    Option.some.inj (direct.symm.trans layered)

end

def isMember (m : Member) (e : Value × Value) : Bool := decide (member? e.1 = some m)

theorem filter_of_only? {m : Member} {v : Value} {fields : List (Value × Value)}
    {named : List (Member × Value)}
    (same : List.Forall₂ (fun e f => member? e.1 = some f.1 ∧ f.2 = e.2) fields named)
    (h : only? m named = some v) : ∃ k, fields.filter (isMember m) = [(k, v)] := by
  have kept : List.Forall₂ (fun e f => member? e.1 = some f.1 ∧ f.2 = e.2)
      (fields.filter (isMember m)) (named.filter (·.1 == m)) := by
    refine List.rel_filter (fun e f related => ?_) same
    simp [isMember, related.1]
  unfold only? at h
  split at h
  next m' w single =>
    cases h
    rw [single, List.forall₂_cons_right_iff] at kept
    obtain ⟨⟨k, v⟩, _, related, rest, same⟩ := kept
    cases rest
    obtain ⟨-, rfl⟩ := related
    exact ⟨k, same⟩
  · cases h

theorem members_of_fade? {fields : List (Value × Value)} {b : Backdrop}
    (h : fade? fields = some b) : ∃ ck cv ak av color alpha,
      fields.filter (isMember .color) = [(ck, cv)] ∧
        fields.filter (isMember .alpha) = [(ak, av)] ∧
          colorOf? cv = some color ∧ alphaOf? av = some alpha ∧ b = .fade color alpha := by
  obtain ⟨named, mapped, h⟩ := Option.bind_eq_some_iff.1 h
  obtain ⟨cv, onlyColor, h⟩ := Option.bind_eq_some_iff.1 h
  obtain ⟨color, readColor, h⟩ := Option.bind_eq_some_iff.1 h
  obtain ⟨av, onlyAlpha, h⟩ := Option.bind_eq_some_iff.1 h
  obtain ⟨alpha, readAlpha, h⟩ := Option.bind_eq_some_iff.1 h
  cases h
  have same : List.Forall₂ (fun e f => member? e.1 = some f.1 ∧ f.2 = e.2) fields named :=
    (Codec.mapM_eq_some_iff.1 mapped).imp fun e f h => by
      obtain ⟨m, member, h⟩ := Option.bind_eq_some_iff.1 h
      cases h
      exact ⟨member, rfl⟩
  obtain ⟨ck, colors⟩ := filter_of_only? same onlyColor
  obtain ⟨ak, alphas⟩ := filter_of_only? same onlyAlpha
  exact ⟨ck, cv, ak, av, color, alpha, colors, alphas, readColor, readAlpha, rfl⟩

def fading (color : Color) (alpha : Float) : List (String × Value) :=
  [("mode", .text "fade"), ("color", color.value), ("alpha", .real alpha)]

section

variable {color : Color} {alpha : Float} {ws es : List (Value × Value)}

theorem nodup_fading : ((fading color alpha).map Prod.fst).Nodup :=
  show ["mode", "color", "alpha"].Nodup by decide

theorem only_layered (keys : ws.Pairwise fun a b => a.1.same b.1 = false)
    (layered : (Value.record (fading color alpha)).merge (.map ws) = .map es)
    {m : Member} {name : String} (mode : name ≠ "mode")
    (named : ∀ f ∈ fading color alpha, member? (.text f.1) = some m ↔ f.1 = name)
    {old : Value} (listed : (name, old) ∈ fading color alpha)
    (flat : ∀ entries, old ≠ .map entries)
    {k v k' v' : Value} (given : v ≠ .null)
    (only : (ws.filter fun e => !isMode e.1).filter (isMember m) = [(k, v)])
    (only' : (es.filter fun e => !isMode e.1).filter (isMember m) = [(k', v')]) : v' = v := by
  rw [Value.merge_record nodup_fading keys] at layered
  cases layered
  have member : (k, v) ∈ (ws.filter fun e => !isMode e.1).filter (isMember m) := by
    rw [only]
    exact List.mem_singleton_self _
  obtain ⟨inside, isMember⟩ := List.mem_filter.1 member
  obtain ⟨inside, notMode⟩ := List.mem_filter.1 inside
  have single {e : Value × Value} (inside : e ∈ _) (notMode : (!isMode e.1) = true)
      (isMember : Backdrop.isMember m e = true) : e = (k', v') :=
    List.mem_singleton.1
      (only' ▸ List.mem_filter.2 ⟨List.mem_filter.2 ⟨inside, notMode⟩, isMember⟩)
  have merged := single (List.mem_append_left _ (List.mem_map_of_mem listed))
    (by
      rw [Bool.not_eq_true', Bool.eq_false_iff]
      exact fun same => mode (Value.text.inj (isMode_iff.1 same)))
    (decide_eq_true ((named _ listed).2 rfl))
  -- A field that the default did not have would be a second one of this member.
  have old : ((fading color alpha).map Value.entry).any (fun f => f.1.same k) = true := by
    by_contra new
    have here := single (List.mem_append_right _ (List.mem_filter.2
      ⟨inside, by rw [Bool.eq_false_iff.2 new]; rfl⟩)) notMode isMember
    rw [← merged] at here
    cases here
    exact new (Value.any_same_iff.2 ⟨name, rfl, List.mem_map_of_mem listed⟩)
  obtain ⟨n, rfl, known⟩ := Value.any_same_iff.1 old
  obtain ⟨f, there, rfl⟩ := List.mem_map.1 known
  obtain rfl := (named f there).1 (of_decide_eq_true isMember)
  have found : (Value.map ws).member f.1 = v := by
    rw [Value.member, Value.find?_of_mem keys inside, Option.getD_some]
  cases merged
  rw [found, Value.merge_of_ne_null flat given]

theorem eq_of_fades {x y : Backdrop} (keys : ws.Pairwise fun a b => a.1.same b.1 = false)
    (merged : (Value.record (fading color alpha)).merge (.map ws) = .map es)
    (direct : fade? (ws.filter fun e => !isMode e.1) = some x)
    (layered : fade? (es.filter fun e => !isMode e.1) = some y) : x = y := by
  obtain ⟨ck, cv, ak, av, shade, size, colors, alphas, readColor, readAlpha, rfl⟩ :=
    members_of_fade? direct
  obtain ⟨ck', cv', ak', av', shade', size', colors', alphas', readColor', readAlpha', rfl⟩ :=
    members_of_fade? layered
  have atColor : ("color", color.value) ∈ fading color alpha :=
    List.mem_cons_of_mem _ List.mem_cons_self
  have atAlpha : ("alpha", .real alpha) ∈ fading color alpha :=
    List.mem_cons_of_mem _ (List.mem_cons_of_mem _ List.mem_cons_self)
  have sameColor : cv' = cv := by
    refine only_layered keys merged (by decide) ?_ atColor (by simp [Color.value]) ?_
      colors colors'
    · simp [fading, member?]
    · rintro rfl
      cases readColor
  have sameAlpha : av' = av := by
    refine only_layered keys merged (by decide) ?_ atAlpha (by simp [Value.real]) ?_
      alphas alphas'
    · simp [fading, member?]
    · rintro rfl
      cases readAlpha
  rw [sameColor, readColor] at readColor'
  rw [sameAlpha, readAlpha] at readAlpha'
  rw [Option.some.inj readColor', Option.some.inj readAlpha']

theorem eq_of_layered {t : Tree} {v : Node} {entries : List (Node × Node)} {x y : Backdrop}
    (collection : t.reading.collection? v = some (.map entries))
    (valued : Valued t entries ws) (keys : ws.Pairwise fun a b => a.1.same b.1 = false)
    (direct : read? t.reading v = some x)
    (layered : read? Value.reading ((Backdrop.fade color alpha).value.merge (.map ws)) = some y) :
    x = y := by
  obtain ⟨es, merged, mode⟩ : ∃ es,
      (Value.record (fading color alpha)).merge (.map ws) = .map es ∧
      Value.find? es (.text "mode") =
        some ((Value.text "fade").merge ((Value.map ws).member "mode")) := by
    rw [Value.merge_record nodup_fading keys]
    exact ⟨_, rfl, Value.find?_cons_self ..⟩
  rw [show (Backdrop.fade color alpha).value = Value.record (fading color alpha) from rfl,
    merged] at layered
  obtain ⟨s, fields, splits, direct⟩ := mode_of_read?_map collection direct
  obtain ⟨s', fields', splits', layered⟩ :=
    mode_of_read?_map (show Value.reading.collection? (.map es) = some (.map es) from rfl) layered
  obtain ⟨rfl, named⟩ :=
    split?_eq_some (fun denotes value => denotes.eq_of_value? value) valued splits
  obtain ⟨rfl, named'⟩ := split?_eq_some of_value?_value
    (List.forall₂_same.2 fun _ _ => ⟨rfl, rfl⟩) splits'
  obtain ⟨node, w, found, denotes, text⟩ := named s rfl
  obtain ⟨w', _, found', rfl, text'⟩ := named' s' rfl
  -- A null would leave the mode of the default, but what stands for null is no mode.
  have given : w ≠ .null := by
    rintro rfl
    obtain ⟨tag, style, followed⟩ := Yaml.Tree.Denotes.scalar_of_text? text
    have other := (denotes.kind followed).of_null (p := fun s => s ≠ "clear" ∧ s ≠ "fade")
      (by decide)
    obtain ⟨clear, -⟩ | ⟨fade, -⟩ := direct
    · exact other.1 clear
    · exact other.2 fade
  have replaced : w' = w := by
    rw [Value.member, found, Option.getD_some, Value.merge_of_ne_null (by simp) given,
      found'] at mode
    exact Option.some.inj mode
  cases replaced
  cases denotes.eq_of_text? text text'
  exact eq_of_mode direct layered (eq_of_fades keys merged)

end

theorem eq_of_loaded {t : Tree} {color : Color} {alpha : Float} {x y : Backdrop}
    (h : Codec.backdrop.Loaded t (.fade color alpha) x y) : x = y := by
  cases h with
  | missing direct layered => rw [direct, layered]
  | @given v w u denotes direct layered source =>
      obtain ⟨collection, found, -⟩ := Option.bind_eq_some_iff.1 direct
      obtain ⟨items, ws, rfl, rfl, parts⟩ | ⟨entries, ws, rfl, rfl, valued⟩ :=
        collection?_of_denotes denotes found
      · have replaced : u = .list ws :=
          source.elim id fun merged => merged.trans (by rw [Value.merge])
        exact eq_of_lists found parts direct (replaced ▸ layered)
      · obtain rfl | rfl := source
        · exact eq_of_maps found valued direct layered
        · exact eq_of_layered found valued denotes.distinct.keys direct layered

end Backdrop
end AnimatedCanvas
