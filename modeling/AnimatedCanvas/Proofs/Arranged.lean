import Mathlib.Data.Prod.Lex
import Mathlib.Data.Set.Card

namespace AnimatedCanvas

/-- The items are those of the places, from the first place to the last, one each. -/
def Arranged {ι α : Type} [LT ι] (P : ι → α → Prop) (items : List α) : Prop :=
  ∃ places : List ι, places.Pairwise (· < ·) ∧ (∀ i, i ∈ places ↔ ∃ a, P i a) ∧
    List.Forall₂ P places items

namespace Arranged

section Places

variable {ι ι' κ α : Type} [Preorder ι] [Preorder ι'] [Preorder κ] {P : ι → α → Prop}
  {Q : ι' → α → Prop} {R : κ → α → Prop} {items others : List α}

theorem congr {P' : ι → α → Prop} (h : Arranged P items) (same : ∀ i a, P' i a ↔ P i a) :
    Arranged P' items := by
  rwa [show P' = P from funext₂ fun i a => propext (same i a)]

theorem nil (none : ∀ i a, ¬ P i a) : Arranged P [] :=
  ⟨[], .nil, fun i => by simp [none], .nil⟩

theorem join (first : ι → κ) (second : ι' → κ) (mono : StrictMono first) (mono' : StrictMono second)
    (before : ∀ i j a b, P i a → Q j b → first i < second j) (h : Arranged P items)
    (h' : Arranged Q others)
    (joined : ∀ k a, R k a ↔ (∃ i, first i = k ∧ P i a) ∨ ∃ j, second j = k ∧ Q j a) :
    Arranged R (items ++ others) := by
  obtain ⟨places, sorted, all, shown⟩ := h
  obtain ⟨places', sorted', all', shown'⟩ := h'
  refine ⟨places.map first ++ places'.map second, List.pairwise_append.mpr ⟨?_, ?_, ?_⟩, fun k => ?_,
    List.rel_append ?_ ?_⟩
  · exact List.pairwise_map.mpr (sorted.imp (mono ·))
  · exact List.pairwise_map.mpr (sorted'.imp (mono' ·))
  · intro k member k' member'
    obtain ⟨i, here, rfl⟩ := List.mem_map.mp member
    obtain ⟨j, there, rfl⟩ := List.mem_map.mp member'
    obtain ⟨a, here⟩ := (all i).mp here
    obtain ⟨b, there⟩ := (all' j).mp there
    exact before i j a b here there
  · simp only [List.mem_append, List.mem_map, all, all', joined]
    constructor
    · rintro (⟨i, ⟨a, here⟩, rfl⟩ | ⟨j, ⟨a, there⟩, rfl⟩)
      · exact ⟨a, .inl ⟨i, rfl, here⟩⟩
      · exact ⟨a, .inr ⟨j, rfl, there⟩⟩
    · rintro ⟨a, ⟨i, same, here⟩ | ⟨j, same, there⟩⟩
      · exact .inl ⟨i, ⟨a, here⟩, same⟩
      · exact .inr ⟨j, ⟨a, there⟩, same⟩
  · exact List.forall₂_map_left_iff.mpr
      (shown.imp fun i a here => (joined _ a).mpr (.inl ⟨i, rfl, here⟩))
  · exact List.forall₂_map_left_iff.mpr
      (shown'.imp fun j a there => (joined _ a).mpr (.inr ⟨j, rfl, there⟩))

theorem exists_of_mem (h : Arranged P items) {a : α} (member : a ∈ items) : ∃ i, P i a := by
  obtain ⟨places, -, -, shown⟩ := h
  induction shown with
  | nil => cases member
  | cons here _ ih =>
      rcases List.mem_cons.mp member with rfl | later
      · exact ⟨_, here⟩
      · exact ih later

theorem length_eq (h : Arranged P items) : items.length = {i | ∃ a, P i a}.ncard := by
  classical
  obtain ⟨places, sorted, all, shown⟩ := h
  have same : {i | ∃ a, P i a} = (places.toFinset : Set ι) := by
    ext i
    simp [all]
  rw [same, Set.ncard_coe_finset, List.toFinset_card_of_nodup (sorted.imp ne_of_lt)]
  exact shown.length_eq.symm

end Places

variable {α β : Type}

theorem toList (item : Option α) :
    Arranged (fun (i : Nat) a => i = 0 ∧ item = some a) item.toList := by
  cases item with
  | none => exact nil (by simp)
  | some a => exact ⟨[0], List.pairwise_singleton _ _, fun i => by simp, .cons ⟨rfl, rfl⟩ .nil⟩

theorem filterMap (collect : α → Option β) (as : List α) :
    Arranged (fun (i : Nat) b => ∃ a, as[i]? = some a ∧ collect a = some b) (as.filterMap collect) := by
  induction as with
  | nil => exact nil (by simp)
  | cons a as ih =>
      have split : (a :: as).filterMap collect = (collect a).toList ++ as.filterMap collect := by
        cases collected : collect a <;> simp [collected]
      rw [split]
      refine join id (· + 1) strictMono_id (fun _ _ => Nat.succ_lt_succ) (fun i j _ _ first _ => ?_)
        (toList (collect a)) ih fun k b => ?_
      · exact first.1 ▸ j.succ_pos
      · cases k with
        | zero => simp
        | succ k => simp

end Arranged

def Tabled {α : Type} (P : Nat → Nat → α → Prop) (items : List α) : Prop :=
  Arranged (fun place : Nat ×ₗ Nat => P (ofLex place).1 (ofLex place).2) items

namespace Tabled

variable {α β : Type} {P : Nat → α → Prop} {Q R : Nat → Nat → α → Prop} {items others : List α}

theorem nil (none : ∀ i j a, ¬ Q i j a) : Tabled Q [] := Arranged.nil fun _ => none _ _

theorem cons {column column' : Nat → Nat} (mono : StrictMono column) (mono' : StrictMono column')
    (row : Arranged P items) (rows : Tabled Q others)
    (first : ∀ j a, R 0 j a ↔ ∃ k, column k = j ∧ P k a)
    (later : ∀ i j a, R (i + 1) j a ↔ ∃ k, column' k = j ∧ Q i k a) : Tabled R (items ++ others) := by
  -- A later row moves down by one, and its columns may begin elsewhere than those of the first.
  refine Arranged.join (fun k => toLex (0, column k))
    (fun place => toLex ((ofLex place).1 + 1, column' (ofLex place).2)) ?_ ?_ ?_ row rows ?_
  · intro k k' less
    simp [Prod.Lex.toLex_lt_toLex, mono less]
  · intro place place' less
    rw [Prod.Lex.lt_iff] at less
    simpa [Prod.Lex.toLex_lt_toLex, mono'.lt_iff_lt] using less
  · intro k place _ _ _ _
    simp [Prod.Lex.toLex_lt_toLex]
  · intro place a
    obtain ⟨⟨i, j⟩, rfl⟩ := toLex.surjective place
    cases i with
    | zero => simp [first]
    | succ i => simp [later]

theorem flatMap {P : α → Nat → β → Prop} {row : α → List β} {as : List α}
    (each : ∀ a ∈ as, Arranged (P a) (row a)) :
    Tabled (fun i j b => ∃ a, as[i]? = some a ∧ P a j b) (as.flatMap row) := by
  induction as with
  | nil => exact nil (by simp)
  | cons a as ih =>
      obtain ⟨here, later⟩ := List.forall_mem_cons.mp each
      exact cons strictMono_id strictMono_id here (ih later) (by simp) (by simp)

theorem exists_of_mem (h : Tabled Q items) {a : α} (member : a ∈ items) : ∃ i j, Q i j a := by
  obtain ⟨place, here⟩ := Arranged.exists_of_mem h member
  exact ⟨_, _, here⟩

theorem length_eq (h : Tabled Q items) :
    items.length = {place : Nat × Nat | ∃ a, Q place.1 place.2 a}.ncard := by
  change _ = {place : Nat ×ₗ Nat | ∃ a, Q (ofLex place).1 (ofLex place).2 a}.ncard
  exact Arranged.length_eq h

end Tabled
end AnimatedCanvas
