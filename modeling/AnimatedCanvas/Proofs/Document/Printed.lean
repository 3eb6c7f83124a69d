import AnimatedCanvas.Document.Value
import Mathlib.Data.List.Basic

namespace AnimatedCanvas

deriving instance DecidableEq for Number

namespace Value

def isPlainChar (c : Char) : Bool := c.isAlphanum || c == '_' || c == '#'

structure PlainText (s : String) : Prop where
  nonempty : s.toList ≠ []
  plain : ∀ c ∈ s.toList, isPlainChar c = true

theorem PlainText.of_isWord {s : String} (h : isWord s = true) : PlainText s := by
  simp only [isWord, Bool.and_eq_true, List.all_eq_true] at h
  refine ⟨by simpa using h.1.1, fun c member => ?_⟩
  obtain alpha | same := Bool.or_eq_true_iff.1 (h.1.2 c member)
  · simp [isPlainChar, Char.isAlphanum, alpha]
  · simp [isPlainChar, same]

structure KeyText (s : String) : Prop where
  word : isWord s = true
  short : s.toList.length ≤ 1024

instance (s : String) : Decidable (KeyText s) :=
  decidable_of_iff (isWord s = true ∧ s.toList.length ≤ 1024)
    ⟨fun h => ⟨h.1, h.2⟩, fun h => ⟨h.word, h.short⟩⟩

section

variable (allowed : Number → Prop)

inductive Scalar : Value → Prop where
  | natural {n : Nat} (number : allowed (.natural n)) : Scalar (.count n)
  | real {x : Float} (number : allowed (.real x)) : Scalar (.real x)
  | flag (b : Bool) : Scalar (.flag b)
  | text {s : String} (plain : PlainText s) : Scalar (.text s)

inductive Printed : Value → Prop where
  | scalar {w : Value} (scalar : Scalar allowed w) : Printed w
  | list {items : List Value} (nonempty : items ≠ []) (each : ∀ w ∈ items, Scalar allowed w) :
    Printed (.list items)
  | record {fields : List (String × Value)} (nonempty : fields ≠ [])
    (names : ∀ f ∈ fields, KeyText f.1) (parts : ∀ f ∈ fields, Printed f.2) :
    Printed (.record fields)

end

section

variable {allowed : Number → Prop}

theorem record_injective : Function.Injective record := by
  intro fields fields' same
  rw [record, record, Value.map.injEq] at same
  refine List.map_injective_iff.2 ?_ same
  rintro ⟨k, v⟩ ⟨k', v'⟩ same
  cases same
  rfl

theorem printed_record {fields : List (String × Value)} : Printed allowed (.record fields) ↔
    fields ≠ [] ∧ (∀ f ∈ fields, KeyText f.1) ∧ ∀ f ∈ fields, Printed allowed f.2 := by
  constructor
  · intro h
    generalize same : record fields = w at h
    cases h with
    | scalar scalar => cases scalar <;> cases same
    | list => cases same
    | record nonempty names parts =>
        obtain rfl := record_injective same
        exact ⟨nonempty, names, parts⟩
  · rintro ⟨nonempty, names, parts⟩
    exact .record nonempty names parts

end

mutual

def numbers : Value → List Number
  | .number n => [n]
  | .list items => itemNumbers items
  | .map entries => entryNumbers entries
  | .tagged _ content => numbers content
  | .null => []
  | .flag _ => []
  | .text _ => []

def itemNumbers : List Value → List Number
  | [] => []
  | v :: rest => numbers v ++ itemNumbers rest

def entryNumbers : List (Value × Value) → List Number
  | [] => []
  | (k, v) :: rest => numbers k ++ (numbers v ++ entryNumbers rest)

end

theorem mem_itemNumbers {n : Number} {items : List Value} :
    n ∈ itemNumbers items ↔ ∃ w ∈ items, n ∈ numbers w := by
  induction items with
  | nil => simp [itemNumbers]
  | cons w items ih => simp [itemNumbers, ih]

theorem mem_numbers_record {n : Number} {fields : List (String × Value)} :
    n ∈ numbers (.record fields) ↔ ∃ f ∈ fields, n ∈ numbers f.2 := by
  rw [record, numbers]
  induction fields with
  | nil => simp [entryNumbers]
  | cons f fields ih =>
      rw [List.map_cons, entryNumbers, numbers, List.nil_append, List.mem_append, ih]
      simp

theorem Scalar.of_numbers {allowed other : Number → Prop} {w : Value} (h : Scalar allowed w)
    (each : ∀ n ∈ w.numbers, allowed n → other n) : Scalar other w := by
  cases h with
  | natural number => exact .natural (each _ (List.mem_singleton_self _) number)
  | real number => exact .real (each _ (List.mem_singleton_self _) number)
  | flag b => exact .flag b
  | text plain => exact .text plain

theorem Printed.of_numbers {allowed other : Number → Prop} {w : Value} (h : Printed allowed w)
    (each : ∀ n ∈ w.numbers, allowed n → other n) : Printed other w := by
  induction h with
  | scalar scalar => exact .scalar (scalar.of_numbers each)
  | list nonempty items =>
      refine .list nonempty fun w member => (items w member).of_numbers fun n inside => ?_
      exact each n (mem_itemNumbers.2 ⟨w, member, inside⟩)
  | record nonempty names _ ih =>
      refine .record nonempty names fun f member => ih f member fun n inside => ?_
      exact each n (mem_numbers_record.2 ⟨f, member, inside⟩)

end Value
end AnimatedCanvas
