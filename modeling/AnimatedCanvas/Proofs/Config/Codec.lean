import AnimatedCanvas.Config.Load
import AnimatedCanvas.Proofs.Color
import AnimatedCanvas.Proofs.Document.Represents
import Mathlib.Tactic.Simps.Basic

namespace AnimatedCanvas

open Reading

structure Codec (β : Type) where
  read? : {ν : Type} → Reading ν → ν → Option β
  value : β → Value
  Regular : β → Prop
  regular_of_read? : ∀ {ν : Type} {r : Reading ν} {v : ν} {b : β}, read? r v = some b → Regular b
  read?_of_represents : ∀ {ν : Type} {r : Reading ν} {v : ν} {b : β},
    Regular b → Represents r (value b) v → read? r v = some b
  represents_value : ∀ b, Represents Value.reading (value b) (value b)

namespace Codec

@[simps -fullyApplied]
def count : Codec Nat where
  read? := Reading.count?
  value := .count
  Regular _ := True
  regular_of_read? _ := trivial
  read?_of_represents _ h := represents_count.1 h
  represents_value _ := represents_count.2 rfl

@[simps -fullyApplied]
def real : Codec Float where
  read? := Reading.real?
  value := .real
  Regular _ := True
  regular_of_read? _ := trivial
  read?_of_represents _ h := (represents_real.1 h).1
  represents_value _ := represents_real.2 ⟨rfl, _, rfl, rfl⟩

@[simps -fullyApplied]
def flag : Codec Bool where
  read? := Reading.flag?
  value := .flag
  Regular _ := True
  regular_of_read? _ := trivial
  read?_of_represents _ h := represents_flag.1 h
  represents_value _ := represents_flag.2 rfl

@[simps -fullyApplied]
def span : Codec Span where
  read? := Span.read?
  value := Span.value
  Regular _ := True
  regular_of_read? _ := trivial
  read?_of_represents := by
    intro ν r v s _ h
    obtain ⟨nodes, items, same⟩ := represents_list.1 h
    obtain ⟨min, _, first, rest, rfl⟩ := List.forall₂_cons_left_iff.1 same
    obtain ⟨max, _, second, last, rfl⟩ := List.forall₂_cons_left_iff.1 rest
    obtain rfl := List.forall₂_nil_left_iff.1 last
    simp [Span.read?, items, (represents_real.1 first).1, (represents_real.1 second).1]
  represents_value s := Value.represents_list_self
    (List.forall_mem_cons.2 ⟨real.represents_value s.min,
      List.forall_mem_cons.2 ⟨real.represents_value s.max, List.forall_mem_nil _⟩⟩)

@[simps -fullyApplied]
def color : Codec Color where
  read? := Color.ofNode?
  value := Color.value
  Regular := Color.Opaque
  regular_of_read? h := by
    obtain ⟨text, -, read⟩ := Option.bind_eq_some_iff.1 h
    exact Color.opaque_of_read? read
  read?_of_represents clear h :=
    Option.bind_eq_some_iff.2 ⟨_, (represents_text.1 h).1, Color.read?_hex clear⟩
  represents_value _ := Value.represents_text_self _

theorem mapM_eq_some_iff {α β : Type} {f : α → Option β} {xs : List α} {ys : List β} :
    xs.mapM f = some ys ↔ List.Forall₂ (fun x y => f x = some y) xs ys := by
  induction xs generalizing ys with
  | nil => simp [eq_comm]
  | cons x xs ih =>
      rw [List.mapM_cons]
      simp only [Option.bind_eq_bind, Option.bind_eq_some_iff, Option.pure_def, Option.some.injEq,
        ih, List.forall₂_cons_left_iff]
      constructor
      · rintro ⟨y, head, ys, tail, rfl⟩
        exact ⟨y, ys, head, tail, rfl⟩
      · rintro ⟨y, ys, head, tail, rfl⟩
        exact ⟨y, head, ys, tail, rfl⟩

theorem forall_of_forall₂ {α β : Type} {R : α → β → Prop} {p : β → Prop} {xs : List α}
    {ys : List β} (h : List.Forall₂ R xs ys) (holds : ∀ {x y}, R x y → p y) : ∀ y ∈ ys, p y := by
  induction h with
  | nil => exact List.forall_mem_nil _
  | cons head _ ih => exact List.forall_mem_cons.2 ⟨holds head, ih⟩

@[simps -fullyApplied]
def palette : Codec (List Color) where
  read? := Color.palette?
  value := Color.paletteValue
  Regular cs := ∀ c ∈ cs, c.Opaque
  regular_of_read? := by
    intro ν r v cs h
    obtain ⟨nodes, -, read⟩ := Option.bind_eq_some_iff.1 h
    exact forall_of_forall₂ (mapM_eq_some_iff.1 read) color.regular_of_read?
  read?_of_represents := by
    intro ν r v cs clear h
    obtain ⟨nodes, items, same⟩ := represents_list.1 h
    refine Option.bind_eq_some_iff.2 ⟨nodes, items, mapM_eq_some_iff.2 ?_⟩
    have both := (List.forall₂_and_left _ _).2 ⟨clear, List.forall₂_map_left_iff.1 same⟩
    exact (both.imp fun c node h => color.read?_of_represents h.1 h.2).flip
  represents_value cs := by
    refine Value.represents_list_self fun w member => ?_
    obtain ⟨c, -, rfl⟩ := List.mem_map.1 member
    exact color.represents_value c

@[simps -fullyApplied]
def force : Codec PointerForce where
  read? := PointerForce.read?
  value f := .text f.name
  Regular _ := True
  regular_of_read? _ := trivial
  read?_of_represents := by
    intro ν r v f _ h
    have word := (represents_text.1 h).2.1
    unfold PointerForce.read?
    rw [word]
    cases f <;> rfl
  represents_value _ := Value.represents_text_self _

@[simps -fullyApplied]
def style : Codec WaveStyle where
  read? := WaveStyle.read?
  value s := .text s.name
  Regular _ := True
  regular_of_read? _ := trivial
  read?_of_represents := by
    intro ν r v s _ h
    have word := (represents_text.1 h).2.1
    unfold WaveStyle.read?
    rw [word]
    cases s <;> rfl
  represents_value _ := Value.represents_text_self _

end Codec

namespace Backdrop

def Regular : Backdrop → Prop
  | .clear => True
  | .fade color _ => color.Opaque

theorem opaque_of_colorOf? {v : Value} {c : Color} (h : colorOf? v = some c) : c.Opaque := by
  cases v with
  | text s => exact Color.opaque_of_read? h
  | _ => cases h

theorem regular_of_read? {ν : Type} {r : Reading ν} {v : ν} {b : Backdrop}
    (h : read? r v = some b) : b.Regular := by
  unfold read? at h
  obtain ⟨collection, -, h⟩ := Option.bind_eq_some_iff.1 h
  split at h
  · obtain ⟨⟨mode, fields⟩, -, h⟩ := Option.bind_eq_some_iff.1 h
    split at h
    · cases h
      trivial
    · unfold fade? at h
      simp only [Option.bind_eq_bind, Option.bind_eq_some_iff, Option.pure_def,
        Option.some.injEq] at h
      obtain ⟨_, -, _, -, color, read, _, -, alpha, -, rfl⟩ := h
      exact opaque_of_colorOf? read
    · cases h
  · cases h
  · simp only [Option.bind_eq_bind, Option.bind_eq_some_iff] at h
    obtain ⟨fields, -, mode, -, h⟩ := h
    split at h
    · cases h
      trivial
    · simp only [Option.bind_eq_some_iff, Option.pure_def, Option.some.injEq] at h
      obtain ⟨color, read, alpha, -, rfl⟩ := h
      exact opaque_of_colorOf? read
    · cases h

theorem read?_of_represents {ν : Type} {r : Reading ν} {v : ν} {b : Backdrop} (regular : b.Regular)
    (h : Represents r b.value v) : read? r v = some b := by
  cases b with
  | clear =>
      obtain ⟨entries, -, collection, same⟩ := represents_record.1 h
      obtain ⟨mode, _, first, last, rfl⟩ := List.forall₂_cons_left_iff.1 same
      obtain rfl := List.forall₂_nil_left_iff.1 last
      have text := (represents_text.1 first.node).1
      simp [read?, collection, split?, first.key, text]
  | fade color alpha =>
      obtain ⟨entries, -, collection, same⟩ := represents_record.1 h
      obtain ⟨mode, _, first, rest, rfl⟩ := List.forall₂_cons_left_iff.1 same
      obtain ⟨shade, _, second, rest', rfl⟩ := List.forall₂_cons_left_iff.1 rest
      obtain ⟨size, _, third, last, rfl⟩ := List.forall₂_cons_left_iff.1 rest'
      obtain rfl := List.forall₂_nil_left_iff.1 last
      have text := (represents_text.1 first.node).1
      have colorText := (represents_text.1 second.node).2.2
      obtain ⟨n, number, same⟩ := (represents_real.1 third.node).2
      simp [read?, collection, split?, first.key, text, second.key, third.key, colorText, number,
        fade?, member?, only?, colorOf?, alphaOf?, Color.read?_hex regular, same]

end Backdrop

@[simps -fullyApplied]
def Codec.backdrop : Codec Backdrop where
  read? := Backdrop.read?
  value := Backdrop.value
  Regular := Backdrop.Regular
  regular_of_read? := Backdrop.regular_of_read?
  read?_of_represents := Backdrop.read?_of_represents
  represents_value b := by
    cases b with
    | clear =>
        exact Value.represents_record_self
          (List.forall_mem_cons.2 ⟨Value.represents_text_self _, List.forall_mem_nil _⟩)
    | fade color alpha =>
        exact Value.represents_record_self
          (List.forall_mem_cons.2 ⟨Value.represents_text_self _, List.forall_mem_cons.2
            ⟨Codec.color.represents_value color, List.forall_mem_cons.2
              ⟨Codec.real.represents_value alpha, List.forall_mem_nil _⟩⟩⟩)

end AnimatedCanvas
