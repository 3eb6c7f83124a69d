import AnimatedCanvas.Color
import AnimatedCanvas.Proofs.Text

namespace AnimatedCanvas

def Color.Opaque (c : Color) : Prop := c.alpha = 1.0

namespace Color

theorem opaque_rgb (red green blue : UInt8) : (rgb red green blue).Opaque := rfl

theorem opaque_of_read? {text : String} {c : Color} (h : Color.read? text = some c) : c.Opaque := by
  unfold read? at h
  split at h
  · simp only [Option.bind_eq_bind, Option.bind_eq_some_iff, Option.pure_def,
      Option.some.injEq] at h
    obtain ⟨r, -, g, -, b, -, rfl⟩ := h
    rfl
  · cases h

theorem channel?_hexPair (n : UInt8) :
    channel? (Nat.digitChar (n.toNat / 16)) (Nat.digitChar (n.toNat % 16)) = some n := by
  have bound := n.toNat_lt
  have plus : ∀ d < 16, Nat.digitChar d ≠ '+' := by decide
  unfold channel?
  rw [Text.hexDigit?_digitChar _ (by omega), Text.hexDigit?_digitChar _ (by omega)]
  simp only [plus _ (show n.toNat / 16 < 16 by omega), Option.bind_eq_bind, Option.bind_some,
    Option.pure_def, if_false, Nat.div_add_mod, UInt8.ofNat_toNat]

theorem exists_digitChar_of_mem_hexPair {n : UInt8} {ch : Char}
    (member : ch ∈ Text.hexPair n.toNat) : ∃ d < 16, ch = Nat.digitChar d := by
  have bound := n.toNat_lt
  simp only [Text.hexPair, List.mem_cons, List.not_mem_nil, or_false] at member
  obtain rfl | rfl := member
  · exact ⟨n.toNat / 16, by omega, rfl⟩
  · exact ⟨n.toNat % 16, by omega, rfl⟩

theorem forall_mem_hex {p : Char → Prop} (hash : p '#') (digit : ∀ d < 16, p (Nat.digitChar d))
    (c : Color) : ∀ ch ∈ c.hex.toList, p ch := by
  intro ch member
  simp only [hex, String.toList_ofList, List.mem_cons, List.mem_append] at member
  obtain rfl | (member | member) | member := member
  · exact hash
  all_goals
    obtain ⟨d, small, rfl⟩ := exists_digitChar_of_mem_hexPair member
    exact digit d small

theorem read?_hex {c : Color} (clear : c.Opaque) : Color.read? c.hex = some c := by
  have blank : ∀ ch ∈ c.hex.toList, Text.isBlank ch = false :=
    forall_mem_hex (p := fun ch => Text.isBlank ch = false) rfl (by decide) c
  unfold read?
  rw [Text.trimChars_eq_self blank]
  simp only [hex, Text.hexPair, String.toList_ofList, List.cons_append, List.nil_append,
    channel?_hexPair, Option.bind_eq_bind, Option.bind_some, Option.pure_def, rgb]
  rw [← clear]

end Color
end AnimatedCanvas
