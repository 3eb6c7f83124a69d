import AnimatedCanvas.Proofs.Color

namespace AnimatedCanvas.Color

open Text

def Pair (high low : Char) (n : UInt8) : Prop :=
  ∃ h l, IsHexDigit high h ∧ IsHexDigit low l ∧ n.toNat = 16 * h + l

def Signed (high low : Char) (n : UInt8) : Prop := high = '+' ∧ IsHexDigit low n.toNat

def Spells (channel : Char → Char → UInt8 → Prop) (text : String) (c : Color) : Prop :=
  ∃ before after r r' g g' b b',
    text.toList = before ++ ['#', r, r', g, g', b, b'] ++ after ∧
    (∀ ch ∈ before ++ after, isBlank ch = true) ∧
    channel r r' c.red ∧ channel g g' c.green ∧ channel b b' c.blue ∧ c.Opaque

theorem isHexDigit_ne_plus {ch : Char} {d : Nat} (h : IsHexDigit ch d) : ch ≠ '+' := by
  have other : ∀ d < 16, Nat.digitChar d ≠ '+' ∧ (Nat.digitChar d).toUpper ≠ '+' := by decide
  obtain ⟨small, rfl | rfl⟩ := h
  · exact (other d small).1
  · exact (other d small).2

theorem isBlank_of_isHexDigit {ch : Char} {d : Nat} (h : IsHexDigit ch d) : isBlank ch = false := by
  have solid : ∀ d < 16, isBlank (Nat.digitChar d) = false ∧
      isBlank (Nat.digitChar d).toUpper = false := by decide
  obtain ⟨small, rfl | rfl⟩ := h
  · exact (solid d small).1
  · exact (solid d small).2

theorem channel?_eq_some {high low : Char} {n : UInt8} :
    channel? high low = some n ↔ Pair high low n ∨ Signed high low n := by
  have word {m : Nat} (small : m < 256) : UInt8.ofNat m = n ↔ n.toNat = m := by
    rw [← UInt8.toNat_inj, UInt8.toNat_ofNat_of_lt' small, eq_comm]
  unfold channel?
  simp only [Option.bind_eq_bind, Option.bind_eq_some_iff, Option.pure_def, hexDigit?_eq_some]
  constructor
  · rintro ⟨l, digit, h⟩
    split at h
    next plus =>
      have same := (word (by have := digit.1; omega)).1 (Option.some.inj h)
      exact .inr ⟨plus, same ▸ digit⟩
    next =>
      obtain ⟨d, digit', h⟩ := Option.bind_eq_some_iff.1 h
      have digit' := hexDigit?_eq_some.1 digit'
      refine .inl ⟨d, l, digit', digit, ?_⟩
      exact (word (by have := digit.1; have := digit'.1; omega)).1 (Option.some.inj h)
  · rintro (⟨d, l, digit', digit, same⟩ | ⟨rfl, digit⟩)
    · refine ⟨l, digit, ?_⟩
      rw [if_neg (isHexDigit_ne_plus digit'), hexDigit?_eq_some.2 digit', Option.bind_some]
      exact congrArg some ((word (by have := digit.1; have := digit'.1; omega)).2 same)
    · exact ⟨n.toNat, digit, by rw [if_pos rfl, UInt8.ofNat_toNat]⟩

def Channel (high low : Char) (n : UInt8) : Prop := Pair high low n ∨ Signed high low n

theorem isBlank_of_channel {high low : Char} {n : UInt8} (h : Channel high low n) :
    isBlank low = false := by
  obtain ⟨_, _, -, digit, -⟩ | ⟨-, digit⟩ := h
  · exact isBlank_of_isHexDigit digit
  · exact isBlank_of_isHexDigit digit

theorem read?_eq_some {text : String} {c : Color} :
    read? text = some c ↔ Spells Channel text c := by
  constructor
  · intro h
    unfold read? at h
    split at h
    next r r' g g' b b' trimmed =>
      simp only [Option.bind_eq_bind, Option.bind_eq_some_iff, Option.pure_def, Option.some.injEq,
        channel?_eq_some] at h
      obtain ⟨red, first, green, second, blue, third, rfl⟩ := h
      obtain ⟨before, after, text, blank⟩ := exists_blanks_around text.toList
      rw [trimmed] at text
      exact ⟨before, after, r, r', g, g', b, b', text, blank, first, second, third, rfl⟩
    next => cases h
  · rintro ⟨before, after, r, r', g, g', b, b', text, blank, first, second, third, clear⟩
    have trimmed : trimChars (before ++ ['#', r, r', g, g', b, b'] ++ after) =
        ['#', r, r', g, g', b, b'] :=
      trimChars_append blank [r, r', g, g', b] (show isBlank '#' = false from rfl)
        (isBlank_of_channel third)
    rw [read?, text, trimmed]
    simp only [channel?_eq_some.2 first, channel?_eq_some.2 second, channel?_eq_some.2 third,
      Option.bind_eq_bind, Option.bind_some, Option.pure_def, rgb]
    rw [← clear]

theorem read_eq_ok {text : String} {c : Color} : read text = .ok c ↔ read? text = some c := by
  unfold read
  cases read? text <;> simp

theorem read_eq_error {text : String} (unread : read? text = none) :
    read text = .error (.invalid "color" ("expected #rrggbb, got " ++ Text.quoted text)) := by
  rw [read, unread]

theorem Spells.pair_of_unsigned {text : String} {c : Color} (h : Spells Channel text c)
    (unsigned : '+' ∉ text.toList) : Spells Pair text c := by
  obtain ⟨before, after, r, r', g, g', b, b', spelled, blank, first, second, third, clear⟩ := h
  have pair {high low : Char} {n : UInt8} (member : high ∈ ['#', r, r', g, g', b, b'])
      (channel : Channel high low n) : Pair high low n := by
    refine channel.resolve_right fun signed => unsigned ?_
    rw [spelled, ← signed.1]
    exact List.mem_append_left _ (List.mem_append_right _ member)
  exact ⟨before, after, r, r', g, g', b, b', spelled, blank, pair (by simp) first,
    pair (by simp) second, pair (by simp) third, clear⟩

theorem Spells.channel {text : String} {c : Color} (h : Spells Pair text c) :
    Spells Channel text c := by
  obtain ⟨before, after, r, r', g, g', b, b', spelled, blank, first, second, third, clear⟩ := h
  exact ⟨before, after, r, r', g, g', b, b', spelled, blank, .inl first, .inl second, .inl third,
    clear⟩

/-- A text is a color exactly when it is a hash with three pairs of hexadecimal digits, where a plus
sign may stand in place of the first digit of a pair. -/
theorem read_spelling (text : String) :
    (∀ c, read text = .ok c ↔ Spells Channel text c) ∧
      (∀ c, read text = .ok c → c.Opaque ∧ read c.hex = .ok c) ∧
      ((¬ ∃ c, Spells Channel text c) →
        read text = .error (.invalid "color" ("expected #rrggbb, got " ++ Text.quoted text))) ∧
      ('+' ∉ text.toList → ∀ c, read text = .ok c ↔ Spells Pair text c) := by
  have reads (c : Color) : read text = .ok c ↔ Spells Channel text c :=
    read_eq_ok.trans read?_eq_some
  refine ⟨reads, fun c read => ?_, fun unspelled => ?_, fun unsigned c => ?_⟩
  · have clear := opaque_of_read? (read_eq_ok.1 read)
    exact ⟨clear, read_eq_ok.2 (read?_hex clear)⟩
  · exact read_eq_error (Option.eq_none_iff_forall_ne_some.2 fun c read =>
      unspelled ⟨c, read?_eq_some.1 read⟩)
  · exact (reads c).trans ⟨fun h => h.pair_of_unsigned unsigned, Spells.channel⟩

theorem signed_channels_read :
    read "#+1+2+3" = .ok (rgb 1 2 3) ∧ ∀ c, ¬ Spells Pair "#+1+2+3" c := by
  refine ⟨rfl, ?_⟩
  rintro c ⟨before, after, r, r', g, g', b, b', spelled, -, ⟨h, l, digit, -⟩, -⟩
  have size : before.length + after.length = 0 := by
    have same := congrArg List.length spelled
    simp only [List.length_append, List.length_cons, List.length_nil] at same
    change 7 = _ at same
    omega
  obtain rfl := List.eq_nil_of_length_eq_zero (Nat.eq_zero_of_add_eq_zero_right size)
  have plus : '+' = r := (List.cons.inj (List.cons.inj spelled).2).1
  exact isHexDigit_ne_plus digit plus.symm

end AnimatedCanvas.Color
