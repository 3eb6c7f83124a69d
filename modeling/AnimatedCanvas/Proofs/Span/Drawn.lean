import AnimatedCanvas.Proofs.Random.Search
import AnimatedCanvas.Proofs.Span
import AnimatedCanvas.Random.Generator

namespace AnimatedCanvas.Span

open Binary64 AnimatedCanvas.Random

variable {σ : Type} [WordStream σ]

/-- What a draw comes to when no number of words is too large for it. -/
inductive Yields (s : Span) : σ → Float → σ → Prop
  | single {g : σ} (narrow : ¬ s.max > s.min) : s.Yields g s.min g
  | searched {g t : σ} {x : Float} (wide : s.max > s.min)
      (found : Finds (numberOf? s.min s.max) g x t) : s.Yields g x t

variable {s : Span} {g t : σ} {x : Float}

theorem contains_iff :
    s.contains x = true ↔ s.min ≤ x ∧ (x < s.max ∨ (x == s.min) = true) := by
  simp [contains]

theorem contains_min (number : s.min.isNaN = false) : s.contains s.min = true :=
  contains_iff.mpr
    ⟨le_iff.mpr ⟨number, number, le_rfl⟩, .inr (Binary64.beq_iff.mpr ⟨number, number, rfl⟩)⟩

theorem contains_numberOf (h : s.Drawable) {word : UInt64}
    (drawn : numberOf? s.min s.max word = some x) : s.contains x = true := by
  obtain ⟨number, above, below⟩ := value_numberOf h.min h.width h.max h.value_le drawn
  exact contains_iff.mpr ⟨le_iff.mpr ⟨isNaN_of_isFinite h.min, number, above⟩,
    .inl (lt_iff.mpr ⟨number, isNaN_of_isFinite h.max, below⟩)⟩

theorem Drawable.contains_of_yields (h : s.Drawable) (drawn : s.Yields g x t) :
    s.contains x = true := by
  cases drawn with
  | single narrow => exact contains_min (isNaN_of_isFinite h.min)
  | searched wide found =>
      obtain ⟨word, accepted⟩ := found.exists_word
      exact contains_numberOf h accepted

theorem Drawable.contains_sample (h : s.Drawable) (g : σ) : s.contains (s.sample g).1 = true := by
  have lowest := contains_min (isNaN_of_isFinite h.min)
  unfold sample
  split
  next wide =>
    exact firstAccepted_of (P := (s.contains · = true)) lowest
      (fun _ _ drawn => contains_numberOf h drawn) attempts g
  next narrow => exact lowest

theorem sample_of_narrow {γ : Type} [Sampler γ] (narrow : ¬ s.max > s.min) (g : γ) :
    s.sample g = (s.min, g) := if_neg narrow

theorem yields_iff_of_narrow (narrow : ¬ s.max > s.min) : s.Yields g x t ↔ x = s.min ∧ t = g := by
  constructor
  · intro drawn
    cases drawn with
    | single _ => exact ⟨rfl, rfl⟩
    | searched wide _ => exact absurd wide narrow
  · rintro ⟨rfl, rfl⟩
    exact .single narrow

theorem Yields.unique {y : Float} {u : σ} (h : s.Yields g x t) (h' : s.Yields g y u) :
    x = y ∧ t = u := by
  cases h with
  | single narrow =>
      obtain ⟨rfl, rfl⟩ := (yields_iff_of_narrow narrow).mp h'
      exact ⟨rfl, rfl⟩
  | searched wide found =>
      cases h' with
      | single narrow => exact absurd wide narrow
      | searched _ found' => exact found.unique found'

theorem Drawable.yields_sample (h : s.Drawable) (g : σ) :
    s.Yields g (s.sample g).1 (s.sample g).2 ∨ ∀ k < attempts, 2 ^ 61 ≤ (wordAt k g).toNat := by
  by_cases wide : s.max > s.min
  · have searched : s.sample g = firstAccepted (numberOf? s.min s.max) s.min attempts g := if_pos wide
    rw [searched]
    refine (finds_or_refused _ s.min attempts g).imp (.searched wide) fun refused k less => ?_
    by_contra low
    obtain ⟨x, taken⟩ := exists_numberOf h.min h.width h.max (lt_iff.mp wide).2.2 (not_le.mp low)
    rw [refused k less] at taken
    cases taken
  · rw [sample_of_narrow wide]
    exact .inl (.single wide)

theorem Drawable.yields_iff (h : s.Drawable) (g : σ) :
    (∀ x t, s.Yields g x t ↔ s.sample g = (x, t)) ∨
      ∀ k < attempts, 2 ^ 61 ≤ (wordAt k g).toNat := by
  refine (h.yields_sample g).imp_left fun ended x t => ⟨fun drawn => ?_, fun same => ?_⟩
  · obtain ⟨value, rest⟩ := ended.unique drawn
    exact Prod.ext value rest
  · rwa [same] at ended

/-- A range that has been checked contains whatever is drawn from it, by either kind of draw and from
any stream. A range without width has but one number, and no word is drawn for it. -/
theorem drawn_contained {s : Span} {field : String} (accepted : s.check field = .ok ()) (g : σ) :
    s.contains (s.sample g).1 = true ∧
    (∀ x t, s.Yields g x t → s.contains x = true) ∧
    ((∀ x t, s.Yields g x t ↔ s.sample g = (x, t)) ∨
      ∀ k < attempts, 2 ^ 61 ≤ (wordAt k g).toNat) ∧
    ((s.min == s.max) = true →
      s.sample g = (s.min, g) ∧ ∀ x t, s.Yields g x t ↔ x = s.min ∧ t = g) := by
  have drawable := check_eq_ok.mp accepted
  refine ⟨drawable.contains_sample g, fun x t => drawable.contains_of_yields, drawable.yields_iff g,
    fun single => ?_⟩
  have narrow : ¬ s.max > s.min := fun wide => (lt_iff.mp wide).2.2.ne (Binary64.beq_iff.mp single).2.2
  exact ⟨sample_of_narrow narrow g, fun x t => yields_iff_of_narrow narrow⟩

theorem drawn_contained_extremes :
    let narrowest : Span := ⟨1.0, 1.0000000000000002⟩
    let widest : Span := ⟨.ofBits 0xffdfffffffffffff, .ofBits 0x7fdfffffffffffff⟩
    let single : Span := ⟨0.0, -0.0⟩
    let g := Generator.ofSeed 1
    (narrowest.check "radius" = .ok () ∧
      numberOf? narrowest.min narrowest.max (wordAt 0 g) = none ∧
      ∃ x t, narrowest.Yields g x t ∧ narrowest.contains x = true ∧ narrowest.sample g = (x, t)) ∧
    (widest.check "speed" = .ok () ∧ widest.contains (widest.sample g).1 = true) ∧
    (single.check "opacity" = .ok () ∧ (single.min == single.max) = true ∧
      single.sample g = (0.0, g)) := by
  intro narrowest widest single g
  have narrow_checked : narrowest.check "radius" = .ok () := by decide +kernel
  have wide_checked : widest.check "speed" = .ok () := by decide +kernel
  have single_checked : single.check "opacity" = .ok () := by decide +kernel
  have refused : numberOf? narrowest.min narrowest.max (wordAt 0 g) = none := by decide +kernel
  have accepted : numberOf? narrowest.min narrowest.max (wordAt 1 g) = some 1.0 := by decide +kernel
  have yields : narrowest.Yields g 1.0 (WordStream.next (WordStream.next g).2).2 :=
    .searched (by decide) (.later refused (.here accepted))
  obtain ⟨-, contained, ends, -⟩ := drawn_contained narrow_checked g
  have same : narrowest.sample g = (1.0, (WordStream.next (WordStream.next g).2).2) := by
    rcases ends with ends | high
    · exact (ends _ _).mp yields
    · exact absurd (high 1 (by decide)) (by decide)
  exact ⟨⟨narrow_checked, refused, _, _, yields, contained _ _ yields, same⟩,
    ⟨wide_checked, (drawn_contained wide_checked g).1⟩,
    ⟨single_checked, by decide, ((drawn_contained single_checked g).2.2.2 (by decide)).1⟩⟩

end AnimatedCanvas.Span
