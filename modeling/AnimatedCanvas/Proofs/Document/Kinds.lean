import AnimatedCanvas.Document.Reading

namespace AnimatedCanvas.Yaml

inductive Kind (s : String) : Value → Prop where
  | null (blank : s.isEmpty = true ∨ isNullText s = true) : Kind s .null
  | flag {b : Bool} (read : flagText? s = some b) : Kind s (.flag b)
  | natural {n : Nat} (read : naturalText? s = some n) : Kind s (.count n)
  | zero (read : signedText? s.toList = some (true, 0)) : Kind s (.count 0)
  | negative {n : Nat} (read : signedText? s.toList = some (true, n)) (small : n ≤ Nat.pow 2 63) :
    Kind s (.number (.negative (-n)))
  | real {x : Float} (read : realText? s = some x) : Kind s (.real x)
  | text : Kind s (.text s)

theorem naturalText?_eq_some {s : String} {n : Nat} :
    naturalText? s = some n ↔ signedText? s.toList = some (false, n) ∧ n < Nat.pow 2 64 := by
  unfold naturalText?
  split
  next m signed => grind
  next other => exact ⟨(nomatch ·), fun h => absurd h.1 (other n)⟩

theorem kind_of_wholeValue? {s : String} {w : Value} (h : wholeValue? s = some w) : Kind s w := by
  unfold wholeValue? at h
  split at h
  next n signed =>
    split at h
    next small =>
      cases h
      exact .natural (naturalText?_eq_some.2 ⟨signed, small⟩)
    · cases h
  next n signed =>
    split at h
    next zero =>
      cases h
      exact .zero (zero ▸ signed)
    · split at h
      next small =>
        cases h
        exact .negative signed small
      · cases h
  · cases h

theorem kind_of_plainValue? {s : String} {w : Value} (h : plainValue? s = some w) : Kind s w := by
  unfold plainValue? at h
  split at h
  next blank =>
    cases h
    exact .null (Bool.or_eq_true_iff.1 blank)
  split at h
  next b flag =>
    cases h
    exact .flag flag
  dsimp only at h
  generalize same : ite (hasLeadingZero s.toList = true) _ _ = real at h
  -- What is no whole number of at most 64 bits is a real, or else a text.
  have real_ (isReal : real = some w) : Kind s w := by
    rw [← same] at isReal
    split at isReal
    · cases isReal
      exact .text
    split at isReal
    next x read =>
      cases isReal
      exact .real read
    · cases isReal
      exact .text
  split at h
  next n signed =>
    split at h
    next small =>
      cases h
      exact .natural (naturalText?_eq_some.2 ⟨signed, small⟩)
    · split at h
      · cases h
      · exact real_ h
  next n signed =>
    split at h
    next zero =>
      cases h
      exact .zero (zero ▸ signed)
    · split at h
      next small =>
        cases h
        exact .negative signed small
      · split at h
        · cases h
        · exact real_ h
  · exact real_ h

theorem kind_of_scalarValue? {tag : Option String} {style : ScalarStyle} {s : String} {w : Value}
    (h : scalarValue? tag style s = some w) : Kind s w := by
  unfold scalarValue? at h
  repeat' split at h
  · obtain ⟨b, read, rfl⟩ := Option.map_eq_some_iff.1 h
    exact .flag read
  · exact kind_of_wholeValue? h
  · obtain ⟨x, read, rfl⟩ := Option.map_eq_some_iff.1 h
    exact .real read
  next blank =>
    cases h
    exact .null (.inr blank)
  · cases h
  · exact kind_of_plainValue? h
  · cases h
    exact .text

theorem Kind.of_null {s : String} {p : String → Prop} (kind : Kind s .null)
    (h : ∀ blank ∈ ["", "null", "Null", "NULL", "~"], p blank) : p s := by
  cases kind with
  | null blank =>
      refine h s (List.mem_cons.2 (blank.imp (fun empty => ?_) fun null => ?_))
      · simpa using empty
      · simpa [isNullText] using null

theorem Kind.bare {s : String} {w : Value} (h : Kind s w) : w.bare = w := by
  cases h <;> rfl

theorem Kind.flat {s : String} {w : Value} (h : Kind s w) : ∀ entries, w ≠ .map entries := by
  rintro entries rfl
  cases h

theorem Kind.eq_of_text {s s' : String} (kind : Kind s (.text s')) : s' = s := by
  cases kind
  rfl

end AnimatedCanvas.Yaml
