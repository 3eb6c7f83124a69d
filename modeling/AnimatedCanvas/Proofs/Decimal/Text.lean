import AnimatedCanvas.Decimal.Layout
import AnimatedCanvas.Proofs.Binary64.NotANumber
import AnimatedCanvas.Proofs.Decimal.Shortest

namespace AnimatedCanvas.Decimal

open RoundingInterval (nth ofBits_eq_nth lower_nth_pos exists_shortest eq_of_contains)

/-! ## Digits -/

def value (d : Decimal) : ℚ :=
  Nat.ofDigitChars 10 d.digits 0 * 10 ^ (d.point - d.digits.length)

theorem exists_digits_ofScaled (c : Nat) (e : Int) :
    ∃ k, Nat.toDigits 10 c = (ofScaled c e).digits ++ List.replicate k '0' := by
  let all := Nat.toDigits 10 c
  have zeros : all.reverse.takeWhile (· == '0') =
      List.replicate (all.reverse.takeWhile (· == '0')).length '0' :=
    List.eq_replicate_of_mem fun ch member =>
      eq_of_beq (List.mem_takeWhile_imp (p := (· == '0')) member)
  refine ⟨(all.reverse.takeWhile (· == '0')).length, ?_⟩
  apply List.reverse_injective
  rw [List.reverse_append, List.reverse_replicate, ← zeros]
  simp only [ofScaled, List.reverse_reverse]
  exact (List.takeWhile_append_dropWhile ..).symm

theorem value_ofScaled (c : Nat) (e : Int) : (ofScaled c e).value = c * 10 ^ e := by
  obtain ⟨k, all⟩ := exists_digits_ofScaled c e
  have point : (ofScaled c e).point - (ofScaled c e).digits.length = k + e := by
    have length := congrArg List.length all
    rw [List.length_append, List.length_replicate] at length
    change (Nat.toDigits 10 c).length + e - _ = _
    omega
  have number : Nat.ofDigitChars 10 (Nat.toDigits 10 c) 0 = c := Nat.ofDigitChars_ten_toDigits
  rw [all, Nat.ofDigitChars_append, Nat.ofDigitChars_replicate_zero] at number
  have number : (c : ℚ) = 10 ^ k * Nat.ofDigitChars 10 (ofScaled c e).digits 0 := by
    exact_mod_cast number.symm
  calc (ofScaled c e).value
      = Nat.ofDigitChars 10 (ofScaled c e).digits 0 * (10 ^ k * 10 ^ e) := by
        rw [value, point, zpow_add₀ (by norm_num), zpow_natCast]
    _ = 10 ^ k * Nat.ofDigitChars 10 (ofScaled c e).digits 0 * 10 ^ e := by ring
    _ = c * 10 ^ e := by rw [← number]

theorem isDigit_of_mem_ofScaled {c : Nat} {e : Int} :
    ∀ ch ∈ (ofScaled c e).digits, ch.isDigit = true := by
  obtain ⟨k, all⟩ := exists_digits_ofScaled c e
  intro ch member
  refine Nat.isDigit_of_mem_toDigits (b := 10) (n := c) (by decide) (by decide) ?_
  rw [all]
  exact List.mem_append_left _ member

theorem ofDigitChars_append (ds fs : List Char) :
    (Nat.ofDigitChars 10 (ds ++ fs) 0 : ℚ) =
      Nat.ofDigitChars 10 ds 0 * 10 ^ fs.length + Nat.ofDigitChars 10 fs 0 := by
  rw [Nat.ofDigitChars_append, Nat.ofDigitChars_eq_ofDigitChars_zero]
  push_cast
  ring

/-! ## Positional texts -/

/-- The texts of digits, perhaps with a point among them, and their value. -/
inductive Writes (v : ℚ) : List Char → Prop where
  | whole {ds : List Char} (given : ds ≠ []) (digits : ∀ ch ∈ ds, ch.isDigit = true)
    (value : v = Nat.ofDigitChars 10 ds 0) : Writes v ds
  | point {ds fs : List Char} (given : ds ≠ []) (digits : ∀ ch ∈ ds, ch.isDigit = true)
    (digits' : ∀ ch ∈ fs, ch.isDigit = true)
    (value : v = Nat.ofDigitChars 10 ds 0 + Nat.ofDigitChars 10 fs 0 / 10 ^ fs.length) :
    Writes v (ds ++ '.' :: fs)

def worth (cs : List Char) : ℚ :=
  let fraction := (cs.dropWhile Char.isDigit).drop 1
  Nat.ofDigitChars 10 (cs.takeWhile Char.isDigit) 0 +
    Nat.ofDigitChars 10 fraction 0 / 10 ^ fraction.length

namespace Writes

variable {v w : ℚ} {cs : List Char}

theorem worth_eq (h : Writes v cs) : worth cs = v := by
  cases h with
  | whole _ digits value =>
      rw [worth, List.takeWhile_eq_self_iff.2 digits, List.dropWhile_eq_nil_iff.2 digits, value]
      simp
  | point _ digits _ value =>
      rw [worth, List.takeWhile_append_of_pos digits, List.dropWhile_append_of_pos digits,
        List.takeWhile_cons_of_neg (by decide), List.dropWhile_cons_of_neg (by decide),
        List.append_nil, List.drop_one, List.tail_cons, value]

theorem unique (h : Writes v cs) (h' : Writes w cs) : v = w :=
  h.worth_eq.symm.trans h'.worth_eq

theorem digit_or_point (h : Writes v cs) : ∀ ch ∈ cs, ch.isDigit = true ∨ ch = '.' := by
  cases h with
  | whole _ digits => exact fun ch member => .inl (digits ch member)
  | point _ digits digits' =>
      intro ch member
      obtain member | member := List.mem_append.1 member
      · exact .inl (digits ch member)
      · obtain rfl | member := List.mem_cons.1 member
        · exact .inr rfl
        · exact .inl (digits' ch member)

theorem exists_head (h : Writes v cs) : ∃ ch rest, cs = ch :: rest ∧ ch.isDigit = true := by
  cases h with
  | whole given digits =>
      obtain ⟨ch, rest, rfl⟩ := List.exists_cons_of_ne_nil given
      exact ⟨ch, rest, rfl, digits ch List.mem_cons_self⟩
  | point given digits =>
      obtain ⟨ch, rest, rfl⟩ := List.exists_cons_of_ne_nil given
      exact ⟨ch, _, rfl, digits ch List.mem_cons_self⟩

end Writes

theorem writes_positionalText {d : Decimal} (digits : ∀ ch ∈ d.digits, ch.isDigit = true) :
    Writes d.value (positionalText "" d).toList := by
  have zeros (k : Nat) : ∀ ch ∈ List.replicate k '0', ch.isDigit = true := by
    intro ch member
    rw [List.eq_of_mem_replicate member]
    rfl
  unfold positionalText
  dsimp only
  split
  next small =>
    -- Zeros after the point, then all digits.
    have point : d.point - d.digits.length = -((-d.point).toNat + d.digits.length : Nat) := by omega
    have text : ("0." ++ String.ofList (List.replicate (-d.point).toNat '0' ++ d.digits)).toList =
        ['0'] ++ '.' :: (List.replicate (-d.point).toNat '0' ++ d.digits) := by
      simp
    rw [text]
    refine .point (by simp) (by simp)
      (List.forall_mem_append.2 ⟨zeros (-d.point).toNat, digits⟩) ?_
    rw [ofDigitChars_append, Nat.ofDigitChars_replicate_zero, List.length_append,
      List.length_replicate, value, point, zpow_neg, zpow_natCast, div_eq_mul_inv]
    simp [Nat.ofDigitChars]
  next large =>
    split
    next whole =>
      -- All digits, then zeros.
      have point : d.point - d.digits.length = (d.point.toNat - d.digits.length : Nat) := by omega
      rw [String.append_empty, String.toList_ofList]
      refine .whole (fun none => ?_) (List.forall_mem_append.2 ⟨digits, zeros _⟩) ?_
      · have length := congrArg List.length none
        rw [List.length_append, List.length_replicate, List.length_nil] at length
        omega
      · rw [ofDigitChars_append, List.length_replicate, Nat.ofDigitChars_replicate_zero,
          Nat.mul_zero, Nat.cast_zero, add_zero, value, point, zpow_natCast]
    next parts =>
      -- The point stands among the digits.
      have point : d.point - d.digits.length = -(d.digits.drop d.point.toNat).length := by
        rw [List.length_drop]
        omega
      have all := ofDigitChars_append (d.digits.take d.point.toNat) (d.digits.drop d.point.toNat)
      rw [List.take_append_drop] at all
      have text : (String.ofList (d.digits.take d.point.toNat) ++ "." ++
          String.ofList (d.digits.drop d.point.toNat)).toList =
            d.digits.take d.point.toNat ++ '.' :: d.digits.drop d.point.toNat := by
        simp
      rw [text]
      refine .point (fun none => ?_) (fun ch member => digits ch (List.mem_of_mem_take member))
        (fun ch member => digits ch (List.mem_of_mem_drop member)) ?_
      · have length := congrArg List.length none
        rw [List.length_take, List.length_nil] at length
        omega
      · rw [value, all, point, zpow_neg, zpow_natCast]
        field_simp

/-! ## Numbers without a sign -/

def infinity : UInt64 := 0x7ff0000000000000

variable {a b : UInt64}

theorem writes_zero : Writes 0 (plain.magnitude 0).toList := by
  change Writes 0 ['0']
  exact .whole (by simp) (by simp) (by simp [Nat.ofDigitChars])

theorem writes_magnitude (positive : a ≠ 0) (finite : a < infinity) :
    ∃ v, Writes v (plain.magnitude a).toList ∧ (nth a.toNat).Contains v ∧ 0 < v := by
  have positive' : 0 < a.toNat :=
    Nat.pos_of_ne_zero fun zero => positive (UInt64.toNat_inj.1 zero)
  have finite : a.toNat < 2047 * 2 ^ 52 := finite
  obtain ⟨c, e, search, inside⟩ := exists_shortest positive' finite .up
  refine ⟨c * 10 ^ e, ?_, inside, (lower_nth_pos positive').trans_le inside.bounds.1⟩
  rw [Layout.magnitude, if_neg positive, ofBits_eq_nth (by omega), ← value_ofScaled, ← search]
  refine writes_positionalText ?_
  rw [search]
  exact isDigit_of_mem_ofScaled

theorem exists_writes_magnitude (finite : a < infinity) :
    ∃ v, Writes v (plain.magnitude a).toList := by
  by_cases zero : a = 0
  · exact ⟨0, zero ▸ writes_zero⟩
  · obtain ⟨v, writes, -⟩ := writes_magnitude zero finite
    exact ⟨v, writes⟩

theorem magnitude_injective (ha : a < infinity) (hb : b < infinity)
    (same : plain.magnitude a = plain.magnitude b) : a = b := by
  by_cases first : a = 0
  · by_cases second : b = 0
    · rw [first, second]
    · obtain ⟨v, writes, -, positive⟩ := writes_magnitude second hb
      rw [← same, first] at writes
      exact absurd (writes_zero.unique writes) positive.ne
  · obtain ⟨v, writes, inside, positive⟩ := writes_magnitude first ha
    by_cases second : b = 0
    · rw [same, second] at writes
      exact absurd (writes_zero.unique writes) positive.ne
    · obtain ⟨w, writes', inside', -⟩ := writes_magnitude second hb
      rw [same] at writes
      rw [writes.unique writes'] at inside
      exact UInt64.toNat_inj.1 (eq_of_contains inside inside')

/-! ## All numbers -/

def absolute (size : UInt64) : String := if size = infinity then "inf" else plain.magnitude size

theorem head_absolute (number : a ≤ infinity) :
    ∃ ch rest, (absolute a).toList = ch :: rest ∧ ch ≠ '-' ∧ ch ≠ 'N' := by
  unfold absolute
  split
  · exact ⟨'i', ['n', 'f'], rfl, by decide, by decide⟩
  next other =>
    obtain ⟨v, writes⟩ := exists_writes_magnitude (UInt64.lt_of_le_of_ne number other)
    obtain ⟨ch, rest, text, digit⟩ := writes.exists_head
    refine ⟨ch, rest, text, ?_, ?_⟩
    · rintro rfl
      cases digit
    · rintro rfl
      cases digit

theorem absolute_injective (ha : a ≤ infinity) (hb : b ≤ infinity)
    (same : absolute a = absolute b) : a = b := by
  have apart {c : UInt64} (finite : c < infinity) : plain.magnitude c ≠ "inf" := by
    intro infinite
    obtain ⟨v, writes⟩ := exists_writes_magnitude finite
    obtain ⟨ch, rest, text, digit⟩ := writes.exists_head
    rw [infinite] at text
    cases text
    cases digit
  unfold absolute at same
  split at same
  next first =>
    split at same
    next second => rw [first, second]
    next second => exact absurd same.symm (apart (UInt64.lt_of_le_of_ne hb second))
  next first =>
    split at same
    next second => exact absurd same (apart (UInt64.lt_of_le_of_ne ha first))
    next second =>
      exact magnitude_injective (UInt64.lt_of_le_of_ne ha first) (UInt64.lt_of_le_of_ne hb second) same

def size (x : Float) : UInt64 := x.toBits &&& 0x7fffffffffffffff

theorem text_eq (x : Float) : text x =
    if infinity < size x then "NaN"
    else if x.toBits = size x then absolute (size x) else "-" ++ absolute (size x) := by
  unfold text Layout.text absolute
  dsimp only
  change (if infinity < size x then "NaN"
    else if size x = infinity then if x.toBits = size x then "inf" else "-inf"
    else if x.toBits = size x then plain.magnitude (size x) else "-" ++ plain.magnitude (size x)) = _
  split
  · rfl
  · split
    · split <;> rfl
    · rfl

theorem toNat_size (x : Float) : (size x).toNat = x.toBits.toNat % 2 ^ 63 := by
  rw [size, UInt64.toNat_and]
  exact Nat.and_two_pow_sub_one_eq_mod x.toBits.toNat 63

theorem toNat_of_signed {x : Float} (signed : x.toBits ≠ size x) :
    x.toBits.toNat = (size x).toNat + 2 ^ 63 := by
  have differ := mt UInt64.toNat_inj.1 signed
  have bound := x.toBits.toNat_lt
  rw [toNat_size] at differ ⊢
  omega

theorem eq_of_toBits {x y : Float} (same : x.toBits = y.toBits) : x = y := by
  obtain ⟨⟨bits, valid⟩⟩ := x
  obtain ⟨⟨bits', valid'⟩⟩ := y
  obtain rfl : bits = bits' := same
  rfl

theorem toBits_of_beyond {x : Float} (beyond : infinity < size x) :
    x.toBits = .ofBitVec (Float.Model.UnpackedFloat.packedNaN .binary64) := by
  obtain ⟨⟨bits, valid⟩⟩ := x
  have beyond := UInt64.lt_iff_toNat_lt.1 beyond
  rw [toNat_size] at beyond
  change 2047 * 2 ^ 52 < bits.toNat % 2 ^ 63 at beyond
  have exponent := Binary64.toNat_unpackExponent bits.toBitVec
  have mantissa := Binary64.toNat_unpackMantissa bits.toBitVec
  rw [UInt64.toNat_toBitVec] at exponent mantissa
  refine congrArg UInt64.ofBitVec (valid.eq_packedNaN (BitVec.eq_of_toNat_eq ?_) fun none => ?_)
  · rw [exponent]
    change _ = 2047
    omega
  · rw [none] at mantissa
    change 0 = _ at mantissa
    omega

theorem head_text (x : Float) :
    ((text x).toList.head? = some 'N' ↔ infinity < size x) ∧
      ((text x).toList.head? = some '-' ↔ ¬ infinity < size x ∧ x.toBits ≠ size x) := by
  rw [text_eq]
  split
  next beyond => simp [beyond]
  next number =>
    obtain ⟨ch, rest, body, notMinus, notN⟩ := head_absolute (UInt64.not_lt.1 number)
    split
    next unsigned => simp [number, unsigned, body, notMinus, notN]
    next signed => simp [number, signed]

theorem text_injective : Function.Injective text := by
  intro x y same
  apply eq_of_toBits
  obtain ⟨notNumber, minus⟩ := head_text x
  obtain ⟨notNumber', minus'⟩ := head_text y
  rw [same] at notNumber minus
  have sameKind := notNumber.symm.trans notNumber'
  have sameSign := minus.symm.trans minus'
  by_cases beyond : infinity < size x
  · rw [toBits_of_beyond beyond, toBits_of_beyond (sameKind.1 beyond)]
  have number := UInt64.not_lt.1 beyond
  have number' := UInt64.not_lt.1 (mt sameKind.2 beyond)
  rw [text_eq, text_eq, if_neg beyond, if_neg (mt sameKind.2 beyond)] at same
  by_cases unsigned : x.toBits = size x
  · have unsigned' : y.toBits = size y := by
      by_contra signed
      exact (sameSign.2 ⟨mt sameKind.2 beyond, signed⟩).2 unsigned
    rw [if_pos unsigned, if_pos unsigned'] at same
    rw [unsigned, unsigned', absolute_injective number number' same]
  · have signed' := (sameSign.1 ⟨beyond, unsigned⟩).2
    rw [if_neg unsigned, if_neg signed', String.append_right_inj] at same
    rw [← UInt64.toNat_inj, toNat_of_signed unsigned, toNat_of_signed signed',
      absolute_injective number number' same]

/-! ## Characters -/

def isNumeric (ch : Char) : Bool := ch.isDigit || ['-', '.', 'i', 'n', 'f', 'N', 'a'].contains ch

theorem numeric_absolute (number : a ≤ infinity) :
    ∀ ch ∈ (absolute a).toList, isNumeric ch = true := by
  unfold absolute
  split
  · simp [isNumeric]
  next other =>
    obtain ⟨v, writes⟩ := exists_writes_magnitude (UInt64.lt_of_le_of_ne number other)
    intro ch member
    obtain digit | rfl := writes.digit_or_point ch member
    · rw [isNumeric, digit, Bool.true_or]
    · rfl

theorem numeric_text (x : Float) : ∀ ch ∈ (text x).toList, isNumeric ch = true := by
  rw [text_eq]
  split
  · simp [isNumeric]
  next number =>
    have digits := numeric_absolute (UInt64.not_lt.1 number)
    split
    · exact digits
    · rw [String.toList_append]
      exact List.forall_mem_append.2 ⟨by simp [isNumeric], digits⟩

end AnimatedCanvas.Decimal
