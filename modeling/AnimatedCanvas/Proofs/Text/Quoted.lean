import AnimatedCanvas.Proofs.Text
import AnimatedCanvas.Text.Quoted
import Mathlib.Data.List.TakeWhile

namespace AnimatedCanvas.Text

/-- What is written and what follows it can both be told from the whole, where what follows is of
one kind. -/
def Delimited {α : Type} (write : α → List Char) (follows : List Char → Prop) : Prop :=
  ∀ ⦃a b : α⦄ ⦃r s : List Char⦄, follows r → follows s → write a ++ r = write b ++ s → a = b ∧ r = s

def Leaves (p : Char → Bool) (r : List Char) : Prop := ∀ ch ∈ r.head?, p ch = false

theorem delimited_of_class {α : Type} {write : α → List Char} {p : Char → Bool}
    (injective : Function.Injective write) (all : ∀ a, ∀ ch ∈ write a, p ch = true) :
    Delimited write (Leaves p) := by
  have taken {a : α} {r : List Char} (leaves : Leaves p r) : (write a ++ r).takeWhile p = write a := by
    rw [List.takeWhile_append_of_pos (all a)]
    cases r with
    | nil => simp
    | cons ch r => rw [List.takeWhile_cons_of_neg (by simp [leaves ch rfl]), List.append_nil]
  intro a b r s hr hs same
  have first : a = b := injective (by rw [← taken (a := a) hr, same, taken hs])
  subst first
  exact ⟨rfl, List.append_cancel_left same⟩

theorem toDigits_concat {n : Nat} (large : 16 ≤ n) :
    Nat.toDigits 16 n = Nat.toDigits 16 (n / 16) ++ [Nat.digitChar (n % 16)] :=
  Nat.toDigits_of_base_le (by decide) large

theorem forall_mem_toDigits {p : Char → Prop} (digit : ∀ d < 16, p (Nat.digitChar d)) (n : Nat) :
    ∀ ch ∈ Nat.toDigits 16 n, p ch := by
  induction n using Nat.strongRecOn with
  | ind n ih =>
    by_cases large : 16 ≤ n
    · rw [toDigits_concat large]
      refine List.forall_mem_append.2 ⟨ih _ (by omega), ?_⟩
      exact List.forall_mem_singleton.2 (digit _ (by omega))
    · rw [Nat.toDigits_of_lt_base (by omega)]
      exact List.forall_mem_singleton.2 (digit n (by omega))

theorem hexValue?_toDigits (n : Nat) : hexValue? (Nat.toDigits 16 n) = some n := by
  induction n using Nat.strongRecOn with
  | ind n ih =>
    by_cases large : 16 ≤ n
    · have before := ih (n / 16) (by omega)
      rw [hexValue?] at before
      rw [toDigits_concat large, hexValue?, List.foldl_append, before, List.foldl_cons,
        List.foldl_nil, hexDigit?_digitChar _ (by omega)]
      exact congrArg some (by omega)
    · rw [Nat.toDigits_of_lt_base (by omega), hexValue?, List.foldl_cons, List.foldl_nil,
        hexDigit?_digitChar n (by omega)]
      exact congrArg some (by omega)

def shortEscapes : List (Char × Char) :=
  [('"', '"'), ('\\', '\\'), ('\n', 'n'), ('\r', 'r'), ('\t', 't'), ('\x00', '0')]

inductive Escapes : Char → List Char → Prop where
  | plain {c : Char} (quote : c ≠ '"') (backslash : c ≠ '\\') (newline : c ≠ '\n') : Escapes c [c]
  | short {c k : Char} (listed : (c, k) ∈ shortEscapes) : Escapes c ['\\', k]
  | long (c : Char) : Escapes c ('\\' :: 'u' :: '\x7b' :: (Nat.toDigits 16 c.toNat ++ ['\x7d']))

theorem escapes_escape (c : Char) : Escapes c (escape c).toList := by
  unfold escape
  split
  · exact (show Escapes '"' ['\\', '"'] from .short (by decide))
  · exact (show Escapes '\\' ['\\', '\\'] from .short (by decide))
  · exact (show Escapes '\n' ['\\', 'n'] from .short (by decide))
  · exact (show Escapes '\r' ['\\', 'r'] from .short (by decide))
  · exact (show Escapes '\t' ['\\', 't'] from .short (by decide))
  next quote backslash newline _ _ =>
    split
    next zero =>
      obtain rfl : c = '\x00' := Char.toNat_inj.1 zero
      exact (show Escapes '\x00' ['\\', '0'] from .short (by decide))
    next =>
      split
      · have text : ("\\u\x7b" ++ hexText c.toNat ++ "\x7d").toList =
            '\\' :: 'u' :: '\x7b' :: (Nat.toDigits 16 c.toNat ++ ['\x7d']) := by
          simp [hexText]
        exact text ▸ .long c
      · rw [String.toList_singleton]
        exact .plain quote backslash newline

theorem delimited_toDigits : Delimited (Nat.toDigits 16) (Leaves (· != '\x7d')) := by
  refine delimited_of_class (fun m n same => ?_) fun n => ?_
  · exact Option.some.inj (by rw [← hexValue?_toDigits, same, hexValue?_toDigits])
  · exact forall_mem_toDigits (p := fun ch => (ch != '\x7d') = true) (by decide) n

theorem Escapes.cons {c d : Char} {x y r s : List Char} (hx : Escapes c x) (hy : Escapes d y)
    (same : x ++ r = y ++ s) : c = d ∧ r = s := by
  have unique : ∀ e ∈ shortEscapes, ∀ f ∈ shortEscapes, e.2 = f.2 → e.1 = f.1 := by decide
  have notLong : ∀ e ∈ shortEscapes, e.2 ≠ 'u' := by decide
  -- A backslash tells escapes from plain characters, and what follows it tells them apart.
  cases hx with
  | plain quote backslash newline =>
      cases hy with
      | plain => exact List.cons.inj same
      | short => exact absurd (List.cons.inj same).1 backslash
      | long => exact absurd (List.cons.inj same).1 backslash
  | short listed =>
      cases hy with
      | plain _ backslash => exact absurd (List.cons.inj same).1.symm backslash
      | short listed' =>
          obtain ⟨key, rest⟩ := List.cons.inj (List.cons.inj same).2
          exact ⟨unique _ listed _ listed' key, rest⟩
      | long => exact absurd (List.cons.inj (List.cons.inj same).2).1 (notLong _ listed)
  | long =>
      cases hy with
      | plain _ backslash => exact absurd (List.cons.inj same).1.symm backslash
      | short listed' =>
          exact absurd (List.cons.inj (List.cons.inj same).2).1.symm (notLong _ listed')
      | long =>
          simp only [List.cons_append, List.append_assoc, List.nil_append, List.cons.injEq,
            true_and] at same
          obtain ⟨code, rest⟩ := delimited_toDigits (by simp [Leaves]) (by simp [Leaves]) same
          exact ⟨Char.toNat_inj.1 code, (List.cons.inj rest).2⟩

theorem Escapes.head_ne_quote {c : Char} {x : List Char} (h : Escapes c x) :
    ∃ ch rest, x = ch :: rest ∧ ch ≠ '"' := by
  cases h with
  | plain quote => exact ⟨_, _, rfl, quote⟩
  | short => exact ⟨_, _, rfl, by decide⟩
  | long => exact ⟨_, _, rfl, by decide⟩

theorem Escapes.newline_not_mem {c : Char} {x : List Char} (h : Escapes c x) : '\n' ∉ x := by
  cases h with
  | plain _ _ newline => simpa using newline.symm
  | short listed =>
      have other : ∀ e ∈ shortEscapes, e.2 ≠ '\n' := by decide
      simpa using (other _ listed).symm
  | long =>
      have other := forall_mem_toDigits (p := (· ≠ '\n')) (by decide) c.toNat
      simpa using fun member => other _ member rfl

theorem toList_quoted (s : String) :
    (quoted s).toList = '"' :: (s.toList.flatMap (fun c => (escape c).toList) ++ ['"']) := by
  simp [quoted, String.toList_join, List.flatMap_map]

theorem escaped_unique {cs ds r s : List Char}
    (same : cs.flatMap (fun c => (escape c).toList) ++ '"' :: r =
      ds.flatMap (fun c => (escape c).toList) ++ '"' :: s) : cs = ds ∧ r = s := by
  have apart {c : Char} {rest r : List Char} : (escape c).toList ++ rest ≠ '"' :: r := by
    obtain ⟨ch, _, text, notQuote⟩ := (escapes_escape c).head_ne_quote
    rw [text]
    exact fun same => notQuote (List.cons.inj same).1
  induction cs generalizing ds with
  | nil =>
      cases ds with
      | nil => exact ⟨rfl, (List.cons.inj same).2⟩
      | cons d ds =>
          rw [List.flatMap_cons, List.append_assoc] at same
          exact absurd same.symm apart
  | cons c cs ih =>
      rw [List.flatMap_cons, List.append_assoc] at same
      cases ds with
      | nil => exact absurd same apart
      | cons d ds =>
          rw [List.flatMap_cons, List.append_assoc] at same
          obtain ⟨rfl, after⟩ := (escapes_escape c).cons (escapes_escape d) same
          obtain ⟨rfl, rest⟩ := ih after
          exact ⟨rfl, rest⟩

theorem delimited_quoted : Delimited (fun s => (quoted s).toList) fun _ => True := by
  intro a b r s _ _ same
  simp only [toList_quoted, List.cons_append, List.append_assoc, List.nil_append] at same
  obtain ⟨text, rest⟩ := escaped_unique (List.cons.inj same).2
  exact ⟨String.toList_inj.1 text, rest⟩

theorem newline_not_mem_quoted (s : String) : '\n' ∉ (quoted s).toList := by
  rw [toList_quoted]
  simp only [List.mem_cons, List.mem_append, List.mem_flatMap, List.not_mem_nil, or_false, not_or,
    not_exists, not_and]
  exact ⟨by decide, fun c _ => (escapes_escape c).newline_not_mem, by decide⟩

end AnimatedCanvas.Text
