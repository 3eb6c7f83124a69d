import AnimatedCanvas.Proofs.Decimal.Text
import AnimatedCanvas.Proofs.Text.Quoted
import AnimatedCanvas.Surface.Recorder

/-!
# Transcripts of drawings are unambiguous

A line is read from the left. No text of a number contains what stands after it, and quoted texts and
colors end by themselves. Only the font of a text can contain anything; it ends at the last bracket,
since colors have none. So each line tells its command (`DrawCommand.logLine_injective`), and a
transcript its lines.
-/

namespace AnimatedCanvas

open Decimal (isNumeric numeric_text text_injective)
open Text (Delimited Leaves delimited_of_class delimited_quoted newline_not_mem_quoted)

namespace Text

variable {α β γ : Type} {write : α → List Char} {write' : β → List Char} {line : γ → List Char}
  {follows follows' : List Char → Prop}

theorem Delimited.injective (h : Delimited write follows) (nil : follows []) :
    Function.Injective write :=
  fun _ _ same => (h nil nil (congrArg (· ++ []) same)).1

theorem Delimited.append (h : Delimited write follows) (separator : String)
    (starts : ∀ r, follows (separator.toList ++ r)) (h' : Delimited write' follows') :
    Delimited (fun p : α × β => write p.1 ++ (separator.toList ++ write' p.2)) follows' := by
  intro p q r s hr hs same
  simp only [List.append_assoc] at same
  obtain ⟨first, after⟩ := h (starts _) (starts _) same
  obtain ⟨second, rest⟩ := h' hr hs (List.append_cancel_left after)
  exact ⟨Prod.ext first second, rest⟩

theorem Delimited.enclosed (h : Delimited write follows) (opening closing : String)
    (ends : ∀ r, follows (closing.toList ++ r)) :
    Delimited (fun a => opening.toList ++ (write a ++ closing.toList)) fun _ => True := by
  intro a b r s _ _ same
  simp only [List.append_assoc] at same
  obtain ⟨first, after⟩ := h (ends _) (ends _) (List.append_cancel_left same)
  exact ⟨first, List.append_cancel_left after⟩

theorem Delimited.of_fields (h : Delimited write follows) (fields : γ → α)
    (written : ∀ c, line c = write (fields c)) (make : α → γ) (eta : ∀ c, make (fields c) = c) :
    Delimited line follows := by
  intro c d r s hr hs same
  rw [written, written] at same
  obtain ⟨equal, rest⟩ := h hr hs same
  exact ⟨by rw [← eta c, equal, eta], rest⟩

end Text

/-! ## Numbers, points and colors -/

theorem Decimal.delimited_text :
    Delimited (fun x => (Decimal.text x).toList) (Leaves isNumeric) :=
  delimited_of_class (fun _ _ same => text_injective (String.toList_inj.1 same)) numeric_text

theorem delimited_channel :
    Delimited (fun n : UInt8 => (toString n.toNat).toList) (Leaves Char.isDigit) := by
  simp only [Nat.toString_eq_repr, Nat.toList_repr]
  refine delimited_of_class (fun m n same => UInt8.toNat_inj.1 ?_) fun n ch member => ?_
  · rw [← Nat.ofDigitChars_ten_toDigits (n := m.toNat), same, Nat.ofDigitChars_ten_toDigits]
  · exact Nat.isDigit_of_mem_toDigits (by decide) (by decide) member

theorem Point.delimited_text :
    Delimited (fun p : Point => p.text.toList) (Leaves isNumeric) := by
  have sides := Decimal.delimited_text.append "," (by simp [Leaves, isNumeric])
    Decimal.delimited_text
  exact sides.of_fields (fun p => (p.x, p.y)) (fun p => by simp [Point.text])
    (fun f => ⟨f.1, f.2⟩) fun _ => rfl

theorem Size.delimited_text :
    Delimited (fun s : Size => s.text.toList) (Leaves isNumeric) := by
  have sides := Decimal.delimited_text.append "x" (by simp [Leaves, isNumeric])
    Decimal.delimited_text
  exact sides.of_fields (fun s => (s.width, s.height)) (fun s => by simp [Size.text])
    (fun f => ⟨f.1, f.2⟩) fun _ => rfl

theorem Color.delimited_css : Delimited (fun c : Color => c.css.toList) fun _ => True := by
  have channels := delimited_channel.append ", " (by simp [Leaves]) (delimited_channel.append ", "
    (by simp [Leaves]) (delimited_channel.append ", " (by simp [Leaves]) Decimal.delimited_text))
  exact (channels.enclosed "rgba(" ")" (by simp [Leaves, isNumeric])).of_fields
    (fun c => (c.red, c.green, c.blue, c.alpha)) (fun c => by simp [Color.css])
    (fun f => ⟨f.1, f.2.1, f.2.2.1, f.2.2.2⟩) fun _ => rfl

/-! ## Characters -/

section

variable {ch : Char}

theorem Decimal.not_mem_text (other : isNumeric ch = false) (x : Float) :
    ch ∉ (Decimal.text x).toList := by
  intro member
  rw [numeric_text x ch member] at other
  cases other

theorem not_mem_channel (other : isNumeric ch = false) (n : UInt8) :
    ch ∉ (toString n.toNat).toList := by
  simp only [Nat.toString_eq_repr, Nat.toList_repr]
  intro member
  have digit := Nat.isDigit_of_mem_toDigits (by decide) (by decide) member
  rw [isNumeric, digit, Bool.true_or] at other
  cases other

theorem Color.not_mem_css (other : isNumeric ch = false) (plain : ch ∉ "rgba(, )".toList)
    (c : Color) : ch ∉ c.css.toList := by
  simp only [css, String.toList_append, List.mem_append, not_or, not_mem_channel other,
    Decimal.not_mem_text other]
  simp at plain
  simp [plain]

theorem Point.not_mem_text (other : isNumeric ch = false) (plain : ch ≠ ',') (p : Point) :
    ch ∉ p.text.toList := by
  simp [text, Decimal.not_mem_text other, plain]

theorem Size.not_mem_text (other : isNumeric ch = false) (plain : ch ≠ 'x') (s : Size) :
    ch ∉ s.text.toList := by
  simp [text, Decimal.not_mem_text other, plain]

end

/-! ## Styles of texts -/

theorem TextAlign.delimited_name :
    Delimited (fun a : TextAlign => a.name.toList) (· = []) := by
  rintro a b r s rfl rfl same
  cases a with
  | left =>
      cases b with
      | left => exact ⟨rfl, rfl⟩
      | center => exact absurd same (by decide)
  | center =>
      cases b with
      | left => exact absurd same (by decide)
      | center => exact ⟨rfl, rfl⟩

theorem last_unique {α : Type} {c : α} {x y t u : List α} (ht : c ∉ t) (hu : c ∉ u)
    (same : x ++ c :: t = y ++ c :: u) : x = y ∧ t = u := by
  obtain ⟨more, rfl, after⟩ | ⟨more, rfl, after⟩ := List.append_eq_append_iff.1 same
  · cases more with
    | nil => exact ⟨by simp, (List.cons.inj after).2⟩
    | cons d more =>
        obtain ⟨rfl, rfl⟩ := List.cons.inj after
        exact absurd (by simp) ht
  · cases more with
    | nil => exact ⟨by simp, (List.cons.inj after).2.symm⟩
    | cons d more =>
        obtain ⟨rfl, rfl⟩ := List.cons.inj after
        exact absurd (by simp) hu

theorem TextStyle.delimited : Delimited (fun s : TextStyle =>
    s.font.toList ++ ("] ".toList ++ (s.color.css.toList ++ (" ".toList ++ s.align.name.toList))))
      (· = []) := by
  rintro ⟨font, color, align⟩ ⟨font', color', align'⟩ r s rfl rfl same
  -- What follows the font has no bracket, so that the font ends at the last one.
  have noBracket (color : Color) (align : TextAlign) :
      ']' ∉ " ".toList ++ (color.css.toList ++ (" ".toList ++ align.name.toList)) := by
    have name : ']' ∉ align.name.toList := by cases align <;> decide
    simp [color.not_mem_css (show isNumeric ']' = false by decide) (by decide), name]
  simp only [List.append_nil] at same
  obtain ⟨fonts, after⟩ := last_unique (noBracket color align) (noBracket color' align') same
  have parts := Color.delimited_css.append " " (fun _ => trivial) TextAlign.delimited_name
  have fields : (color, align) = (color', align') := parts.injective rfl (List.append_cancel_left after)
  cases fields
  cases String.toList_inj.1 fonts
  exact ⟨rfl, rfl⟩

/-! ## Lines -/

namespace DrawCommand

def initials : DrawCommand → List Char
  | .clear => ['c', 'l']
  | .fillRect .. => ['r', 'e']
  | .fillCircle .. => ['c', 'i']
  | .strokeCircle .. => ['r', 'i']
  | .fillGlow .. => ['g', 'l']
  | .line .. => ['l', 'i']
  | .fillText .. => ['t', 'e']

theorem take_logLine (c : DrawCommand) : c.logLine.toList.take 2 = c.initials := by
  cases c <;> simp [logLine.eq_def, initials]

theorem leaves_blank (r : List Char) : Leaves isNumeric (" ".toList ++ r) := by
  simp [Leaves, isNumeric]

theorem leaves_radius (r : List Char) : Leaves isNumeric (" r".toList ++ r) := by
  simp [Leaves, isNumeric]

theorem fillRect_injective : Function.Injective fun f : Point × Size × Color =>
    (fillRect f.1 f.2.1 f.2.2).logLine.toList := by
  intro f g same
  have fields := Point.delimited_text.append " " leaves_blank
    (Size.delimited_text.append " " leaves_blank Color.delimited_css)
  exact fields.injective trivial (by simpa [logLine.eq_def] using same)

theorem fillCircle_injective : Function.Injective fun f : Point × Float × Color =>
    (fillCircle f.1 f.2.1 f.2.2).logLine.toList := by
  intro f g same
  have fields := Point.delimited_text.append " r" leaves_radius
    (Decimal.delimited_text.append " " leaves_blank Color.delimited_css)
  exact fields.injective trivial (by simpa [logLine.eq_def] using same)

theorem strokeCircle_injective : Function.Injective fun f : Point × Float × Color × Float =>
    (strokeCircle f.1 f.2.1 f.2.2.1 f.2.2.2).logLine.toList := by
  intro f g same
  have paint := Color.delimited_css.append " w" (fun _ => trivial) Decimal.delimited_text
  have fields := Point.delimited_text.append " r" leaves_radius
    (Decimal.delimited_text.append " " leaves_blank paint)
  exact fields.injective (by simp [Leaves]) (by simpa [logLine.eq_def] using same)

theorem fillGlow_injective : Function.Injective fun f : Point × Float × Color × Color =>
    (fillGlow f.1 f.2.1 f.2.2.1 f.2.2.2).logLine.toList := by
  intro f g same
  have colors := Color.delimited_css.append " -> " (fun _ => trivial) Color.delimited_css
  have fields := Point.delimited_text.append " r" leaves_radius
    (Decimal.delimited_text.append " " leaves_blank colors)
  exact fields.injective trivial (by simpa [logLine.eq_def] using same)

theorem line_injective : Function.Injective fun f : Point × Point × Color × Float =>
    (line f.1 f.2.1 f.2.2.1 f.2.2.2).logLine.toList := by
  intro f g same
  have paint := Color.delimited_css.append " w" (fun _ => trivial) Decimal.delimited_text
  have fields := Point.delimited_text.append " -> " (by simp [Leaves, isNumeric])
    (Point.delimited_text.append " " leaves_blank paint)
  exact fields.injective (by simp [Leaves]) (by simpa [logLine.eq_def] using same)

theorem fillText_injective : Function.Injective fun f : String × Point × TextStyle =>
    (fillText f.1 f.2.1 f.2.2).logLine.toList := by
  intro f g same
  have placed := Point.delimited_text.append " [" (by simp [Leaves, isNumeric]) TextStyle.delimited
  have fields := delimited_quoted.append " " (fun _ => trivial) placed
  exact fields.injective rfl (by simpa [logLine.eq_def] using same)

theorem logLine_injective : Function.Injective fun c : DrawCommand => c.logLine.toList := by
  intro a b same
  have word : a.initials = b.initials := by
    rw [← take_logLine, ← take_logLine]
    exact congrArg (List.take 2) same
  cases a <;> cases b
  case clear.clear => rfl
  case fillRect.fillRect =>
    cases @fillRect_injective (_, _, _) (_, _, _) same
    rfl
  case fillCircle.fillCircle =>
    cases @fillCircle_injective (_, _, _) (_, _, _) same
    rfl
  case strokeCircle.strokeCircle =>
    cases @strokeCircle_injective (_, _, _, _) (_, _, _, _) same
    rfl
  case fillGlow.fillGlow =>
    cases @fillGlow_injective (_, _, _, _) (_, _, _, _) same
    rfl
  case line.line =>
    cases @line_injective (_, _, _, _) (_, _, _, _) same
    rfl
  case fillText.fillText =>
    cases @fillText_injective (_, _, _) (_, _, _) same
    rfl
  -- Lines of different commands differ in their first two letters.
  all_goals simp [initials] at word

/-- A command whose line is one line: its font has no line break. -/
def OneLine : DrawCommand → Prop
  | .fillText _ _ style => '\n' ∉ style.font.toList
  | _ => True

theorem newline_not_mem_logLine {c : DrawCommand} (h : c.OneLine) : '\n' ∉ c.logLine.toList := by
  have numeric : isNumeric '\n' = false := by decide
  have point := Point.not_mem_text numeric (by decide)
  have size := Size.not_mem_text numeric (by decide)
  have number := Decimal.not_mem_text numeric
  have color := Color.not_mem_css numeric (by decide)
  cases c with
  | fillText content position style =>
      have font : '\n' ∉ style.font.toList := h
      have name : '\n' ∉ style.align.name.toList := by cases style.align <;> decide
      simp [logLine.eq_def, newline_not_mem_quoted, point, font, color, name]
  | _ => simp [logLine.eq_def, point, size, number, color]

theorem splitOn_transcript {commands : List DrawCommand} (some : commands ≠ [])
    (oneLine : ∀ c ∈ commands, c.OneLine) :
    (transcript commands).toList.splitOn '\n' = commands.map fun c => c.logLine.toList := by
  have lines : (transcript commands).toList =
      ['\n'].intercalate (commands.map fun c => c.logLine.toList) := by
    simp [transcript, Function.comp_def]
  rw [lines]
  refine List.splitOn_intercalate _ (fun line member => ?_) (by simpa using some)
  obtain ⟨c, inside, rfl⟩ := List.mem_map.1 member
  exact newline_not_mem_logLine (oneLine c inside)

theorem logLine_ne_nil (c : DrawCommand) : c.logLine.toList ≠ [] := by
  intro nil
  have begins := c.take_logLine
  rw [nil] at begins
  cases c <;> cases begins

theorem transcript_ne_empty {commands : List DrawCommand} (some : commands ≠ [])
    (oneLine : ∀ c ∈ commands, c.OneLine) : transcript commands ≠ "" := by
  intro empty
  have lines := splitOn_transcript some oneLine
  rw [empty] at lines
  obtain ⟨c, rest, rfl⟩ := List.exists_cons_of_ne_nil some
  exact logLine_ne_nil c (List.cons.inj lines).1.symm

theorem eq_of_transcript {commands commands' : List DrawCommand}
    (oneLine : ∀ c ∈ commands, c.OneLine) (oneLine' : ∀ c ∈ commands', c.OneLine)
    (same : transcript commands = transcript commands') : commands = commands' := by
  by_cases none : commands = []
  · by_contra other
    subst none
    exact transcript_ne_empty (Ne.symm other) oneLine' same.symm
  by_cases none' : commands' = []
  · subst none'
    exact absurd same (transcript_ne_empty none oneLine)
  have lines := splitOn_transcript none oneLine
  rw [same, splitOn_transcript none' oneLine'] at lines
  exact (List.map_injective_iff.2 logLine_injective lines).symm

end DrawCommand

namespace Recorder

/-- Two logs with one transcript are the same log, command by command and field by field, and a
transcript has one line for each command. There is only one value that is no number, so all these
count as the same. -/
theorem transcript_unambiguous (r s : Recorder) (oneLine : ∀ c ∈ r.commands, c.OneLine)
    (oneLine' : ∀ c ∈ s.commands, c.OneLine) :
    (r.transcript = s.transcript → r.commands = s.commands) ∧
      (r.commands ≠ [] →
        r.transcript.toList.splitOn '\n' = r.commands.map fun c => c.logLine.toList) :=
  ⟨DrawCommand.eq_of_transcript oneLine oneLine',
    fun some => DrawCommand.splitOn_transcript some oneLine⟩

def bracketed (radius : Float) (size : Size) : Recorder :=
  (create size).draw [.fillCircle ⟨1.0, 2.5⟩ radius .white,
    .fillText "a\nb" ⟨-0.0, 3.0⟩ ⟨"12px x] y", .black, .center⟩]

theorem transcript_unambiguous_bracketed :
    (bracketed (0.0 / 0.0) .zero).transcript = (bracketed (-1.0 : Float).sqrt ⟨8.0, 9.0⟩).transcript ∧
      (bracketed (0.0 / 0.0) .zero).commands = (bracketed (-1.0 : Float).sqrt ⟨8.0, 9.0⟩).commands ∧
      (bracketed (0.0 / 0.0) .zero).transcript.toList.splitOn '\n' =
        ["circle 1,2.5 rNaN rgba(255, 255, 255, 1)".toList,
          "text \"a\\nb\" -0,3 [12px x] y] rgba(0, 0, 0, 1) center".toList] := by
  have oneLine (radius : Float) (size : Size) :
      ∀ c ∈ (bracketed radius size).commands, c.OneLine := by
    simp [bracketed, DrawCommand.OneLine]
  have unambiguous := transcript_unambiguous (bracketed (0.0 / 0.0) .zero)
    (bracketed (-1.0 : Float).sqrt ⟨8.0, 9.0⟩) (oneLine _ _) (oneLine _ _)
  have same : (bracketed (0.0 / 0.0) .zero).transcript =
      (bracketed (-1.0 : Float).sqrt ⟨8.0, 9.0⟩).transcript := by
    decide +kernel
  refine ⟨same, unambiguous.1 same, (unambiguous.2 (by simp [bracketed])).trans ?_⟩
  decide +kernel

end Recorder
end AnimatedCanvas
