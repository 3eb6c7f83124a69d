import AnimatedCanvas.Text.Hexadecimal

/-!
The tokens of a YAML text.

`Token.scan?` reads a text from its first character to its last. Block structure is made explicit on
the way: an entry further in than the last one opens a collection, and one further out closes those
in between. A mapping key is only known as one when its colon comes, so `Scanner` remembers where
the latest possible key began, and puts the key's token there afterwards.
-/

namespace AnimatedCanvas.Yaml

inductive ScalarStyle where
  | plain
  | singleQuoted
  | doubleQuoted
  | literal
  | folded
deriving DecidableEq

inductive Token where
  | version (major minor : Nat)
  | tagHandle (handle expansion : String)
  | documentStart
  | documentEnd
  | blockListStart
  | blockMapStart
  | blockEnd
  | flowListStart
  | flowListEnd
  | flowMapStart
  | flowMapEnd
  | blockEntry
  | flowEntry
  | key
  | value
  | alias (name : String)
  | anchor (name : String)
  | tag (handle suffix : String)
  | scalar (style : ScalarStyle) (text : String)
deriving DecidableEq

/-! ## Characters -/

def isSpaceOrTab (c : Char) : Bool := c == ' ' || c == '\t'

def isBreak (c : Char) : Bool :=
  c == '\n' || c == '\r' || c.toNat == 0x85 || c.toNat == 0x2028 || c.toNat == 0x2029

def isNameChar (c : Char) : Bool := c.isAlphanum || c == '_' || c == '-'

def isPrintable (c : Char) : Bool :=
  let n := c.toNat
  n == 9 || n == 10 || n == 13 || (0x20 ≤ n && n ≤ 0x7E) || n == 0x85 || (0xA0 ≤ n && n ≤ 0xD7FF) ||
    (0xE000 ≤ n && n ≤ 0xFFFD) || 0x10000 ≤ n

/-- Whether a token could end here: at a blank, a break or the end of the text. -/
def atGap : List Char → Bool
  | [] => true
  | c :: _ => isSpaceOrTab c || isBreak c

def atLineEnd : List Char → Bool
  | [] => true
  | c :: _ => isBreak c

/-! ## Position in the text -/

structure Cursor where
  rest : List Char
  index : Nat
  line : Nat
  column : Nat

namespace Cursor

def skip (c : Cursor) (n : Nat) : Cursor :=
  { c with rest := c.rest.drop n, index := c.index + n, column := c.column + n }

def readBreak (c : Cursor) : List Char × Cursor :=
  let pass (n : Nat) : Cursor :=
    { rest := c.rest.drop n, index := c.index + n, line := c.line + 1, column := 0 }
  match c.rest with
  | '\r' :: '\n' :: _ => (['\n'], pass 2)
  | ch :: _ =>
    if ch.toNat == 0x2028 || ch.toNat == 0x2029 then ([ch], pass 1)
    else if isBreak ch then (['\n'], pass 1)
    else ([], c)
  | [] => ([], c)

def takeWhile (c : Cursor) (p : Char → Bool) : List Char × Cursor :=
  let taken := c.rest.takeWhile p
  (taken, c.skip taken.length)

def dropWhile (c : Cursor) (p : Char → Bool) : Cursor := (c.takeWhile p).2

def atDocumentMark (c : Cursor) : Bool :=
  c.column == 0 &&
    match c.rest with
    | '-' :: '-' :: '-' :: rest => atGap rest
    | '.' :: '.' :: '.' :: rest => atGap rest
    | _ => false

end Cursor

/-! ## Blanks inside scalars -/

structure Gap where
  blanks : List Char
  first : List Char
  others : List Char
  spansLines : Bool

namespace Gap

def empty : Gap := ⟨[], [], [], false⟩

/-- A run that begins with an escaped break, which leaves nothing behind. -/
def escaped : Gap := ⟨[], [], [], true⟩

/-- What a run means for the text: blanks stand for themselves, one break for a blank, and more
breaks for all but the first of them. -/
def folded (g : Gap) : List Char :=
  if !g.spansLines then g.blanks
  else if g.first == ['\n'] then
    if g.others.isEmpty then [' '] else g.others
  else g.first ++ g.others

/-- Reads a run. In a plain scalar a tab must not stand in the indentation, which ends at column
`indent`. -/
def read? (indent : Nat) : Nat → Cursor → Gap → Option (Gap × Cursor)
  | 0, c, g => some (g, c)
  | fuel + 1, c, g =>
    match c.rest with
    | [] => some (g, c)
    | ch :: _ =>
      if isSpaceOrTab ch then
        if g.spansLines then
          if ch == '\t' && c.column < indent then none
          else read? indent fuel (c.skip 1) g
        else read? indent fuel (c.skip 1) { g with blanks := g.blanks ++ [ch] }
      else if isBreak ch then
        let (br, c) := c.readBreak
        if g.spansLines then read? indent fuel c { g with others := g.others ++ br }
        else read? indent fuel c { g with blanks := [], first := br, spansLines := true }
      else some (g, c)

end Gap

/-! ## Quoted scalars -/

def escaped? : Char → Option Nat
  | '0' => some 0
  | 'a' => some 7
  | 'b' => some 8
  | 't' => some 9
  | '\t' => some 9
  | 'n' => some 10
  | 'v' => some 11
  | 'f' => some 12
  | 'r' => some 13
  | 'e' => some 27
  | ' ' => some 0x20
  | '"' => some 0x22
  | '/' => some 0x2F
  | '\\' => some 0x5C
  | 'N' => some 0x85
  | '_' => some 0xA0
  | 'L' => some 0x2028
  | 'P' => some 0x2029
  | _ => none

def escapeLength? : Char → Option Nat
  | 'x' => some 2
  | 'u' => some 4
  | 'U' => some 8
  | _ => none

def codePoint? (digits : List Char) (length : Nat) : Option Char := do
  let n ← Text.hexValue? digits
  if digits.length = length ∧ n.isValidChar then some (Char.ofNat n) else none

def quoted? (single : Bool) : Nat → Cursor → List Char → Option (List Char × Cursor)
  | 0, _, _ => none
  | fuel + 1, c, text =>
    if c.atDocumentMark then none
    else
      match c.rest with
      | [] => none
      | ch :: more =>
        if isSpaceOrTab ch || isBreak ch then do
          let (gap, c) ← Gap.read? 0 c.rest.length c .empty
          quoted? single fuel c (text ++ gap.folded)
        else if single then
          if ch == '\'' then
            if more.head? == some '\'' then quoted? single fuel (c.skip 2) (text ++ ['\''])
            else some (text, c.skip 1)
          else quoted? single fuel (c.skip 1) (text ++ [ch])
        else if ch == '"' then some (text, c.skip 1)
        else if ch == '\\' then
          match more with
          | [] => none
          | e :: digits =>
            if isBreak e then do
              let (gap, c) ← Gap.read? 0 c.rest.length ((c.skip 1).readBreak).2 .escaped
              quoted? single fuel c (text ++ gap.folded)
            else
              match escaped? e, escapeLength? e with
              | some n, _ => quoted? single fuel (c.skip 2) (text ++ [Char.ofNat n])
              | none, some length => do
                let x ← codePoint? (digits.take length) length
                quoted? single fuel (c.skip (2 + length)) (text ++ [x])
              | none, none => none
        else quoted? single fuel (c.skip 1) (text ++ [ch])

/-! ## Plain scalars -/

def isFlowIndicator (c : Char) : Bool :=
  c == ',' || c == '[' || c == ']' || c == '\x7b' || c == '\x7d'

/-- The characters of a plain scalar up to a blank or the end of the scalar. Inside brackets a colon
must not stand before another indicator. -/
def plainRun? (inFlow : Bool) : List Char → Option (List Char)
  | [] => some []
  | ch :: more =>
    if isSpaceOrTab ch || isBreak ch then some []
    else if inFlow && ch == ':' && more.head?.any (fun m => isFlowIndicator m || m == '?') then none
    else if (ch == ':' && atGap more) || (inFlow && isFlowIndicator ch) then some []
    else (plainRun? inFlow more).map (ch :: ·)

/-- A plain scalar: its text, where it ended, and whether it ended on a later line. -/
def plain? (inFlow : Bool) (indent : Nat) :
    Nat → Cursor → List Char → Gap → Option (List Char × Cursor × Bool)
  | 0, _, _, _ => none
  | fuel + 1, c, text, gap =>
    if c.atDocumentMark || c.rest.head? == some '#' then some (text, c, gap.spansLines)
    else do
      let run ← plainRun? inFlow c.rest
      if run.isEmpty then return (text, c, gap.spansLines)
      else
        let text := text ++ gap.folded ++ run
        let (gap, next) ← Gap.read? indent c.rest.length (c.skip run.length) .empty
        if next.index == c.index + run.length then return (text, next, false)
        else if !inFlow && next.column < indent then return (text, next, gap.spansLines)
        else plain? inFlow indent fuel next text gap

/-! ## Block scalars -/

inductive Chomping where
  | strip
  | clip
  | keep
deriving DecidableEq

def blockHeader? (c : Cursor) : Option (Chomping × Option Nat × Cursor) :=
  let chomping? : Cursor → Option Chomping × Cursor := fun c =>
    match c.rest with
    | '+' :: _ => (some .keep, c.skip 1)
    | '-' :: _ => (some .strip, c.skip 1)
    | _ => (none, c)
  let increment? : Cursor → Option (Option Nat × Cursor) := fun c =>
    match c.rest with
    | ch :: _ =>
      if ch == '0' then none
      else if ch.isDigit then some (some (ch.toNat - '0'.toNat), c.skip 1)
      else some (none, c)
    | [] => some (none, c)
  match chomping? c with
  | (some chomping, c) => (increment? c).map fun (n, c) => (chomping, n, c)
  | (none, c) => do
    let (n, c) ← increment? c
    match n with
    | none => return (.clip, none, c)
    | some n =>
      let (chomping, c) := chomping? c
      return (chomping.getD .clip, some n, c)

/-- Passes over blank lines and the indentation of the next line. The indentation of the widest of
them comes back; a tab must not stand in it. -/
def blockBreaks? (indent : Option Nat) :
    Nat → Cursor → List Char → Nat → Option (List Char × Nat × Cursor)
  | 0, _, _, _ => none
  | fuel + 1, c, breaks, widest =>
    let room := match indent with
      | some n => n - c.column
      | none => c.rest.length
    let spaces := (c.rest.take room).takeWhile (· == ' ')
    let c := c.skip spaces.length
    let widest := max widest c.column
    let inIndent := match indent with
      | some n => c.column < n
      | none => true
    if inIndent && c.rest.head? == some '\t' then none
    else if atLineEnd c.rest && !c.rest.isEmpty then
      let (br, c) := c.readBreak
      blockBreaks? indent fuel c (breaks ++ br) widest
    else some (breaks, widest, c)

/-- The lines of a block scalar at column `indent`: the text so far, the last break, and the breaks
of blank lines after it. -/
def blockLines? (isFolded : Bool) (indent : Nat) :
    Nat → Cursor → List Char → List Char → List Char → Bool →
      Option (List Char × List Char × List Char × Cursor)
  | 0, _, _, _, _, _ => none
  | fuel + 1, c, text, last, breaks, wasBlank =>
    if c.column == indent && !c.rest.isEmpty then do
      let isBlank := c.rest.head?.any isSpaceOrTab
      let joint :=
        if isFolded && last == ['\n'] && !wasBlank && !isBlank then
          if breaks.isEmpty then [' '] else []
        else last
      let (line, c) := c.takeWhile (fun ch => !isBreak ch)
      let (last, c) := c.readBreak
      let text := text ++ joint ++ breaks ++ line
      let (breaks, _, c) ← blockBreaks? (some indent) (c.rest.length + 1) c [] 0
      blockLines? isFolded indent fuel c text last breaks isBlank
    else some (text, last, breaks, c)

def block? (isFolded : Bool) (parent : Int) (c : Cursor) : Option (List Char × Cursor) := do
  let (chomping, increment, c) ← blockHeader? c
  let c := c.dropWhile isSpaceOrTab
  let c := if c.rest.head? == some '#' then c.dropWhile (fun ch => !isBreak ch) else c
  if !atLineEnd c.rest then none
  else
    let c := c.readBreak.2
    let given := increment.map fun n => if parent ≥ 0 then parent.toNat + n else n
    let (breaks, widest, c) ← blockBreaks? given (c.rest.length + 1) c [] 0
    let indent := given.getD (max widest (max (parent + 1).toNat 1))
    let (text, last, breaks, c) ←
      blockLines? isFolded indent (c.rest.length + 1) c [] [] breaks false
    let ending := match chomping with
      | .strip => []
      | .clip => last
      | .keep => last ++ breaks
    return (text ++ ending, c)

/-! ## Anchors, tags and directives -/

def anchorName? (c : Cursor) : Option (String × Cursor) :=
  let (name, c) := c.takeWhile isNameChar
  let ends := atGap c.rest ||
    c.rest.head?.any (fun ch => "?:,]\x7d%@`".toList.contains ch)
  if name.isEmpty || !ends then none else some (String.ofList name, c)

/-- A handle from its first exclamation mark on; a directive wants the closing one. -/
def tagHandle? (directive : Bool) (c : Cursor) : Option (String × Cursor) :=
  match c.rest with
  | '!' :: _ =>
    let (name, c) := (c.skip 1).takeWhile isNameChar
    match c.rest with
    | '!' :: _ => some (String.ofList ('!' :: name ++ ['!']), c.skip 1)
    | _ =>
      if directive && !name.isEmpty then none else some (String.ofList ('!' :: name), c)
  | _ => none

def uriByte? : List Char → Option (UInt8 × List Char)
  | '%' :: h :: l :: rest => do
    let n ← Text.hexValue? [h, l]
    return (UInt8.ofNat n, rest)
  | _ => none

def utf8Width? (b : UInt8) : Option Nat :=
  if b < 0x80 then some 1
  else if b &&& 0xE0 == 0xC0 then some 2
  else if b &&& 0xF0 == 0xE0 then some 3
  else if b &&& 0xF8 == 0xF0 then some 4
  else none

def uriTail? : Nat → List Char → Option (List UInt8)
  | 0, _ => some []
  | n + 1, cs => do
    let (b, rest) ← uriByte? cs
    if b &&& 0xC0 == 0x80 then return b :: (← uriTail? n rest) else none

def uriEscape? (cs : List Char) : Option (Char × Nat) := do
  let (b, rest) ← uriByte? cs
  let width ← utf8Width? b
  let tail ← uriTail? (width - 1) rest
  let text ← String.fromUTF8? ⟨(b :: tail).toArray⟩
  match text.toList with
  | [c] => return (c, 3 * width)
  | _ => none

def isUriChar (full : Bool) (c : Char) : Bool :=
  isNameChar c || ";/?:@&=+$.!~*'()".toList.contains c || (full && (c == ',' || c == '[' || c == ']'))

def uri? (full : Bool) : Nat → Cursor → Option (List Char × Cursor)
  | 0, c => some ([], c)
  | fuel + 1, c =>
    match c.rest with
    | '%' :: _ => do
      let (ch, width) ← uriEscape? c.rest
      let (more, c) ← uri? full fuel (c.skip width)
      return (ch :: more, c)
    | ch :: _ =>
      if isUriChar full ch then do
        let (more, c) ← uri? full fuel (c.skip 1)
        return (ch :: more, c)
      else some ([], c)
    | [] => some ([], c)

/-- A tag: handle and suffix. A full address has no handle, nor has a lone exclamation mark. -/
def tag? (inFlow : Bool) (c : Cursor) : Option (Token × Cursor) := do
  let (handle, suffix, c) ← match c.rest with
    | '!' :: '<' :: _ => do
      let (address, c) ← uri? true c.rest.length (c.skip 2)
      if address.isEmpty || c.rest.head? != some '>' then none
      else pure ("", String.ofList address, c.skip 1)
    | _ => do
      let (handle, c) ← tagHandle? false c
      let (more, c) ← uri? false c.rest.length c
      if handle.length > 1 && handle.endsWith "!" then
        if more.isEmpty then none else pure (handle, String.ofList more, c)
      else
        let suffix := String.ofList (handle.toList.drop 1 ++ more)
        if suffix.isEmpty then pure ("", "!", c) else pure ("!", suffix, c)
  if atGap c.rest || (inFlow && c.rest.head? == some ',') then return (.tag handle suffix, c)
  else none

def versionNumber? (c : Cursor) : Option (Nat × Cursor) :=
  let (digits, c) := c.takeWhile Char.isDigit
  if digits.isEmpty || 9 < digits.length then none
  else some (digits.foldl (fun n d => 10 * n + (d.toNat - '0'.toNat)) 0, c)

def directive? (c : Cursor) : Option (Token × Cursor) := do
  let (name, c) := c.takeWhile isNameChar
  if !atGap c.rest then none
  else
    let c := c.dropWhile isSpaceOrTab
    let (token, c) ← match String.ofList name with
      | "YAML" => do
        let (major, c) ← versionNumber? c
        if c.rest.head? != some '.' then none
        else
          let (minor, c) ← versionNumber? (c.skip 1)
          pure (Token.version major minor, c)
      | "TAG" => do
        let (handle, c) ← tagHandle? true c
        if !c.rest.head?.any isSpaceOrTab then none
        else
          let (address, c) ← uri? true c.rest.length (c.dropWhile isSpaceOrTab)
          if address.isEmpty || !atGap c.rest then none
          else pure (Token.tagHandle handle (String.ofList address), c)
      | _ => none
    let c := c.dropWhile isSpaceOrTab
    let c := if c.rest.head? == some '#' then c.dropWhile (fun ch => !isBreak ch) else c
    if atLineEnd c.rest then return (token, c.readBreak.2) else none

/-! ## The scanner -/

structure KeyStart where
  /-- How many tokens came before it. -/
  position : Nat
  index : Nat
  line : Nat
  column : Nat
  /-- Whether nothing else could stand there in its collection. -/
  required : Bool

structure Scanner where
  cursor : Cursor
  tokens : List Token
  /-- The columns of the open block collections, the innermost first. -/
  indents : List Nat
  keyAllowed : Bool
  /-- The possible key of each open pair of brackets, the innermost first; the last is that of the
  text itself. -/
  keys : List (Option KeyStart)

namespace Scanner

def start (text : List Char) : Scanner where
  cursor := ⟨text, 0, 0, 0⟩
  tokens := []
  indents := []
  keyAllowed := true
  keys := [none]

def inFlow (s : Scanner) : Bool := 1 < s.keys.length

/-- The column of the innermost block collection, and -1 without one. -/
def indent (s : Scanner) : Int :=
  match s.indents with
  | [] => -1
  | n :: _ => n

def push (s : Scanner) (t : Token) : Scanner := { s with tokens := t :: s.tokens }

def insert (s : Scanner) (position : Nat) (t : Token) : Scanner :=
  let later := s.tokens.length - position
  { s with tokens := s.tokens.take later ++ t :: s.tokens.drop later }

/-- Passes over blanks, comments and breaks. A key may begin on a new line. -/
def skipToToken : Nat → Scanner → Scanner
  | 0, s => s
  | fuel + 1, s =>
    let isSkipped (ch : Char) : Bool := ch == ' ' || (ch == '\t' && (s.inFlow || !s.keyAllowed))
    let c := s.cursor
    let c := if c.index == 0 && c.rest.head?.any (·.toNat == 0xFEFF) then c.skip 1 else c
    let c := c.dropWhile isSkipped
    let c := if c.rest.head? == some '#' then c.dropWhile (fun ch => !isBreak ch) else c
    if atLineEnd c.rest && !c.rest.isEmpty then
      skipToToken fuel
        { s with cursor := c.readBreak.2, keyAllowed := s.keyAllowed || !s.inFlow }
    else { s with cursor := c }

/-- Gives up possible keys that began on an earlier line or too far back; fails where one had to be
a key. -/
def dropStaleKeys? (s : Scanner) : Option Scanner := do
  let keys ← s.keys.mapM fun
    | none => some none
    | some k =>
      if k.line < s.cursor.line || k.index + 1024 < s.cursor.index then
        if k.required then none else some none
      else some (some k)
  return { s with keys }

def unroll (s : Scanner) (column : Int) : Scanner :=
  if s.inFlow then s
  else
    let closed := s.indents.takeWhile (fun (n : Nat) => column < n)
    { s with
      tokens := closed.map (fun _ => Token.blockEnd) ++ s.tokens
      indents := s.indents.drop closed.length }

/-- Opens a block collection at `column`, unless one is open there; its token comes after the first
`position` tokens. -/
def roll (s : Scanner) (column position : Nat) (t : Token) : Scanner :=
  if s.inFlow || column ≤ s.indent then s
  else { s.insert position t with indents := column :: s.indents }

def dropKey? (s : Scanner) : Option Scanner :=
  match s.keys with
  | some k :: keys => if k.required then none else some { s with keys := none :: keys }
  | _ => some s

def saveKey? (s : Scanner) : Option Scanner :=
  if !s.keyAllowed then some s
  else do
    let c := s.cursor
    let required := !s.inFlow && s.indent == c.column
    let s ← s.dropKey?
    let k : KeyStart :=
      { position := s.tokens.length, index := c.index, line := c.line, column := c.column, required }
    return { s with keys := some k :: s.keys.drop 1 }

def take (s : Scanner) (n : Nat) (t : Token) : Scanner :=
  { s.push t with cursor := s.cursor.skip n }

def documentMark? (s : Scanner) (t : Token) : Option Scanner := do
  let s ← (s.unroll (-1)).dropKey?
  return { s.take 3 t with keyAllowed := false }

def directiveLine? (s : Scanner) : Option Scanner := do
  let s ← (s.unroll (-1)).dropKey?
  let (t, c) ← directive? (s.cursor.skip 1)
  return { s.push t with cursor := c, keyAllowed := false }

def flowOpen? (s : Scanner) (t : Token) : Option Scanner := do
  let s ← s.saveKey?
  return { s.take 1 t with keys := none :: s.keys, keyAllowed := true }

def flowClose? (s : Scanner) (t : Token) : Option Scanner := do
  let s ← s.dropKey?
  let keys := if s.inFlow then s.keys.drop 1 else s.keys
  return { s.take 1 t with keys, keyAllowed := false }

def flowComma? (s : Scanner) : Option Scanner := do
  let s ← s.dropKey?
  return { s.take 1 .flowEntry with keyAllowed := true }

def openBlock? (s : Scanner) (t : Token) : Option Scanner :=
  if s.inFlow then some s
  else if !s.keyAllowed then none
  else some (s.roll s.cursor.column s.tokens.length t)

def dash? (s : Scanner) : Option Scanner := do
  let s ← s.openBlock? .blockListStart
  let s ← s.dropKey?
  return { s.take 1 .blockEntry with keyAllowed := true }

def question? (s : Scanner) : Option Scanner := do
  let s ← s.openBlock? .blockMapStart
  let s ← s.dropKey?
  return { s.take 1 .key with keyAllowed := !s.inFlow }

def colon? (s : Scanner) : Option Scanner :=
  match s.keys with
  | some k :: keys =>
    let s := (s.insert k.position .key).roll k.column k.position .blockMapStart
    some { s.take 1 .value with keys := none :: keys, keyAllowed := false }
  | _ => do
    let s ← s.openBlock? .blockMapStart
    return { s.take 1 .value with keyAllowed := !s.inFlow }

def named? (s : Scanner) (t : String → Token) : Option Scanner := do
  let s ← s.saveKey?
  let (name, c) ← anchorName? (s.cursor.skip 1)
  return { s.push (t name) with cursor := c, keyAllowed := false }

def tagged? (s : Scanner) : Option Scanner := do
  let s ← s.saveKey?
  let (t, c) ← tag? s.inFlow s.cursor
  return { s.push t with cursor := c, keyAllowed := false }

def blockScalar? (s : Scanner) (style : ScalarStyle) : Option Scanner := do
  let s ← s.dropKey?
  let (text, c) ← block? (style == .folded) s.indent (s.cursor.skip 1)
  return { s.push (.scalar style (String.ofList text)) with cursor := c, keyAllowed := true }

def quotedScalar? (s : Scanner) (style : ScalarStyle) : Option Scanner := do
  let s ← s.saveKey?
  let c := s.cursor.skip 1
  let (text, c) ← quoted? (style == .singleQuoted) (c.rest.length + 1) c []
  return { s.push (.scalar style (String.ofList text)) with cursor := c, keyAllowed := false }

def plainScalar? (s : Scanner) : Option Scanner := do
  let s ← s.saveKey?
  let c := s.cursor
  let (text, c, later) ←
    plain? s.inFlow (s.indent + 1).toNat (c.rest.length + 1) c [] .empty
  return { s.push (.scalar .plain (String.ofList text)) with cursor := c, keyAllowed := later }

def startsPlain (inFlow : Bool) (ch : Char) (more : List Char) : Bool :=
  !"-?:,[]\x7b\x7d#&*!|>'\"%@`".toList.contains ch ||
    (ch == '-' && !more.head?.any isSpaceOrTab) ||
    (!inFlow && (ch == '?' || ch == ':') && !atGap more)

def next? (s : Scanner) (ch : Char) (more : List Char) : Option Scanner :=
  let atColumn0 := s.cursor.column == 0
  if atColumn0 && ch == '%' then s.directiveLine?
  else if s.cursor.atDocumentMark then
    s.documentMark? (if ch == '-' then .documentStart else .documentEnd)
  else
    match ch with
    | '[' => s.flowOpen? .flowListStart
    | '\x7b' => s.flowOpen? .flowMapStart
    | ']' => s.flowClose? .flowListEnd
    | '\x7d' => s.flowClose? .flowMapEnd
    | ',' => s.flowComma?
    | '*' => s.named? .alias
    | '&' => s.named? .anchor
    | '!' => s.tagged?
    | '\'' => s.quotedScalar? .singleQuoted
    | '"' => s.quotedScalar? .doubleQuoted
    | _ =>
      if ch == '-' && atGap more then s.dash?
      else if ch == '?' && (s.inFlow || atGap more) then s.question?
      else if ch == ':' && (s.inFlow || atGap more) then s.colon?
      else if ch == '|' && !s.inFlow then s.blockScalar? .literal
      else if ch == '>' && !s.inFlow then s.blockScalar? .folded
      else if startsPlain s.inFlow ch more then s.plainScalar?
      else none

def finish? : Nat → Scanner → Option (List Token)
  | 0, _ => none
  | fuel + 1, s => do
    let s ← (s.skipToToken (s.cursor.rest.length + 1)).dropStaleKeys?
    let s := s.unroll s.cursor.column
    match s.cursor.rest with
    | [] =>
      let s ← (s.unroll (-1)).dropKey?
      return s.tokens.reverse
    | ch :: more => (← s.next? ch more).finish? fuel

end Scanner

/-- The tokens of a text. A byte order mark at its beginning does not count. -/
def Token.scan? (text : String) : Option (List Token) :=
  let cs := text.toList
  let cs := match cs with
    | c :: rest => if c.toNat == 0xFEFF then rest else cs
    | [] => []
  if cs.all isPrintable then (Scanner.start cs).finish? (cs.length + 1) else none

end AnimatedCanvas.Yaml
