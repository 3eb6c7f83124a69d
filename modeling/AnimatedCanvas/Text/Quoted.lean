import AnimatedCanvas.Text.Hexadecimal
import AnimatedCanvas.Text.Ranges

/-!
Quoted text in messages and drawing transcripts. Quotes, backslashes and characters that do not print
on their own are escaped, so a quoted text never breaks its line.
-/

namespace AnimatedCanvas.Text

def isCombining (c : Char) : Bool := 0x7E < c.toNat && isWithin combiningRanges c

/-- Whether a character prints nothing of its own. -/
def isInvisible (c : Char) : Bool :=
  c.toNat < 0x20 || (0x7E < c.toNat && isWithin invisibleRanges c)

def escape (c : Char) : String :=
  match c with
  | '"' => "\\\""
  | '\\' => "\\\\"
  | '\n' => "\\n"
  | '\r' => "\\r"
  | '\t' => "\\t"
  | c =>
    if c.toNat = 0 then "\\0"
    else if isInvisible c || isCombining c then "\\u\x7b" ++ hexText c.toNat ++ "\x7d"
    else String.singleton c

def quoted (s : String) : String :=
  "\"" ++ String.join (s.toList.map escape) ++ "\""

end AnimatedCanvas.Text
