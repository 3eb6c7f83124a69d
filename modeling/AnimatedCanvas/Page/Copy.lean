import AnimatedCanvas.Page

/-!
Copying a code block by its button. The button of a block writes the text of its code to the
clipboard. Once the clipboard has accepted it, the button says so for two seconds, and then gets the
text back that it had when it began to say so.
-/

namespace AnimatedCanvas.Page

def blockClass : String := "code-block"

def codeTag : String := "code"

def copiedLabel : String := "Copied!"

def copiedBackground : String := "#10b981"

def labelTime : Nat := 2000

def codeOf? (p : Page) (button : Nat) : Option Nat := do
  p.tree.firstOfTag (← p.tree.closestOfClass button blockClass) codeTag

/-- The clipboard has accepted the text: the button says so, and a timer will give its text back. -/
def confirmCopy (p : Page) (button : Nat) : Page :=
  let label := p.tree.text button
  let p := { p with tree := p.tree.setText button copiedLabel }
  let p := p.modifyElement button (·.setProperty "background" copiedBackground)
  { p with timers := p.timers ++ [⟨labelTime, button, label⟩] }

def reportCopyFailure (p : Page) (reason : String) : Page :=
  p.say .error ("failed to copy: " ++ thrownText reason)

def answerCopy (clipboard : Clipboard) (p : Page) (button : Nat) : Page :=
  match clipboard with
  | .accepts => p.confirmCopy button
  | .refuses reason => p.reportCopyFailure reason
  | .waits => { p with unsettled := p.unsettled ++ [button] }

def copyCode (p : Page) (button : Nat) : Page :=
  match p.codeOf? button with
  | none => p
  | some code =>
    if !p.hasWindow then p
    else
      let text := p.tree.text code
      answerCopy p.clipboard { p with writes := p.writes ++ [text] } button

/-- The clipboard answers for all texts that it has not answered for, in order. The texts written so
far are forgotten. -/
def settle (p : Page) (clipboard : Clipboard) : Page :=
  p.unsettled.foldl (answerCopy clipboard) { p with unsettled := [], writes := [] }

def restoreLabel (p : Page) (timer : Timer) : Page :=
  let p := { p with tree := p.tree.setText timer.button timer.label }
  p.modifyElement timer.button (·.removeProperty "background")

def wait (p : Page) (milliseconds : Nat) : Nat × Page :=
  let timers := p.timers.map fun t => { t with remaining := t.remaining - milliseconds }
  let due := timers.filter (·.remaining == 0)
  let p := { p with timers := timers.filter (·.remaining != 0) }
  (due.length, due.foldl restoreLabel p)

end AnimatedCanvas.Page
