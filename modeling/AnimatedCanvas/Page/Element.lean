import AnimatedCanvas.Page.ContextCall
import AnimatedCanvas.Page.Pixels

/-!
Elements of a page. They are known by keys, which are never given again; a parent's key is smaller
than those of its children.
-/

namespace AnimatedCanvas

structure Rect where
  left : Float
  top : Float
  width : Float
  height : Float

namespace Rect

instance : Inhabited Rect := ⟨⟨0.0, 0.0, 0.0, 0.0⟩⟩

def corner (r : Rect) : Point := ⟨r.left, r.top⟩

def size (r : Rect) : Size := ⟨r.width, r.height⟩

end Rect

/-- What of an element does not depend on other elements. -/
structure ElementState where
  tag : String
  classes : List String := []
  /-- Its own text, in front of its children's. -/
  text : String := ""
  rect : Rect := default
  offersContext : Bool := true
  isConnected : Bool := true
  refusesSelectors : Bool := false
  style : List (String × String) := []
  width : Nat := 300
  height : Nat := 150
  calls : Array ContextCall := #[]

namespace ElementState

def isCanvas (e : ElementState) : Bool := e.tag == "canvas"

def isDrawable (e : ElementState) : Bool := e.isCanvas && e.offersContext

def setProperty (e : ElementState) (name value : String) : ElementState :=
  { e with style := e.style.filter (·.1 != name) ++ [(name, value)] }

def removeProperty (e : ElementState) (name : String) : ElementState :=
  { e with style := e.style.filter (·.1 != name) }

def record (e : ElementState) (calls : List ContextCall) : ElementState :=
  { e with calls := e.calls ++ calls }

def pixels (x : Float) : String := Decimal.text x ++ "px"

def measured (e : ElementState) (ratio : Float) : ElementState :=
  let width := backingExtent e.rect.width ratio
  let height := backingExtent e.rect.height ratio
  let e := { e with width, height }
  let e := e.record [.width width, .height height, .setTransform ratio 0.0 0.0 ratio 0.0 0.0]
  (e.setProperty "width" (pixels e.rect.width)).setProperty "height" (pixels e.rect.height)

end ElementState

structure Element where
  state : ElementState
  parent : Option Nat
  children : List Nat

inductive Markup where
  | element (id : Option String) (state : ElementState) (children : List Markup)

instance : Inhabited Markup := ⟨.element none { tag := "" } []⟩

structure ElementTree where
  elements : List Element
  ids : List (String × Nat)

namespace ElementTree

def empty : ElementTree := ⟨[], []⟩

def get? (t : ElementTree) (key : Nat) : Option Element := t.elements[key]?

def modify (t : ElementTree) (key : Nat) (f : Element → Element) : ElementTree :=
  { t with elements := t.elements.modify key f }

def modifyState (t : ElementTree) (key : Nat) (f : ElementState → ElementState) : ElementTree :=
  t.modify key fun e => { e with state := f e.state }

def find? (t : ElementTree) (id : String) : Option Nat := t.ids.lookup id

def forget (t : ElementTree) (id : String) : ElementTree :=
  { t with ids := t.ids.filter (·.1 != id) }

mutual

def add (t : ElementTree) (parent : Option Nat) : Markup → ElementTree
  | .element id state children =>
    let key := t.elements.length
    let ids := match id with
      | some id => t.ids ++ [(id, key)]
      | none => t.ids
    let t : ElementTree := ⟨t.elements ++ [{ state, parent, children := [] }], ids⟩
    let t := match parent with
      | some p => t.modify p fun e => { e with children := e.children ++ [key] }
      | none => t
    addAll t (some key) children

def addAll (t : ElementTree) (parent : Option Nat) : List Markup → ElementTree
  | [] => t
  | m :: rest => addAll (t.add parent m) parent rest

end

def ofMarkup (ms : List Markup) : ElementTree := addAll empty none ms

/-! ## Text

Walks down the tree are at most as long as there are elements. -/

def textTo (t : ElementTree) : Nat → Nat → String
  | 0, _ => ""
  | depth + 1, key =>
    match t.get? key with
    | some e => e.state.text ++ String.join (e.children.map (t.textTo depth))
    | none => ""

def text (t : ElementTree) (key : Nat) : String := t.textTo t.elements.length key

def setText (t : ElementTree) (key : Nat) (text : String) : ElementTree :=
  t.modify key fun e => { e with state := { e.state with text }, children := [] }

/-! ## Selection -/

/-- The element or the nearest ancestor with a property, at most so many steps up. -/
def closestWithin (t : ElementTree) (p : ElementState → Bool) : Nat → Nat → Option Nat
  | 0, _ => none
  | steps + 1, key => do
    let e ← t.get? key
    if p e.state then return key else t.closestWithin p steps (← e.parent)

def closestOfClass (t : ElementTree) (key : Nat) (name : String) : Option Nat := do
  let e ← t.get? key
  if e.state.refusesSelectors then none
  else t.closestWithin (·.classes.contains name) t.elements.length key

def descendantsTo (t : ElementTree) : Nat → Nat → List Nat
  | 0, _ => []
  | depth + 1, key =>
    match t.get? key with
    | some e => e.children.flatMap fun child => child :: t.descendantsTo depth child
    | none => []

def firstOfTag (t : ElementTree) (key : Nat) (tag : String) : Option Nat := do
  let e ← t.get? key
  if e.state.refusesSelectors then none
  else
    (t.descendantsTo t.elements.length key).find? fun k => (t.get? k).any (·.state.tag == tag)

end ElementTree
end AnimatedCanvas
