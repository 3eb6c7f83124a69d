import AnimatedCanvas.Config.Load
import AnimatedCanvas.Field.Stats
import AnimatedCanvas.Page.Mount

/-!
The page's own animations: what can be put on a canvas, the four standard canvases, and the objects
by which a page holds its animations.
-/

namespace AnimatedCanvas

inductive Effect where
  | quantum
  | hero
  | ambient
  | circuit
deriving DecidableEq

namespace Effect

def all : List Effect := [.quantum, .hero, .ambient, .circuit]

def canvasId : Effect → String
  | .quantum => "quantum-canvas"
  | .hero => "hero-canvas"
  | .ambient => "particles-canvas"
  | .circuit => "circuit-canvas"

def title : Effect → String
  | .quantum => "quantum canvas"
  | .hero => "hero canvas"
  | .ambient => "ambient canvas"
  | .circuit => "circuit canvas"

def config : Effect → AnimationConfig
  | .quantum => .field .quantum
  | .hero => .field .hero
  | .ambient => .field .ambient
  | .circuit => .circuit {}

def configWith (e : Effect) (document : String) : Except ConfigError AnimationConfig :=
  match e.config with
  | .field c => (Configuration.withOverrides c document).map .field
  | .circuit c => (Configuration.withOverrides c document).map .circuit

end Effect

/-- By what a page holds animations: one of them, or the effects that were set up together. -/
inductive Holder where
  | single (mount : Nat)
  | effects (mounts : List Nat)

inductive Exhibit where
  | text (text : String)
  | count (n : Nat)

def Animation.exhibit : Animation Generator → String
  | .field f => f.stats.value.json
  | .circuit d => GateEvent.toJson d.events

structure Site where
  page : Page
  holders : List (String × Holder)

namespace Page

def mountEffect (p : Page) (effect : Effect) (id : String) (document : Option String) :
    Except MountError Nat × Page :=
  match document with
  | none => p.mount id effect.config
  | some document =>
    match effect.configWith document with
    | .ok config => p.mount id config
    | .error e => (.error (.canvas (.config e)), p)

def tryEffect (p : Page) (effect : Effect) : Option Nat × Page :=
  match p.mountEffect effect effect.canvasId none with
  | (.ok key, p) => (some key, p)
  | (.error e, p) => (none, p.say .warn ("skipping " ++ effect.title ++ ": " ++ e.reason))

def tryEffects : List Effect → Page → List Nat × Page
  | [], p => ([], p)
  | e :: rest, p =>
    let (key, p) := p.tryEffect e
    let (keys, p) := tryEffects rest p
    (key.toList ++ keys, p)

def mountEffects (p : Page) : List Nat × Page :=
  let (keys, p) := tryEffects Effect.all p
  (keys, p.say .info ("mounted " ++ toString keys.length ++ " canvas effects"))

end Page

namespace Holder

def mounts : Holder → List Nat
  | .single mount => [mount]
  | .effects mounts => mounts

def destroy (h : Holder) (p : Page) : Page :=
  h.mounts.foldl (fun p key => (p.mount? key).elim p p.destroyMount) p

def drop (h : Holder) (p : Page) : Page :=
  h.mounts.foldl (fun p key => (p.mount? key).elim p p.dropMount) p

def exhibit (h : Holder) (p : Page) : Exhibit :=
  match h with
  | .single key => .text (((p.mount? key).map (·.animator.scene.exhibit)).getD "")
  | .effects mounts => .count mounts.length

end Holder

namespace Site

def ofPage (page : Page) : Site := ⟨page, []⟩

def holder? (s : Site) (name : String) : Option Holder := s.holders.lookup name

/-- Adds a holder; the one that had its name is dropped when it is there. -/
def put (s : Site) (name : String) (holder : Holder) : Site :=
  let page := match s.holder? name with
    | some old => old.drop s.page
    | none => s.page
  { page, holders := (name, holder) :: s.holders.filter (·.1 != name) }

/-- Puts an effect on a canvas, under a name; gives the error where that fails, and then what has the
name stays. -/
def mount (s : Site) (name : String) (effect : Effect) (id : String) (document : Option String) :
    Option MountError × Site :=
  match s.page.mountEffect effect id document with
  | (.ok key, page) => (none, ({ s with page } : Site).put name (.single key))
  | (.error e, page) => (some e, { s with page })

def mountEffects (s : Site) (name : String) : Site :=
  let (keys, page) := s.page.mountEffects
  ({ s with page } : Site).put name (.effects keys)

/-- As `mount`, for an effect that may find no memory. -/
def mount? (s : Site) (name : String) (effect : Effect) (id : String) (document : Option String) :
    Option (Option MountError × Site) := do
  match document.elim (.ok effect.config) effect.configWith with
  | .ok config => s.page.reserveMount? id config
  | .error _ => some ()
  return s.mount name effect id document

def putNothing (s : Site) (name : String) : Site := s.put name (.effects [])

def exhibit? (s : Site) (name : String) : Option Exhibit :=
  (s.holder? name).map (·.exhibit s.page)

def destroy (s : Site) (name : String) : Site :=
  match s.holder? name with
  | some h => { s with page := h.destroy s.page }
  | none => s

def drop (s : Site) (name : String) : Bool × Site :=
  match s.holder? name with
  | some h => (true, { page := h.drop s.page, holders := s.holders.filter (·.1 != name) })
  | none => (false, s)

end Site
end AnimatedCanvas
