import AnimatedCanvas.Document.YamlToken

/-!
The tree of a YAML text.

`Tree.read?` puts the tokens of a text together. A node that an anchor names can be met again
through an alias, so the tree comes with a table of its anchored nodes, and `Tree.resolve?` follows
an alias there.
-/

namespace AnimatedCanvas.Yaml

/-- A node. An empty text in plain style stands for a value that was left out. -/
inductive Node where
  | scalar (tag : Option String) (style : ScalarStyle) (text : String)
  | list (tag : Option String) (items : List Node)
  | map (tag : Option String) (entries : List (Node × Node))
  | alias (anchor : Nat)

namespace Node

def absent : Node := .scalar none .plain ""

instance : Inhabited Node := ⟨absent⟩

end Node

structure Anchored where
  anchor : Nat
  /-- How many parts of the tree began before it. -/
  order : Nat
  node : Node

structure Tree where
  root : Node
  anchored : List Anchored
  parts : Nat

/-- The node that an alias means: the last to begin of those under its anchor. -/
def Tree.resolve? (t : Tree) (anchor : Nat) : Option Node :=
  let step (best : Option Anchored) (a : Anchored) : Option Anchored :=
    if a.anchor != anchor then best
    else
      match best with
      | none => some a
      | some b => if b.order ≤ a.order then some a else some b
  (t.anchored.foldl step none).map (·.node)

/-! ## Putting tokens together -/

structure Builder where
  tokens : List Token
  handles : List (String × String)
  names : List (String × Nat)
  anchored : List Anchored
  parts : Nat

namespace Builder

def head? (b : Builder) : Option Token := b.tokens.head?

def drop (b : Builder) : Builder := { b with tokens := b.tokens.drop 1 }

def begin (b : Builder) : Builder := { b with parts := b.parts + 1 }

def absent (b : Builder) : Node × Builder := (.absent, b.begin)

def tagName? (b : Builder) (handle suffix : String) : Option String :=
  if handle.isEmpty then some suffix
  else (b.handles.lookup handle).map (· ++ suffix)

/-- Gives a name to the node that begins here. A new name takes the next free anchor; so does an old
one, which the next new name will then share. -/
def name (b : Builder) (name : String) : Nat × Builder :=
  let anchor := b.names.length
  let others := b.names.filter (·.1 != name)
  (anchor, { b with names := (name, anchor) :: others })

def properties? (b : Builder) : Option (Option String × Option String × Builder) :=
  match b.tokens with
  | .anchor name :: .tag handle suffix :: rest => do
    return (some name, some (← b.tagName? handle suffix), { b with tokens := rest })
  | .tag handle suffix :: .anchor name :: rest => do
    return (some name, some (← b.tagName? handle suffix), { b with tokens := rest })
  | .anchor name :: rest => some (some name, none, { b with tokens := rest })
  | .tag handle suffix :: rest => do
    return (none, some (← b.tagName? handle suffix), { b with tokens := rest })
  | _ => some (none, none, b)

def sees (b : Builder) (ts : List Token) : Bool :=
  match b.head? with
  | some t => ts.contains t
  | none => false

inductive Place where
  | flow
  | block
  /-- After a mapping's key, where a list may begin without further indentation. -/
  | blockValue
deriving DecidableEq

mutual

def node? : Nat → Place → Builder → Option (Node × Builder)
  | 0, _, _ => none
  | fuel + 1, place, b =>
    match b.head? with
    | some (.alias name) => do
      let anchor ← b.names.lookup name
      return (.alias anchor, b.drop.begin)
    | _ => do
      let (name, tag, b) ← b.properties?
      let order := b.parts
      let (anchor, b) := match name with
        | some name => let (anchor, b) := b.name name; (some anchor, b)
        | none => (none, b)
      let (node, b) ← content? fuel place (name.isSome || tag.isSome) tag b.begin
      match anchor with
      | none => return (node, b)
      | some anchor =>
        return (node, { b with anchored := { anchor, order, node } :: b.anchored })

def content? : Nat → Place → Bool → Option String → Builder → Option (Node × Builder)
  | 0, _, _, _, _ => none
  | fuel + 1, place, named, tag, b =>
    match b.head? with
    | some .blockEntry =>
      if place = .blockValue then
        (dashes? fuel b).map fun (items, b) => (.list tag items, b.begin)
      else if named then some (.scalar tag .plain "", b)
      else none
    | some (.scalar style text) =>
      some (.scalar (tag.filter (· != "!")) style text, b.drop)
    | some .flowListStart =>
      (flowItems? fuel true b.drop).map fun (items, b) => (.list tag items, b.begin)
    | some .flowMapStart =>
      (flowEntries? fuel true b.drop).map fun (entries, b) => (.map tag entries, b.begin)
    | some .blockListStart =>
      if place != .flow then
        (blockItems? fuel b.drop).map fun (items, b) => (.list tag items, b.begin)
      else if named then some (.scalar tag .plain "", b)
      else none
    | some .blockMapStart =>
      if place != .flow then
        (blockEntries? fuel b.drop).map fun (entries, b) => (.map tag entries, b.begin)
      else if named then some (.scalar tag .plain "", b)
      else none
    | _ => if named then some (.scalar tag .plain "", b) else none

def blockItems? : Nat → Builder → Option (List Node × Builder)
  | 0, _ => none
  | fuel + 1, b =>
    match b.head? with
    | some .blockEntry => do
      let b := b.drop
      let (item, b) ←
        if b.sees [.blockEntry, .blockEnd] then some b.absent else node? fuel .block b
      let (items, b) ← blockItems? fuel b
      return (item :: items, b)
    | some .blockEnd => some ([], b.drop)
    | _ => none

def dashes? : Nat → Builder → Option (List Node × Builder)
  | 0, _ => none
  | fuel + 1, b =>
    match b.head? with
    | some .blockEntry => do
      let b := b.drop
      let (item, b) ←
        if b.sees [.blockEntry, .key, .value, .blockEnd] then some b.absent
        else node? fuel .block b
      let (items, b) ← dashes? fuel b
      return (item :: items, b)
    | _ => some ([], b)

def blockEntries? : Nat → Builder → Option (List (Node × Node) × Builder)
  | 0, _ => none
  | fuel + 1, b =>
    match b.head? with
    | some .key => do
      let stops := [Token.key, .value, .blockEnd]
      let b := b.drop
      let (key, b) ← if b.sees stops then some b.absent else node? fuel .blockValue b
      let (value, b) ←
        if b.sees [.value] then
          let b := b.drop
          if b.sees stops then some b.absent else node? fuel .blockValue b
        else some b.absent
      let (entries, b) ← blockEntries? fuel b
      return ((key, value) :: entries, b)
    | some .blockEnd => some ([], b.drop)
    | _ => none

/-- The items of a list in brackets. A key makes its item a mapping with one entry. -/
def flowItems? : Nat → Bool → Builder → Option (List Node × Builder)
  | 0, _, _ => none
  | fuel + 1, first, b => do
    if b.sees [.flowListEnd] then return ([], b.drop)
    let b ← if first then some b else if b.sees [.flowEntry] then some b.drop else none
    if !first && b.sees [.flowListEnd] then return ([], b.drop)
    let (item, b) ←
      if b.sees [.key] then
        (flowPair? fuel b.drop.begin).map fun (entry, b) => (Node.map none [entry], b.begin)
      else node? fuel .flow b
    let (items, b) ← flowItems? fuel false b
    return (item :: items, b)

/-- The entry of a mapping without braces, after its key mark. Where the key is left out, the token
in its place is passed over. -/
def flowPair? : Nat → Builder → Option ((Node × Node) × Builder)
  | 0, _ => none
  | fuel + 1, b => do
    let (key, b) ←
      if b.sees [.value, .flowEntry, .flowListEnd] then some b.drop.absent else node? fuel .flow b
    let (value, b) ←
      if b.sees [.value] then
        let b := b.drop
        if b.sees [.flowEntry, .flowListEnd] then some b.absent else node? fuel .flow b
      else some b.absent
    return ((key, value), b)

/-- The entries of a mapping in braces. An item without a key mark is a key without a value. -/
def flowEntries? : Nat → Bool → Builder → Option (List (Node × Node) × Builder)
  | 0, _, _ => none
  | fuel + 1, first, b => do
    if b.sees [.flowMapEnd] then return ([], b.drop)
    let b ← if first then some b else if b.sees [.flowEntry] then some b.drop else none
    if !first && b.sees [.flowMapEnd] then return ([], b.drop)
    let (entry, b) ←
      if b.sees [.key] then do
        let b := b.drop
        let (key, b) ←
          if b.sees [.value, .flowEntry, .flowMapEnd] then some b.absent else node? fuel .flow b
        let (value, b) ←
          if b.sees [.value] then
            let b := b.drop
            if b.sees [.flowEntry, .flowMapEnd] then some b.absent else node? fuel .flow b
          else some b.absent
        pure ((key, value), b)
      else do
        let (key, b) ← node? fuel .flow b
        let (value, b) := b.absent
        pure ((key, value), b)
    let (entries, b) ← flowEntries? fuel false b
    return (entry :: entries, b)

end

/-! ## Documents -/

def standardHandles : List (String × String) := [("!", "!"), ("!!", "tag:yaml.org,2002:")]

/-- The directives before a document: at most one version, which must be 1.1 or 1.2, and no handle
twice. -/
def directives? : List Token → Bool → List (String × String) →
    Option (List (String × String) × List Token)
  | .version major minor :: rest, versioned, handles =>
    if versioned || major != 1 || (minor != 1 && minor != 2) then none
    else directives? rest true handles
  | .tagHandle handle expansion :: rest, versioned, handles =>
    if handles.any (·.1 == handle) then none
    else directives? rest versioned ((handle, expansion) :: handles)
  | rest, _, handles => some (handles, rest)

def document? (tokens : List Token) : Option Tree := do
  let fuel := 4 * tokens.length + 4
  let empty : Builder := ⟨[], standardHandles, [], [], 0⟩
  let (root, b) ← match tokens with
    | [] => some empty.absent
    | .version _ _ :: _ | .tagHandle _ _ :: _ | .documentStart :: _ =>
      match directives? tokens false [] with
      | some (handles, .documentStart :: rest) =>
        let b := { empty with tokens := rest, handles := handles ++ standardHandles }
        match rest with
        | [] | .version _ _ :: _ | .tagHandle _ _ :: _ | .documentStart :: _ | .documentEnd :: _ =>
          some b.absent
        | _ => node? fuel .block b
      | _ => none
    | _ => node? fuel .block { empty with tokens }
  if b.tokens.all (· == .documentEnd) then
    return { root, anchored := b.anchored, parts := b.parts }
  else none

end Builder

def Tree.read? (text : String) : Option Tree := do Builder.document? (← Token.scan? text)

end AnimatedCanvas.Yaml
