import AnimatedCanvas.Decimal.Layout
import AnimatedCanvas.Text.Quoted

/-!
Document values, and their text in JSON and YAML.

A mapping keeps its entries in the order in which they were written. `Value.put` and `Value.merge`
layer one document over another.
-/

namespace AnimatedCanvas

inductive Number where
  /-- A natural number below `2 ^ 64`. -/
  | natural (n : Nat)
  /-- A negative whole number from `-2 ^ 63` on. -/
  | negative (n : Int)
  | real (x : Float)

namespace Number

/-- Whether two numbers are one key: whole numbers by value, and all that are not numbers alike. -/
def same : Number → Number → Bool
  | .natural m, .natural n => m == n
  | .negative m, .negative n => m == n
  | .real x, .real y => (x.isNaN && y.isNaN) || x == y
  | _, _ => false

def toFloat : Number → Float
  | .natural n => n.toUInt64.toFloat
  | .negative n => -n.natAbs.toUInt64.toFloat
  | .real x => x

end Number

inductive Value where
  | null
  | flag (b : Bool)
  | number (n : Number)
  | text (s : String)
  | list (items : List Value)
  | map (entries : List (Value × Value))
  | tagged (tag : String) (content : Value)

namespace Value

instance : Inhabited Value := ⟨.null⟩

def count (n : Nat) : Value := .number (.natural n)

def real (x : Float) : Value := .number (.real x)

def record (fields : List (String × Value)) : Value :=
  .map (fields.map fun (key, value) => (.text key, value))

/-! ## Tags -/

mutual

def hasTag : Value → Bool
  | .tagged _ _ => true
  | .list items => anyTag items
  | .map entries => anyEntryTag entries
  | .null => false
  | .flag _ => false
  | .number _ => false
  | .text _ => false

def anyTag : List Value → Bool
  | [] => false
  | v :: rest => hasTag v || anyTag rest

def anyEntryTag : List (Value × Value) → Bool
  | [] => false
  | (k, v) :: rest => hasTag k || hasTag v || anyEntryTag rest

end

/-! ## Layering -/

mutual

/-- Whether two values are one key. The order of a mapping's entries does not matter. -/
def same : Value → Value → Bool
  | .null, .null => true
  | .flag a, .flag b => a == b
  | .number a, .number b => a.same b
  | .text a, .text b => a == b
  | .list as, .list bs => sameItems as bs
  | .map as, .map bs => as.length == bs.length && sameEntries as bs
  | .tagged s a, .tagged t b => s == t && same a b
  | _, _ => false

def sameItems : List Value → List Value → Bool
  | [], [] => true
  | a :: as, b :: bs => same a b && sameItems as bs
  | _, _ => false

def sameEntries : List (Value × Value) → List (Value × Value) → Bool
  | [], _ => true
  | (k, v) :: rest, bs => bs.any (fun (k', v') => same k k' && same v v') && sameEntries rest bs

end

def find? (entries : List (Value × Value)) (key : Value) : Option Value :=
  (entries.find? fun (k, _) => k.same key).map (·.2)

def put (entries : List (Value × Value)) (key value : Value) : List (Value × Value) :=
  if entries.any (fun (k, _) => k.same key) then
    entries.map fun (k, v) => if k.same key then (k, value) else (k, v)
  else entries ++ [(key, value)]

mutual

/-- Layers a patch over a value. Mappings are layered key by key, a null leaves the value as it is,
and anything else replaces it. -/
def merge (base : Value) : Value → Value
  | .map patch =>
    match base with
    | .map entries => .map (mergeEntries entries patch)
    | _ => .map patch
  | .null => base
  | .flag b => .flag b
  | .number n => .number n
  | .text s => .text s
  | .list items => .list items
  | .tagged tag content => .tagged tag content

def mergeEntries (entries : List (Value × Value)) : List (Value × Value) → List (Value × Value)
  | [] => entries
  | (key, value) :: patch =>
    let value := match find? entries key with
      | some old => merge old value
      | none => value
    mergeEntries (put entries key value) patch

end

/-! ## JSON text -/

def jsonEscape (c : Char) : String :=
  match c with
  | '"' => "\\\""
  | '\\' => "\\\\"
  | '\n' => "\\n"
  | '\r' => "\\r"
  | '\t' => "\\t"
  | c =>
    if c.toNat = 8 then "\\b"
    else if c.toNat = 12 then "\\f"
    else if c.toNat < 0x20 then
      "\\u00" ++ String.ofList (Text.hexPair c.toNat)
    else String.singleton c

def jsonText (s : String) : String := "\"" ++ String.join (s.toList.map jsonEscape) ++ "\""

def jsonNumber : Number → String
  | .natural n => toString n
  | .negative n => toString n
  | .real x => Decimal.json.text x

mutual

def json : Value → String
  | .null => "null"
  | .flag b => if b then "true" else "false"
  | .number n => jsonNumber n
  | .text s => jsonText s
  | .list items => "[" ++ ",".intercalate (jsonItems items) ++ "]"
  | .map entries => "\x7b" ++ ",".intercalate (jsonEntries entries) ++ "\x7d"
  | .tagged tag content => "\x7b" ++ jsonText tag ++ ":" ++ json content ++ "\x7d"

def jsonItems : List Value → List String
  | [] => []
  | v :: rest => json v :: jsonItems rest

def jsonEntries : List (Value × Value) → List String
  | [] => []
  | (k, v) :: rest => (json k ++ ":" ++ json v) :: jsonEntries rest

end

def jsonBlock (opening closing margin : String) (lines : List String) : String :=
  if lines.isEmpty then opening ++ closing
  else
    opening ++ "\n" ++ ",\n".intercalate (lines.map fun line => margin ++ "  " ++ line) ++ "\n" ++
      margin ++ closing

mutual

def jsonPretty (margin : String) : Value → String
  | .list items => jsonBlock "[" "]" margin (prettyItems (margin ++ "  ") items)
  | .map entries => jsonBlock "\x7b" "\x7d" margin (prettyEntries (margin ++ "  ") entries)
  | .null => json .null
  | .flag b => json (.flag b)
  | .number n => json (.number n)
  | .text s => json (.text s)
  | .tagged tag content => json (.tagged tag content)

def prettyItems (margin : String) : List Value → List String
  | [] => []
  | v :: rest => jsonPretty margin v :: prettyItems margin rest

def prettyEntries (margin : String) : List (Value × Value) → List String
  | [] => []
  | (k, v) :: rest => (json k ++ ": " ++ jsonPretty margin v) :: prettyEntries margin rest

end

/-! ## YAML text -/

def reservedWords : List String :=
  ["null", "Null", "NULL", "true", "True", "TRUE", "false", "False", "FALSE"]

/-- Whether a text can stand without quotes: a word of letters and underscores that means nothing
else. -/
def isWord (s : String) : Bool :=
  !s.isEmpty && s.toList.all (fun c => c.isAlpha || c == '_') && !reservedWords.contains s

/-- A text as YAML writes it: bare, or in single quotes with each of them doubled. -/
def yamlText (s : String) : String :=
  if isWord s then s
  else
    let body := s.toList.map fun c => if c = '\'' then "''" else String.singleton c
    "'" ++ String.join body ++ "'"

def yamlNumber : Number → String
  | .natural n => toString n
  | .negative n => toString n
  | .real x => Decimal.yaml.text x

def yamlInline? : Value → Option String
  | .null => some "null"
  | .flag b => some (if b then "true" else "false")
  | .number n => some (yamlNumber n)
  | .text s => some (yamlText s)
  | .list [] => some "[]"
  | .map [] => some "\x7b\x7d"
  | .list _ => none
  | .map _ => none
  | .tagged _ _ => none

def itemLines : List String → List String
  | [] => []
  | line :: rest => ("- " ++ line) :: rest.map ("  " ++ ·)

mutual

/-- The lines of a value in block form. Lists are not indented under their key. -/
def yamlLines : Value → List String
  | .list (v :: rest) => yamlItems (v :: rest)
  | .map (entry :: rest) => yamlEntries (entry :: rest)
  | .list [] => ["[]"]
  | .map [] => ["\x7b\x7d"]
  | .null => ["null"]
  | .flag b => [if b then "true" else "false"]
  | .number n => [yamlNumber n]
  | .text s => [yamlText s]
  | .tagged tag content =>
    match yamlInline? content with
    | some line => ["!" ++ tag ++ " " ++ line]
    | none => ("!" ++ tag) :: yamlLines content

def yamlItems : List Value → List String
  | [] => []
  | v :: rest => itemLines (yamlLines v) ++ yamlItems rest

def yamlEntries : List (Value × Value) → List String
  | [] => []
  | (k, v) :: rest =>
    let key := (yamlInline? k).getD (json k)
    let lines := match yamlInline? v, v with
      | some line, _ => [key ++ ": " ++ line]
      | none, .map _ => (key ++ ":") :: (yamlLines v).map ("  " ++ ·)
      | none, _ => (key ++ ":") :: yamlLines v
    lines ++ yamlEntries rest

end

def yaml (v : Value) : String := String.join ((yamlLines v).map (· ++ "\n"))

end Value
end AnimatedCanvas
