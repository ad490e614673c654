import Mathlib.Algebra.Ring.Int.Defs
import Mathlib.Data.List.Sort

/-! JSON values as the runtime sees them: a decoded Python value, with the
truthiness, the dictionary access and the conversions the source relies on. -/
namespace AgentRuntime

/-- A decoded JSON value. A float is its decimal mantissa and exponent. -/
inductive Json where
  | null
  | bool (value : Bool)
  | int (value : Int)
  | float (mantissa exponent : Int)
  | str (text : String)
  | arr (items : List Json)
  | obj (fields : List (String × Json))

/-- A Python `dict` with string keys, in insertion order. -/
abbrev Dict := List (String × Json)

namespace Dict

def get? (d : Dict) (k : String) : Option Json := (d.find? fun field => field.1 = k).map Prod.snd

@[simp] theorem get?_cons (field : String × Json) (rest : Dict) (k : String) :
    get? (field :: rest) k = if field.1 = k then some field.2 else get? rest k := by
  by_cases same : field.1 = k <;> simp [get?, same]

/-- `d.get(k, default)`. -/
def getD (d : Dict) (k : String) (default : Json) : Json := (d.get? k).getD default

/-- `{**d, k: v}`: a key that is present keeps its place. -/
def set (d : Dict) (k : String) (v : Json) : Dict :=
  if (d.get? k).isSome then d.map fun field => if field.1 = k then (k, v) else field
  else d ++ [(k, v)]

theorem get?_set_self (fields : Dict) (k : String) (v : Json) :
    (fields.set k v).get? k = some v := by
  unfold Dict.set
  split
  next present =>
    have same : (fun field : String × Json => decide (field.1 = k)) ∘
        (fun field => if field.1 = k then (k, v) else field) = fun field => decide (field.1 = k) := by
      funext field
      by_cases equal : field.1 = k <;> simp [equal]
    obtain ⟨value, found⟩ := Option.isSome_iff_exists.mp present
    obtain ⟨field, first, _⟩ := Option.map_eq_some_iff.mp found
    have equal : field.1 = k := by simpa using List.find?_some first
    rw [get?, List.find?_map, same, first]
    simp [equal]
  next absent =>
    have missing : fields.find? (fun field => decide (field.1 = k)) = none := by
      have none : fields.get? k = none := by simpa only [Bool.not_eq_true, Option.isSome_eq_false_iff,
        Option.isNone_iff_eq_none] using absent
      exact Option.map_eq_none_iff.mp none
    simp [get?, missing]

theorem get?_set_ne (fields : Dict) {k other : String} (v : Json) (differs : other ≠ k) :
    (fields.set k v).get? other = fields.get? other := by
  unfold Dict.set
  split
  next present =>
    clear present
    induction fields with
    | nil => rfl
    | cons field rest ih =>
        rw [List.map_cons, get?_cons, get?_cons]
        by_cases same : field.1 = k
        · simp [same, differs.symm, ih]
        · simp [same, ih]
  next => simp [get?, List.find?_append, differs.symm]

/-- `{**left, **right}`. -/
def merge (left right : Dict) : Dict := right.foldl (fun d field => d.set field.1 field.2) left

end Dict

namespace Json

/-- `bool(value)`. -/
def truthy : Json → Bool
  | .null => false
  | .bool b => b
  | .int n => n != 0
  | .float m _ => m != 0
  | .str s => s != ""
  | .arr items => !items.isEmpty
  | .obj fields => !fields.isEmpty

/-- `left or right`. -/
def orElse (left right : Json) : Json := if left.truthy then left else right

mutual

/-- The value with the keys of every object in order. Two decoded values are equal up to
key order when these agree. -/
def canonical : Json → Json
  | .arr items => .arr (canonicalItems items)
  | .obj fields => .obj ((canonicalFields fields).insertionSort fun f g => f.1 ≤ g.1)
  | value => value

def canonicalItems : List Json → List Json
  | [] => []
  | item :: rest => item.canonical :: canonicalItems rest

def canonicalFields : List (String × Json) → List (String × Json)
  | [] => []
  | (key, item) :: rest => (key, item.canonical) :: canonicalFields rest

end

end Json

/-- The library functions whose results the source only compares, stores or
concatenates. -/
structure Builtins where
  repr : Json → String
  lower : String → String
  upper : String → String
  strip : String → String
  /-- `json.dumps(.., sort_keys=True, separators=(",", ":"))`. -/
  dumps : Json → String
  /-- `hashlib.sha256(..).hexdigest()`. -/
  sha256 : String → String
  /-- A digest is 64 hexadecimal characters. -/
  sha256_length : ∀ text, (sha256 text).length = 64
  /-- `int(text)`, and none where it raises. -/
  parseInt : String → Option Int
  /-- `int(str(n))` is `n`. -/
  parseInt_repr : ∀ n : Nat, parseInt n.repr = some (n : Int)
  /-- `fnmatch.fnmatch(name, pattern)`. -/
  fnmatch : String → String → Bool
  /-- `model_dump_json()` of a model whose `model_dump()` is the value. -/
  dumpJson : Json → String
  /-- The message of the `ValidationError` of a model class for a value. -/
  invalid : String → Json → String

/-- `int(text)` on texts of letters and digits. -/
def parseDigits (text : String) : Option Int :=
  if text.toList ≠ [] ∧ text.toList.all Char.isDigit then some (Nat.ofDigitChars 10 text.toList 0)
  else none

theorem parseDigits_repr (n : Nat) : parseDigits n.repr = some (n : Int) := by
  have digits : (Nat.toDigits 10 n).all Char.isDigit = true :=
    List.all_eq_true.mpr fun c member => Nat.isDigit_of_mem_toDigits (by decide) (by decide) member
  rw [parseDigits, Nat.toList_repr, if_pos ⟨Nat.toDigits_ne_nil, digits⟩,
    Nat.ofDigitChars_ten_toDigits]

/-- These functions on the empty object and on texts of lower-case letters and digits. -/
def Builtins.onEmpty : Builtins where
  repr _ := "\x7b\x7d"
  lower text := text
  upper text := text.map Char.toUpper
  strip text := text
  dumps _ := "\x7b\x7d"
  sha256 _ := "44136fa355b3678a1146ad16f7e8649e94fb4fc21fe77e8310c060f61caaff8a"
  sha256_length _ := by decide
  parseInt := parseDigits
  parseInt_repr := parseDigits_repr
  fnmatch name pattern := name = pattern
  dumpJson _ := "\x7b\x7d"
  invalid _ _ := ""

namespace Json

/-- `str(value)`: a string is itself, any other value is its `repr`. -/
def text (py : Builtins) : Json → String
  | .str s => s
  | value => py.repr value

/-- `int(value)`, and none where it raises. -/
def toInt (py : Builtins) : Json → Option Int
  | .int n => some n
  | .bool b => some (if b then 1 else 0)
  | .float m e => some (if 0 ≤ e then m * 10 ^ e.toNat else m.tdiv (10 ^ (-e).toNat))
  | .str s => py.parseInt s
  | .null | .arr _ | .obj _ => none

/-- `list(value)`, and none where it raises. -/
def toList : Json → Option (List Json)
  | .arr items => some items
  | .obj fields => some (fields.map fun field => .str field.1)
  | .str s => some (s.toList.map fun c => .str (String.singleton c))
  | .null | .bool _ | .int _ | .float _ _ => none

/-- `type(value).__name__`. -/
def typeName : Json → String
  | .null => "NoneType"
  | .bool _ => "bool"
  | .int _ => "int"
  | .float _ _ => "float"
  | .str _ => "str"
  | .arr _ => "list"
  | .obj _ => "dict"

/-- Whether the value may be an element of a `set` or a key of a `dict`. -/
def hashable : Json → Bool
  | .arr _ | .obj _ => false
  | _ => true

end Json

/-- The messages of the `TypeError` or `AttributeError` for a value of the wrong type. -/
def unhashable (value : Json) : String := "unhashable type: '" ++ value.typeName ++ "'"
def notIterable (value : Json) : String := "'" ++ value.typeName ++ "' object is not iterable"
def noAttribute (value : Json) (name : String) : String :=
  "'" ++ value.typeName ++ "' object has no attribute '" ++ name ++ "'"

end AgentRuntime
