/-
JSON values and how `json.dumps` prints them.

A value is what `json.loads` builds: objects keep the order of their fields, and a
float is kept as the text of its literal, which is rounded where it is computed with.
Text is a sequence of Unicode scalar values.

`print` is `json.dumps(v, separators=(",", ":"))`: no blanks, and every character
outside printable ASCII escaped, so the output is ASCII whatever the value holds.
-/
import ExecRestApi.Lib.Double
import ExecRestApi.Lib.Dict

namespace Py

/-- A JSON document. -/
inductive Json : Type where
  | null
  | bool (b : Bool)
  | int (n : Int)
  | float (lit : String)
  | str (s : String)
  | arr (items : List Json)
  | obj (fields : List (String × Json))
  deriving Repr, Inhabited

namespace Json

/-! ### Decidable equality -/

mutual

/-- Structural equality. -/
def beq : Json → Json → Bool
  | null, null => true
  | bool a, bool b => a == b
  | int a, int b => a == b
  | float a, float b => a == b
  | str a, str b => a == b
  | arr a, arr b => beqItems a b
  | obj a, obj b => beqFields a b
  | _, _ => false

/-- `beq` on the items of an array. -/
def beqItems : List Json → List Json → Bool
  | [], [] => true
  | a :: as, b :: bs => beq a b && beqItems as bs
  | _, _ => false

/-- `beq` on the fields of an object. -/
def beqFields : List (String × Json) → List (String × Json) → Bool
  | [], [] => true
  | (k, a) :: as, (l, b) :: bs => k == l && (beq a b && beqFields as bs)
  | _, _ => false

end

mutual

theorem beq_iff : ∀ a b : Json, beq a b = true ↔ a = b
  | null, b => by cases b <;> simp [beq]
  | bool x, b => by cases b <;> simp [beq]
  | int x, b => by cases b <;> simp [beq]
  | float x, b => by cases b <;> simp [beq]
  | str x, b => by cases b <;> simp [beq]
  | arr as, b => by cases b <;> simp [beq, beqItems_iff as]
  | obj as, b => by cases b <;> simp [beq, beqFields_iff as]

theorem beqItems_iff : ∀ as bs : List Json, beqItems as bs = true ↔ as = bs
  | [], bs => by cases bs <;> simp [beqItems]
  | a :: as, bs => by
      rcases bs with _ | ⟨b, bs⟩ <;> simp [beqItems, beq_iff a, beqItems_iff as]

theorem beqFields_iff : ∀ as bs : List (String × Json), beqFields as bs = true ↔ as = bs
  | [], bs => by cases bs <;> simp [beqFields]
  | (k, a) :: as, bs => by
      rcases bs with _ | ⟨⟨l, b⟩, bs⟩ <;>
        simp [beqFields, beq_iff a, beqFields_iff as, and_assoc]

end

instance : DecidableEq Json := fun a b => decidable_of_iff (beq a b = true) (beq_iff a b)

/-! ### Reading a value the way Python code does -/

/-- `d.get(k)` on the fields of an object. -/
def field? (fields : List (String × Json)) (k : String) : Option Json :=
  Dict.lookupIn k fields

/-- `not v` -/
def isFalsy : Json → Bool
  | null => true
  | bool b => !b
  | int n => n == 0
  | float lit => decide (float? lit.toList = some (.finite 0))
  | str s => s == ""
  | arr items => items.isEmpty
  | obj fields => fields.isEmpty

/-- Whether the value can be a dictionary key or a set member. -/
def isHashable : Json → Bool
  | arr _ => false
  | obj _ => false
  | _ => true

/-- What `for x in v` walks through; `none` where it raises `TypeError`. -/
def iter? : Json → Option (List Json)
  | arr items => some items
  | obj fields => some (fields.map fun p => str p.1)
  | str s => some (s.toList.map fun c => str (String.singleton c))
  | _ => none

/-! ### Printing -/

/-- The last four hexadecimal digits of a number. -/
def hex4 (n : Nat) : List Char :=
  [(n / 4096 % 16).digitChar, (n / 256 % 16).digitChar, (n / 16 % 16).digitChar,
    (n % 16).digitChar]

/-- One character inside a string literal. -/
def escapeChar (c : Char) : List Char :=
  if c = '"' then ['\\', '"']
  else if c = '\\' then ['\\', '\\']
  else if 32 ≤ c.toNat ∧ c.toNat ≤ 126 then [c]
  else if c = '\n' then ['\\', 'n']
  else if c = '\r' then ['\\', 'r']
  else if c = '\t' then ['\\', 't']
  else if c.toNat = 12 then ['\\', 'f']
  else if c.toNat = 8 then ['\\', 'b']
  else if c.toNat < 0x10000 then '\\' :: 'u' :: hex4 c.toNat
  else
    '\\' :: 'u' :: hex4 (0xd800 + (c.toNat - 0x10000) / 0x400)
      ++ '\\' :: 'u' :: hex4 (0xdc00 + (c.toNat - 0x10000) % 0x400)

/-- A string literal. -/
def quote (s : String) : List Char := '"' :: s.toList.flatMap escapeChar ++ ['"']

mutual

/-- `json.dumps(v, separators=(",", ":"))` -/
def print : Json → List Char
  | null => ['n', 'u', 'l', 'l']
  | bool true => ['t', 'r', 'u', 'e']
  | bool false => ['f', 'a', 'l', 's', 'e']
  | int n => intText n
  | float lit => lit.toList
  | str s => quote s
  | arr items => '[' :: printItems items ++ [']']
  | obj fields => '{' :: printFields fields ++ ['}']

/-- The items of an array, separated by commas. -/
def printItems : List Json → List Char
  | [] => []
  | v :: rest => print v ++ printMoreItems rest

/-- The items of an array after the first. -/
def printMoreItems : List Json → List Char
  | [] => []
  | v :: rest => ',' :: print v ++ printMoreItems rest

/-- The fields of an object, separated by commas. -/
def printFields : List (String × Json) → List Char
  | [] => []
  | (k, v) :: rest => quote k ++ ':' :: print v ++ printMoreFields rest

/-- The fields of an object after the first. -/
def printMoreFields : List (String × Json) → List Char
  | [] => []
  | (k, v) :: rest => ',' :: quote k ++ ':' :: print v ++ printMoreFields rest

end

mutual

/-- Every integer is short enough for `str`. -/
def intsFit : Json → Bool
  | int n => strFits n
  | arr items => itemsFit items
  | obj fields => fieldsFit fields
  | _ => true

/-- `intsFit` on the items of an array. -/
def itemsFit : List Json → Bool
  | [] => true
  | v :: rest => intsFit v && itemsFit rest

/-- `intsFit` on the fields of an object. -/
def fieldsFit : List (String × Json) → Bool
  | [] => true
  | (_, v) :: rest => intsFit v && fieldsFit rest

end

/-- `json.dumps` in full: `none` where printing an integer raises `ValueError`. -/
def dumps (v : Json) : Option (List Char) := if v.intsFit then some v.print else none

/-! ### Printing with sorted keys -/

/-- Insert a field into a list sorted by key. -/
def insertField (k : String) (v : Json) : List (String × Json) → List (String × Json)
  | [] => [(k, v)]
  | (l, w) :: rest => if k ≤ l then (k, v) :: (l, w) :: rest else (l, w) :: insertField k v rest

mutual

/-- The value with the fields of every object in key order. -/
def sortKeys : Json → Json
  | arr items => arr (sortItems items)
  | obj fields => obj (sortFields fields)
  | v => v

/-- `sortKeys` on the items of an array. -/
def sortItems : List Json → List Json
  | [] => []
  | v :: rest => sortKeys v :: sortItems rest

/-- `sortKeys` on the fields of an object. -/
def sortFields : List (String × Json) → List (String × Json)
  | [] => []
  | (k, v) :: rest => insertField k (sortKeys v) (sortFields rest)

end

example : print (obj [("a", int (-3)), ("b", arr [null, str "q\"é"])]) =
    "\x7b\"a\":-3,\"b\":[null,\"q\\\"\\u00e9\"]\x7d".toList := by decide

end Json

end Py
