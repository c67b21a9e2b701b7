/-
`json.loads` as an automaton.

The decoder reads its input once, left to right, so it is a fold: a state is where
the reader stands plus the containers still open, innermost first.  Running out of
input is the only other thing that can happen, and `finish` says what it means.
Being a fold over the text, the decoder is total with nothing to prove about it.

Three things can go wrong, and the caller can tell them apart: the text is not JSON
(`JSONDecodeError`), an integer literal is too long for `int` (a plain
`ValueError`), or containers are nested too deeply (`RecursionError`).
-/
import ExecRestApi.Lib.Json

namespace Py.Json

/-- How `json.loads` fails. -/
inductive LoadsError where
  /-- `JSONDecodeError` -/
  | decode
  /-- `ValueError` from `int` on too many digits -/
  | digits
  /-- `RecursionError` -/
  | recursion
  deriving DecidableEq, Repr

/-- An open container. -/
inductive Container where
  /-- An array and its items so far, newest first. -/
  | arr (acc : List Json)
  /-- An object, its fields so far, and the key whose value is being read. -/
  | obj (acc : List (String × Json)) (key : Option String)

/-- Where a number literal stands. -/
inductive NumState where
  | minus
  | zero
  | digits
  | dot
  | fraction
  /-- After `e`; `true` when a fraction came before it. -/
  | exponent (frac : Bool)
  | exponentSign (frac : Bool)
  | exponentDigits
  deriving DecidableEq

/-- Where the reader stands. -/
inductive Mode where
  /-- A value has to follow. -/
  | value
  /-- Just after `[`. -/
  | arrFirst
  /-- Just after `{`. -/
  | objFirst
  /-- After a comma inside an object. -/
  | objKey
  /-- A colon has to follow. -/
  | colon
  /-- Inside a string: its characters newest first, and a high surrogate waiting for its pair. -/
  | string (isKey : Bool) (acc : List Char) (high : Option Nat)
  /-- After a backslash. -/
  | escape (isKey : Bool) (acc : List Char) (high : Option Nat)
  /-- Inside `\uXXXX`, with that many digits to go. -/
  | unicode (isKey : Bool) (acc : List Char) (high : Option Nat) (left code : Nat)
  /-- Inside a literal name. -/
  | word (rest : List Char) (v : Json)
  /-- Inside a number, its characters newest first. -/
  | number (st : NumState) (text : List Char)
  /-- A value is complete. -/
  | done (v : Json)

/-- The reader's whole state. -/
structure Reader where
  mode : Mode
  stack : List Container

/-- JSON white space. -/
def isBlank (c : Char) : Bool := c == ' ' || c == '\t' || c == '\n' || c == '\r'

/-- The character for a code unit outside a pair; a lone surrogate becomes U+FFFD. -/
def unitChar (u : Nat) : Char := if h : u.isValidChar then Char.ofNatAux u h else '\ufffd'

/-- The characters so far once a waiting high surrogate is given up. -/
def flush (acc : List Char) : Option Nat → List Char
  | none => acc
  | some _ => '\ufffd' :: acc

/-- The code point a high and a low surrogate stand for. -/
def joinPair (high low : Nat) : Nat := 0x10000 + (high - 0xd800) * 0x400 + (low - 0xdc00)

/-- A `\uXXXX` escape is complete. -/
def pushUnit (isKey : Bool) (acc : List Char) (high : Option Nat) (u : Nat) : Mode :=
  match high with
  | some h =>
      if 0xdc00 ≤ u ∧ u ≤ 0xdfff then
        .string isKey (unitChar (joinPair h u) :: acc) none
      else if 0xd800 ≤ u ∧ u ≤ 0xdbff then .string isKey (flush acc high) (some u)
      else .string isKey (unitChar u :: flush acc high) none
  | none =>
      if 0xd800 ≤ u ∧ u ≤ 0xdbff then .string isKey acc (some u)
      else .string isKey (unitChar u :: acc) none

/-- The character a one-letter escape stands for. -/
def unescape (c : Char) : Option Char :=
  if c = '"' then some '"'
  else if c = '\\' then some '\\'
  else if c = '/' then some '/'
  else if c = 'b' then some (Char.ofNat 8)
  else if c = 'f' then some (Char.ofNat 12)
  else if c = 'n' then some '\n'
  else if c = 'r' then some '\r'
  else if c = 't' then some '\t'
  else none

/-- The number state after one more character, if the character belongs to the number. -/
def NumState.next (st : NumState) (c : Char) : Option NumState :=
  match st with
  | .minus => if c = '0' then some .zero else if isDecimal c then some .digits else none
  | .zero =>
      if c = '.' then some .dot
      else if c = 'e' ∨ c = 'E' then some (.exponent false) else none
  | .digits =>
      if isDecimal c then some .digits
      else if c = '.' then some .dot
      else if c = 'e' ∨ c = 'E' then some (.exponent false) else none
  | .dot => if isDecimal c then some .fraction else none
  | .fraction =>
      if isDecimal c then some .fraction
      else if c = 'e' ∨ c = 'E' then some (.exponent true) else none
  | .exponent frac =>
      if isDecimal c then some .exponentDigits
      else if c = '+' ∨ c = '-' then some (.exponentSign frac) else none
  | .exponentSign _ => if isDecimal c then some .exponentDigits else none
  | .exponentDigits => if isDecimal c then some .exponentDigits else none

/-- The number state after a first character. -/
def NumState.start (c : Char) : Option NumState :=
  if c = '-' then some .minus
  else if c = '0' then some .zero
  else if isDecimal c then some .digits
  else none

/-- The number state after a whole text, if the text is the beginning of a number. -/
def numState : List Char → Option NumState
  | [] => none
  | c :: cs => NumState.start c >>= fun st => cs.foldlM NumState.next st

/-- The literals that are read as floats. -/
def isFloatLit (text : List Char) : Bool :=
  text == ['N', 'a', 'N'] || text == ['I', 'n', 'f', 'i', 'n', 'i', 't', 'y']
    || text == ['-', 'I', 'n', 'f', 'i', 'n', 'i', 't', 'y']
    || numState text == some .fraction || numState text == some .exponentDigits

/-- The sign and the rest of a number literal. -/
def splitMinus (text : List Char) : Bool × List Char :=
  if text.head? = some '-' then (true, text.tail) else (false, text)

/-- The integer at the front of a number literal, as `int` reads it. -/
def readInt (text : List Char) : Except LoadsError Json :=
  let ds := (splitMinus text).2.takeWhile isDecimal
  let n : Int := foldDigits 10 0 ds
  if ds.length ≤ maxStrDigits then .ok (.int (if (splitMinus text).1 then -n else n))
  else .error .digits

/-- A number literal ends here. -/
def endNumber (st : NumState) (text : List Char) : Except LoadsError Json :=
  match st with
  | .minus => .error .decode
  | .zero => readInt text.reverse
  | .digits => readInt text.reverse
  | .fraction => .ok (.float (String.ofList text.reverse))
  | .exponentDigits => .ok (.float (String.ofList text.reverse))
  | .exponent true => .error .decode
  | .exponentSign true => .error .decode
  -- the integer before the stray character is converted first
  | .dot => (readInt text.reverse).bind fun _ => .error .decode
  | .exponent false => (readInt text.reverse).bind fun _ => .error .decode
  | .exponentSign false => (readInt text.reverse).bind fun _ => .error .decode

/-- A string literal ends here. -/
def endString (isKey : Bool) (acc : List Char) (stack : List Container) :
    Except LoadsError Reader :=
  let s := String.ofList acc.reverse
  if isKey then
    match stack with
    | .obj fields _ :: rest => .ok ⟨.colon, .obj fields (some s) :: rest⟩
    | _ => .error .decode
  else .ok ⟨.done (.str s), stack⟩

section

variable (depth : Nat)

/-- The first character of a value. -/
def startValue (stack : List Container) (c : Char) : Except LoadsError Reader :=
  if c = '"' then .ok ⟨.string false [] none, stack⟩
  else if c = '{' then
    if stack.length < depth then .ok ⟨.objFirst, .obj [] none :: stack⟩ else .error .recursion
  else if c = '[' then
    if stack.length < depth then .ok ⟨.arrFirst, .arr [] :: stack⟩ else .error .recursion
  else if c = 'n' then .ok ⟨.word ['u', 'l', 'l'] .null, stack⟩
  else if c = 't' then .ok ⟨.word ['r', 'u', 'e'] (.bool true), stack⟩
  else if c = 'f' then .ok ⟨.word ['a', 'l', 's', 'e'] (.bool false), stack⟩
  else if c = 'N' then .ok ⟨.word ['a', 'N'] (.float "NaN"), stack⟩
  else if c = 'I' then .ok ⟨.word ['n', 'f', 'i', 'n', 'i', 't', 'y'] (.float "Infinity"), stack⟩
  else if c = '-' then .ok ⟨.number .minus ['-'], stack⟩
  else if c = '0' then .ok ⟨.number .zero ['0'], stack⟩
  else if isDecimal c then .ok ⟨.number .digits [c], stack⟩
  else .error .decode

/-- What may follow a complete value. -/
def afterValue (v : Json) (stack : List Container) (c : Char) : Except LoadsError Reader :=
  if isBlank c then .ok ⟨.done v, stack⟩
  else match stack with
    | [] => .error .decode
    | .arr acc :: rest =>
        if c = ',' then .ok ⟨.value, .arr (v :: acc) :: rest⟩
        else if c = ']' then .ok ⟨.done (.arr (v :: acc).reverse), rest⟩
        else .error .decode
    | .obj acc (some k) :: rest =>
        if c = ',' then .ok ⟨.objKey, .obj (Dict.setIn k v acc) none :: rest⟩
        else if c = '}' then .ok ⟨.done (.obj (Dict.setIn k v acc)), rest⟩
        else .error .decode
    | .obj _ none :: _ => .error .decode

/-- One character. -/
def read (r : Reader) (c : Char) : Except LoadsError Reader :=
  match r.mode with
  | .value => if isBlank c then .ok r else startValue depth r.stack c
  | .arrFirst =>
      if isBlank c then .ok r
      else if c = ']' then .ok ⟨.done (.arr []), r.stack.tail⟩
      else startValue depth r.stack c
  | .objFirst =>
      if isBlank c then .ok r
      else if c = '"' then .ok ⟨.string true [] none, r.stack⟩
      else if c = '}' then .ok ⟨.done (.obj []), r.stack.tail⟩
      else .error .decode
  | .objKey =>
      if isBlank c then .ok r
      else if c = '"' then .ok ⟨.string true [] none, r.stack⟩
      else .error .decode
  | .colon =>
      if isBlank c then .ok r
      else if c = ':' then .ok ⟨.value, r.stack⟩
      else .error .decode
  | .string isKey acc high =>
      if c = '"' then endString isKey (flush acc high) r.stack
      else if c = '\\' then .ok ⟨.escape isKey acc high, r.stack⟩
      else if c.toNat < 32 then .error .decode
      else .ok ⟨.string isKey (c :: flush acc high) none, r.stack⟩
  | .escape isKey acc high =>
      if c = 'u' then .ok ⟨.unicode isKey acc high 4 0, r.stack⟩
      else match unescape c with
        | some c' => .ok ⟨.string isKey (c' :: flush acc high) none, r.stack⟩
        | none => .error .decode
  | .unicode isKey acc high left code =>
      match hexVal c with
      | none => .error .decode
      | some d =>
          if left ≤ 1 then .ok ⟨pushUnit isKey acc high (16 * code + d), r.stack⟩
          else .ok ⟨.unicode isKey acc high (left - 1) (16 * code + d), r.stack⟩
  | .word rest v =>
      match rest with
      | [] => .error .decode
      | w :: ws =>
          if c = w then .ok ⟨if ws.isEmpty then .done v else .word ws v, r.stack⟩
          else .error .decode
  | .number st text =>
      if st = .minus ∧ c = 'I' then
        .ok ⟨.word ['n', 'f', 'i', 'n', 'i', 't', 'y'] (.float "-Infinity"), r.stack⟩
      else match st.next c with
        | some st' => .ok ⟨.number st' (c :: text), r.stack⟩
        | none => (endNumber st text).bind fun v => afterValue v r.stack c
  | .done v => afterValue v r.stack c

/-- The reader over a whole text. -/
def readAll (r : Reader) (cs : List Char) : Except LoadsError Reader := cs.foldlM (read depth) r

/-- The end of the input. -/
def finish (r : Reader) : Except LoadsError Json :=
  let close (v : Json) : Except LoadsError Json :=
    if r.stack.isEmpty then .ok v else .error .decode
  match r.mode with
  | .done v => close v
  | .number st text => (endNumber st text).bind close
  | _ => .error .decode

/-- `json.loads(text)` with containers nested at most `depth` deep. -/
def loads (text : List Char) : Except LoadsError Json :=
  (readAll depth ⟨.value, []⟩ text).bind finish

end

example : loads 9 " \x7b\"a\" : [1, -2.5e3, \"\\u00e9\"], \"a\": null\x7d ".toList =
    .ok (.obj [("a", .null)]) := by decide +kernel

end Py.Json
