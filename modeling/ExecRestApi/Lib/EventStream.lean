/-
Reading an event stream.

A stream is text in UTF-8.  Its lines end with CR LF, LF or CR; a line is a comment, a field, or
blank, and a blank line dispatches the event that the fields before it have made, if there is any
data.  What is left when the stream ends is discarded.  The type and the data start afresh with
each event, and the id stays.
-/
import Mathlib.Data.List.TakeWhile
import ExecRestApi.Lib.Numeral

namespace EventStream

open Py

/-- An event that is dispatched. -/
structure Event where
  type : List Char
  data : List Char
  lastId : List Char
  deriving DecidableEq

/-- What the fields have made so far, and what was dispatched. -/
structure Buffers where
  type : List Char := []
  data : List Char := []
  lastId : List Char := []
  reconnectionTime : Option Nat := none
  events : List Event := []
  deriving DecidableEq

/-- The value of a field, without one blank in front. -/
def dropBlank : List Char → List Char
  | ' ' :: value => value
  | value => value

/-- A field with its value. -/
def Buffers.field (b : Buffers) (name value : List Char) : Buffers :=
  if name = "event".toList then { b with type := value }
  else if name = "data".toList then { b with data := b.data ++ value ++ ['\n'] }
  else if name = "id".toList then
    if Char.ofNat 0 ∈ value then b else { b with lastId := value }
  else if name = "retry".toList then
    if value ≠ [] ∧ value.all isDecimal then
      { b with reconnectionTime := some (foldDigits 10 0 value) }
    else b
  else b

/-- A blank line. -/
def Buffers.dispatch (b : Buffers) : Buffers :=
  if b.data = [] then { b with type := [] }
  else
    let data := if b.data.getLast? = some '\n' then b.data.dropLast else b.data
    let type := if b.type = [] then "message".toList else b.type
    { b with type := [], data := [], events := b.events ++ [⟨type, data, b.lastId⟩] }

/-- A line without its end. -/
def Buffers.readLine (b : Buffers) (line : List Char) : Buffers :=
  if line = [] then b.dispatch
  else if line.head? = some ':' then b
  else
    let name := line.takeWhile (· != ':')
    b.field name (dropBlank (line.drop (name.length + 1)))

/-- A parser in the middle of a line. -/
structure Parser where
  line : List Char
  /-- the last character was a CR, and an LF belongs to it -/
  afterCr : Bool
  buffers : Buffers
  deriving DecidableEq

/-- A parser at the start of a line. -/
def Buffers.start (b : Buffers) : Parser := ⟨[], false, b⟩

/-- One character. -/
def Parser.read (p : Parser) (c : Char) : Parser :=
  if c = '\n' ∧ p.afterCr = true then ⟨p.line, false, p.buffers⟩
  else if c = '\n' ∨ c = '\r' then ⟨[], decide (c = '\r'), p.buffers.readLine p.line⟩
  else ⟨p.line ++ [c], false, p.buffers⟩

/-- The text of a stream, without a byte order mark. -/
def readText (text : List Char) : Parser :=
  (if text.head? = some (Char.ofNat 0xfeff) then text.tail else text).foldl Parser.read
    (Buffers.start {})

/-- The events of a stream, for bytes that are UTF-8. -/
def events (bytes : ByteArray) : Option (List Event) :=
  bytes.utf8Decode?.map fun text => (readText text.toList).buffers.events

/-- The events of text that is encoded. -/
theorem events_toUTF8 (text : List Char) :
    events (String.ofList text).toUTF8 = some (readText text).buffers.events := by
  unfold events
  rw [String.toUTF8, String.toByteArray_ofList, List.utf8Decode?_utf8Encode]
  rfl

/-! ### Whole lines -/

/-- Text that stays on its line. -/
def OneLine (cs : List Char) : Prop := ∀ c ∈ cs, c ≠ '\n' ∧ c ≠ '\r'

theorem oneLine_iff {cs : List Char} : OneLine cs ↔ '\n' ∉ cs ∧ '\r' ∉ cs := by
  constructor
  · exact fun h => ⟨fun hmem => (h _ hmem).1 rfl, fun hmem => (h _ hmem).2 rfl⟩
  · intro ⟨hlf, hcr⟩ c hc
    exact ⟨fun heq => hlf (by rwa [← heq]), fun heq => hcr (by rwa [← heq])⟩

theorem oneLine_append {xs ys : List Char} : OneLine (xs ++ ys) ↔ OneLine xs ∧ OneLine ys :=
  List.forall_mem_append

theorem foldl_read_oneLine {cs : List Char} (h : OneLine cs) (line : List Char) (b : Buffers) :
    cs.foldl Parser.read ⟨line, false, b⟩ = ⟨line ++ cs, false, b⟩ := by
  induction cs generalizing line with
  | nil => rw [List.append_nil, List.foldl_nil]
  | cons c cs ih =>
      obtain ⟨hc, hcs⟩ := List.forall_mem_cons.mp h
      have hread : Parser.read ⟨line, false, b⟩ c = ⟨line ++ [c], false, b⟩ := by
        unfold Parser.read
        rw [if_neg fun hn => hc.1 hn.1, if_neg fun hn => hn.elim hc.1 hc.2]
      rw [List.foldl_cons, hread, ih hcs, List.append_assoc, List.singleton_append]

/-- **A line is read as a whole.** -/
theorem foldl_read_line {cs : List Char} (h : OneLine cs) (b : Buffers) (rest : List Char) :
    (cs ++ '\n' :: rest).foldl Parser.read b.start = rest.foldl Parser.read (b.readLine cs).start := by
  rw [List.foldl_append, Buffers.start, foldl_read_oneLine h, List.foldl_cons]
  rfl

/-- A field that is written with a blank before its value. -/
theorem readLine_field {name : List Char} (value : List Char) (hne : name ≠ [])
    (hname : ':' ∉ name) (b : Buffers) :
    b.readLine (name ++ ':' :: ' ' :: value) = b.field name value := by
  have hhead : (name ++ ':' :: ' ' :: value).head? ≠ some ':' := by
    cases name with
    | nil => exact absurd rfl hne
    | cons c cs =>
        intro h
        injection h with h
        exact hname (by rw [h]; exact List.mem_cons_self)
  have hcut : (name ++ ':' :: ' ' :: value).takeWhile (· != ':') = name := by
    have hkeep : ∀ c ∈ name, (c != ':') = true := by
      intro c hc
      rw [bne_iff_ne]
      rintro rfl
      exact hname hc
    rw [List.takeWhile_append_of_pos hkeep, List.takeWhile_cons_of_neg (by simp), List.append_nil]
  unfold Buffers.readLine
  rw [if_neg (by simp), if_neg hhead]
  dsimp only
  rw [hcut]
  have hdrop : (name ++ ':' :: ' ' :: value).drop (name.length + 1) = ' ' :: value := by
    rw [← List.drop_drop, List.drop_left]
    rfl
  rw [hdrop]
  rfl

theorem readLine_comment (cs : List Char) (b : Buffers) : b.readLine (':' :: cs) = b := rfl

/-- Without data nothing is dispatched. -/
theorem dispatch_of_no_data {b : Buffers} (h : b.data = []) : b.dispatch = { b with type := [] } :=
  if_pos h

/-- The data of an event loses the break it was given. -/
theorem dispatch_of_data {b : Buffers} {data : List Char} (hdata : b.data = data ++ ['\n'])
    (htype : b.type ≠ []) :
    b.dispatch = { b with type := [], data := [], events := b.events ++ [⟨b.type, data, b.lastId⟩] } := by
  unfold Buffers.dispatch
  rw [if_neg (by rw [hdata]; simp), if_neg htype, if_pos (by rw [hdata]; simp)]
  rw [hdata, List.dropLast_concat]

end EventStream
