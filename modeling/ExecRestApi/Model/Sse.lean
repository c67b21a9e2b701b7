/-
Frames of an event stream (`sse.py`).

A frame is kept apart from its bytes, which `SseFrame.text` renders.
-/
import ExecRestApi.Model.Errors

namespace ExecRestApi

open Py

/-- What the formatters of `sse.py` render. -/
inductive SseFrame where
  /-- `format_retry` -/
  | retry (milliseconds : Int)
  /-- `format_event`, whose data can be printed -/
  | event (name : String) (id : Option String) (data : Json)
  /-- `format_comment` -/
  | comment (text : String)
  deriving DecidableEq

/-- `format_retry`, which prints its number. -/
def formatRetry (milliseconds : Int) : Except Exc SseFrame :=
  if strFits milliseconds then .ok (.retry milliseconds) else .error .valueError

/-- `format_event`, which prints its data. -/
def formatEvent (event : String) (id : Option String) (data : Json) : Except Exc SseFrame :=
  if data.intsFit then .ok (.event event id data) else .error .valueError

/-- A line break is written as a blank. -/
def dropBreaks (text : List Char) : List Char :=
  text.map fun c => if c = '\n' ∨ c = '\r' then ' ' else c

/-- The text of a frame. -/
def SseFrame.text : SseFrame → List Char
  | retry milliseconds => "retry: ".toList ++ intText milliseconds ++ ['\n', '\n']
  | event name id data =>
      "event: ".toList ++ name.toList ++ '\n' ::
        ((match id with
          | none => []
          | some i => "id: ".toList ++ i.toList ++ ['\n']) ++
          "data: ".toList ++ data.print ++ ['\n', '\n'])
  | comment text => ": ".toList ++ dropBreaks text.toList ++ ['\n', '\n']

/-- The bytes of a frame. -/
def SseFrame.bytes (frame : SseFrame) : ByteArray := (String.ofList frame.text).toUTF8

theorem formatEvent_eq_ok {event : String} {id : Option String} {data : Json} {frame : SseFrame} :
    formatEvent event id data = .ok frame ↔ data.intsFit = true ∧ frame = .event event id data := by
  rw [formatEvent]
  by_cases hfit : data.intsFit = true
  · rw [if_pos hfit]
    constructor
    · intro h
      cases h
      exact ⟨hfit, rfl⟩
    · intro ⟨_, h⟩
      rw [h]
  · rw [if_neg hfit]
    constructor
    · intro h
      cases h
    · intro ⟨h, _⟩
      exact absurd h hfit

end ExecRestApi
