/-
Calls to the upstream client (`upstream.py`), and the requests handlers answer.

A handler is a program whose only operation is `UpstreamClient.call`.  What a call
comes back with, a result or an exception, is the reply of that operation.
-/
import ExecRestApi.Lib.Prog
import ExecRestApi.Model.Errors

namespace ExecRestApi

open Py Interaction

/-- One call of `UpstreamClient.call`. -/
structure RpcCall where
  method : String
  params : List Json
  deriving DecidableEq

/-- How a call ends. -/
abbrev Reply := Except Exc Json

/-- A request handler. -/
abbrev Handler := Prog RpcCall Reply Exc

/-- What a handler exchanged with the upstream. -/
abbrev Trace := List (RpcCall × Reply)

/-- `await upstream.call(method, params)` -/
def call (method : String) (params : List Json) : Handler Json :=
  .ask ⟨method, params⟩ Prog.ofExcept

theorem runs_call {method : String} {params : List Json} {tr : Trace} {v : Json} :
    Prog.Runs (call method params) tr (.ok v) ↔ tr = [(⟨method, params⟩, .ok v)] := by
  simp only [call, Prog.runs_ask, Prog.runs_ofExcept]
  constructor
  · rintro ⟨r, rest, rfl, rfl, rfl⟩
    rfl
  · rintro rfl
    exact ⟨_, _, rfl, rfl, rfl⟩

/-- The parts of a request that handlers read.  `body` is what `request.json()` returns or
raises. -/
structure Request where
  path : String
  query : List (String × String)
  body : Except Exc Json := .error .valueError
  matchInfo : List (String × String) := []

/-- `request.query.get(name)` -/
def Request.queryGet (r : Request) (name : String) : Option String := Dict.lookupIn name r.query

/-- `request.match_info[name]`, which the router has filled in. -/
def Request.matched (r : Request) (name : String) : String :=
  (Dict.lookupIn name r.matchInfo).getD ""

end ExecRestApi
