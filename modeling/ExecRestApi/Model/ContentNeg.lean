/-
The choice of a representation (`content_neg.py`).

The map `lower` is a parameter: whether a type is matched depends on it, and nothing else does.
The sort is one too, since what `list.sort` makes of keys that `<` does not order, with a `nan`
among them, is not documented; `SortsByQ` is what is.  The parser is given what `float` reads, so
that it can be compared with a reader that does not round.
The supported types come with the fact that there is one, where `supported[0]` is read.
-/
import Mathlib.Data.List.Sort
import ExecRestApi.Lib.Double

namespace ExecRestApi

open Py

/-- `CONTENT_TYPE_JSON` -/
def contentTypeJson : String := "application/json"

/-- `CONTENT_TYPE_RLP` -/
def contentTypeRlp : String := "application/vnd.ethereum.rlp"

/-- `endswith("/*")` -/
def endsWithSlashStar (s : String) : Bool := decide (['/', '*'] <:+ s.toList)

/-- `client_type[:-2] + "/"` -/
def typePrefix (clientType : String) : List Char :=
  clientType.toList.take (clientType.toList.length - 2) ++ ['/']

/-- `_match` -/
def matchType (clientType : String) (supported : List String) (h : supported ≠ []) : Option String :=
  if clientType = "*/*" then some (supported.head h)
  else if endsWithSlashStar clientType then
    supported.find? fun s => decide (typePrefix clientType <+: s.toList)
  else supported.find? fun s => decide (s = clientType)

section

variable (lower : String → String) (float : List Char → Option Flt)

/-- A parameter of a range, which may be its `q`. -/
def readParam (q : Flt) (param : List Char) : Flt :=
  if '=' ∈ param then
    let key := param.takeWhile (· != '=')
    let val := param.drop (key.length + 1)
    if lower (String.ofList (strip key)) = "q" then (float (strip val)).getD (.finite 1) else q
  else q

/-- A piece of the header, which is skipped if it is blank. -/
def readRange (raw : List Char) : Option (String × Flt) :=
  let piece := strip raw
  if piece = [] then none
  else match (splitOn ';' piece).map strip with
    | [] => none
    | mediaType :: params =>
        some (lower (String.ofList mediaType), params.foldl (readParam lower float) (.finite 1))

/-- `_parse_accept` -/
def parseAccept (header : String) : List (String × Flt) :=
  (splitOn ',' header.toList).filterMap (readRange lower float)

end

/-- No weight is `nan`. -/
def Numeric (candidates : List (String × Flt)) : Prop := ∀ c ∈ candidates, c.2 ≠ .nan

/-- `sorted(candidates, key=lambda c: -c[1])`, for weights that are numbers -/
def sortCandidates (candidates : List (String × Flt)) : List (String × Flt) :=
  candidates.insertionSort fun a b => ¬ b.2.neg.lt a.2.neg = true

/-- What is documented of `candidates.sort(key=lambda c: -c[1])`. -/
structure SortsByQ (sort : List (String × Flt) → List (String × Flt)) : Prop where
  perm : ∀ candidates, (sort candidates).Perm candidates
  stable : ∀ candidates, Numeric candidates → sort candidates = sortCandidates candidates

theorem sortsByQ_sortCandidates : SortsByQ sortCandidates :=
  ⟨fun candidates => List.perm_insertionSort _ candidates, fun _ _ => rfl⟩

/-- The loop over the sorted candidates. -/
def firstMatch (supported : List String) (h : supported ≠ []) : List (String × Flt) → Option String
  | [] => none
  | (mediaType, q) :: rest =>
      if q.nonpos then firstMatch supported h rest
      else match matchType mediaType supported h with
        | some s => some s
        | none => firstMatch supported h rest

/-- `select_representation` -/
def selectRepresentation (lower : String → String)
    (sort : List (String × Flt) → List (String × Flt)) (acceptHeader : Option String)
    (supported : List String) (h : supported ≠ []) : Option String :=
  match acceptHeader with
  | none => some (supported.head h)
  | some header =>
      if header = "" ∨ strip header.toList = [] then some (supported.head h)
      else
        let candidates := parseAccept lower float? header
        if candidates = [] then some (supported.head h)
        else firstMatch supported h (sort candidates)

end ExecRestApi
