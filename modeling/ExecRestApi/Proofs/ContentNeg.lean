/-
Which representation is chosen.

The loop over the sorted candidates is the shortcut of `Lib.Negotiation`: it takes the first type
that the candidate with the highest weight matches.  A client that excludes a type and then takes
anything is given the type it has excluded.

What is best is said without the algorithm: `GivesBest` is about the ranges of the header as
they are written and the types on offer.  Where it fails is said as well, and the iff leaves no
header out.
-/
import Mathlib.Data.List.Find
import Mathlib.Data.List.TakeWhile
import ExecRestApi.Lib.Negotiation
import ExecRestApi.Model.ContentNeg

namespace ExecRestApi

open Py Negotiate

/-! ### Ranges

A range covers a type by its two halves, each of which may be `*`.  The decimals of a range are
a quotient of two natural numbers, as the header has them.
-/

/-- A range matches a type. -/
def covers (candidate : String × Flt) (s : String) : Bool :=
  if candidate.1 = "*/*" then true
  else if endsWithSlashStar candidate.1 then decide (typePrefix candidate.1 <+: s.toList)
  else decide (s = candidate.1)

/-- A type is more specific than `type/*`, and that than `*/*`. -/
def specificityOf (candidate : String × Flt) : Nat :=
  if candidate.1 = "*/*" then 0 else if endsWithSlashStar candidate.1 then 1 else 2

/-- What a `q` says: a decimal is taken as it is, and one that is malformed, as `nan` is, for 1.
An infinity is taken for whatever `infinite` says. -/
def decimalOf (infinite : Bool → WithBot (WithTop ℚ)) : Flt → WithBot (WithTop ℚ)
  | .finite x => ((x : WithTop ℚ) : WithBot (WithTop ℚ))
  | .inf negative => infinite negative
  | .nan => 1

/-- The quality of a type: the highest `q` of the most specific ranges that match it. -/
def qualityOf (infinite : Bool → WithBot (WithTop ℚ)) (ranges : List (String × Flt)) (s : String) :
    WithBot (WithTop ℚ) :=
  quality covers specificityOf (fun c => decimalOf infinite c.2) ranges s

theorem matchType_eq (candidate : String × Flt) (supported : List String) (h : supported ≠ []) :
    matchType candidate.1 supported h = supported.find? (covers candidate) := by
  unfold matchType covers
  split_ifs
  · cases supported with
    | nil => exact absurd rfl h
    | cons s rest => rfl
  · rfl
  · rfl

/-! ### The loop

The code compares doubles.  A candidate counts unless its weight is 0 or less, and `nan` is not.
-/

/-- The loop does not skip the candidate. -/
def tried (candidate : String × Flt) : Bool := !candidate.2.nonpos

/-- The loop takes what the first candidate that counts and matches something matches first. -/
theorem firstMatch_eq {supported : List String} (hne : supported ≠ [])
    (candidates : List (String × Flt)) :
    firstMatch supported hne candidates = firstMatched covers tried candidates supported := by
  induction candidates with
  | nil => rfl
  | cons c rest ih =>
      rw [firstMatch]
      cases hpos : c.2.nonpos with
      | true =>
          rw [if_pos rfl, firstMatched_cons_of_not (by rw [tried, hpos]; rfl), ih]
      | false =>
          rw [if_neg Bool.false_ne_true, matchType_eq c]
          cases hfind : supported.find? (covers c) with
          | none =>
              rw [firstMatched_cons_of_none hfind]
              exact ih
          | some s => rw [firstMatched_cons_of_some (by rw [tried, hpos]; rfl) hfind]

/-- The weight of a candidate, to the code. -/
def weight (candidate : String × Flt) : WithBot (WithTop ℚ) := candidate.2.rank

theorem sortCandidates_eq {candidates : List (String × Flt)} (h : Numeric candidates) :
    sortCandidates candidates = byWeight weight candidates := by
  have hmap := List.map_insertionSort (fun a b : String × Flt => ¬ b.2.neg.lt a.2.neg = true)
    (fun a b => weight b ≤ weight a) id candidates fun a ha b hb => by
      rw [Flt.lt_neg_iff (h b hb) (h a ha), not_lt]
      rfl
  rwa [List.map_id, List.map_id] at hmap

/-- The candidate that decides: the first of those with the highest positive weight that match a
supported type.  With a `nan` among the weights it is the first one that the order tried in comes
to, whatever that order is. -/
def Decides (sort : List (String × Flt) → List (String × Flt)) (candidates : List (String × Flt))
    (supported : List String) (c : String × Flt) : Prop :=
  (Numeric candidates → Preferred covers weight candidates supported c) ∧
    (¬ Numeric candidates → deciding covers tried (sort candidates) supported = some c)

theorem deciding_iff {sort : List (String × Flt) → List (String × Flt)} (hsort : SortsByQ sort)
    {candidates : List (String × Flt)} {supported : List String} {c : String × Flt} :
    deciding covers tried (sort candidates) supported = some c ↔
      Decides sort candidates supported c := by
  by_cases hnumeric : Numeric candidates
  · have hsame : deciding covers tried (sort candidates) supported
        = deciding covers (fun c => decide (0 < weight c)) (byWeight weight candidates)
            supported := by
      rw [hsort.stable candidates hnumeric, sortCandidates_eq hnumeric]
      refine List.find?_congr fun c hc => ?_
      have hc := hnumeric c (mem_byWeight.mp hc)
      congr 1
      rw [tried, Bool.eq_iff_iff, Bool.not_eq_true', ← Bool.not_eq_true, Flt.nonpos_iff hc,
        decide_eq_true_iff]
      exact not_le
    rw [hsame, deciding_byWeight]
    exact ⟨fun h => ⟨fun _ => h, fun hnot => absurd hnumeric hnot⟩, fun h => h.1 hnumeric⟩
  · exact ⟨fun h => ⟨fun hnum => absurd hnum hnumeric, fun _ => h⟩, fun h => h.2 hnumeric⟩

/-! ### The header

A reader that does not round sees the same ranges, with the decimals as they are written.
-/

section

variable (lower : String → String) (float : List Char → Option Flt)

theorem readRange_of_blank {raw : List Char} (h : strip raw = []) :
    readRange lower float raw = none := if_pos h

theorem not_mem_of_strip_eq_nil {cs : List Char} {c : Char} (h : strip cs = [])
    (hc : isSpace c = false) : c ∉ cs := by
  have hdrop : cs.dropWhile isSpace = [] := by
    have hrev : ((cs.dropWhile isSpace).reverse.dropWhile isSpace) = [] := List.reverse_eq_nil_iff.mp h
    rw [List.dropWhile_eq_nil_iff] at hrev
    cases hcs : cs.dropWhile isSpace with
    | nil => rfl
    | cons d ds =>
        have hd : isSpace d = true := hrev d (by rw [hcs]; simp)
        have hnot := List.head_dropWhile_not isSpace (l := cs) (by rw [hcs]; nofun)
        simp only [hcs, List.head_cons] at hnot
        rw [hd] at hnot
        cases hnot
  intro hmem
  have := List.dropWhile_eq_nil_iff.mp hdrop c hmem
  rw [hc] at this
  cases this

/-- A blank header has no range. -/
theorem parseAccept_of_blank {header : String}
    (h : header = "" ∨ strip header.toList = []) : parseAccept lower float header = [] := by
  have hblank : strip header.toList = [] := by
    rcases h with rfl | h
    · rfl
    · exact h
  unfold parseAccept
  rw [splitOn_of_not_mem (not_mem_of_strip_eq_nil hblank (by decide)), List.filterMap_cons,
    readRange_of_blank lower float hblank]
  rfl

end

section

variable (lower : String → String)

/-- A range as the code has it. -/
def rounded (range : String × Flt) : String × Flt := (range.1, range.2.round)

theorem round_one : (Flt.finite 1).round = .finite 1 := by decide +kernel

theorem readParam_round (q : Flt) (param : List Char) :
    readParam lower float? q.round param = (readParam lower floatLiteral? q param).round := by
  unfold readParam
  split_ifs
  · dsimp only
    split_ifs
    · rw [float?]
      cases floatLiteral? (strip _) with
      | none => exact round_one.symm
      | some x => rfl
    · rfl
  · rfl

theorem foldl_readParam_round (params : List (List Char)) (q : Flt) :
    params.foldl (readParam lower float?) q.round
      = (params.foldl (readParam lower floatLiteral?) q).round := by
  induction params generalizing q with
  | nil => rfl
  | cons param params ih => rw [List.foldl_cons, List.foldl_cons, readParam_round, ih]

theorem readRange_round (raw : List Char) :
    readRange lower float? raw = (readRange lower floatLiteral? raw).map rounded := by
  unfold readRange
  dsimp only
  split_ifs
  · rfl
  · cases (splitOn ';' (strip raw)).map strip with
    | nil => rfl
    | cons mediaType params =>
        dsimp only
        rw [Option.map_some, rounded, ← foldl_readParam_round, round_one]

theorem parseAccept_round (header : String) :
    parseAccept lower float? header = (parseAccept lower floatLiteral? header).map rounded := by
  unfold parseAccept
  rw [List.map_filterMap]
  exact congrArg (fun f => List.filterMap f _) (funext (readRange_round lower))

/-- The ranges of a header, of which a missing one has none. -/
def rangesOf (acceptHeader : Option String) : List (String × Flt) :=
  (acceptHeader.map (parseAccept lower floatLiteral?)).getD []

theorem selectRepresentation_eq (sort : List (String × Flt) → List (String × Flt))
    (acceptHeader : Option String) {supported : List String} (hne : supported ≠ []) :
    selectRepresentation lower sort acceptHeader supported hne =
      if rangesOf lower acceptHeader = [] then some (supported.head hne)
      else firstMatch supported hne (sort ((rangesOf lower acceptHeader).map rounded)) := by
  cases acceptHeader with
  | none => rfl
  | some header =>
      unfold selectRepresentation
      dsimp only
      by_cases hblank : header = "" ∨ strip header.toList = []
      · rw [if_pos hblank]
        exact (if_pos (parseAccept_of_blank lower floatLiteral? hblank)).symm
      · rw [if_neg hblank, parseAccept_round]
        simp only [List.map_eq_nil_iff]
        rfl

/-! ### The best representation

The best choice is one of the decimals of the header.  The code sorts doubles, so two ranges that
differ as decimals may be one weight to it, and a positive weight may be none.
-/

/-- What a client is given: the first supported type if it does not ask for any, and otherwise one
of the highest quality, or nothing if all have quality 0 or less. -/
structure GivesBest (sort : List (String × Flt) → List (String × Flt))
    (infinite : Bool → WithBot (WithTop ℚ)) (acceptHeader : Option String)
    (supported : List String) (hne : supported ≠ []) : Prop where
  unasked : rangesOf lower acceptHeader = [] →
    selectRepresentation lower sort acceptHeader supported hne = some (supported.head hne)
  asked : rangesOf lower acceptHeader ≠ [] →
    BestChoice covers specificityOf (fun c => decimalOf infinite c.2) (rangesOf lower acceptHeader)
      supported (selectRepresentation lower sort acceptHeader supported hne)

/-- The condition for that.  The range that decides is one with the highest decimal, and none that
matches the type it gives is more specific; or the type is worth as much as any other all the same.
Where no range decides, no type is worth anything. -/
structure NotOverruled (sort : List (String × Flt) → List (String × Flt))
    (infinite : Bool → WithBot (WithTop ℚ)) (ranges : List (String × Flt))
    (supported : List String) : Prop where
  undecided : (∀ c, ¬ Decides sort (ranges.map rounded) supported c) →
    ∀ s ∈ supported, qualityOf infinite ranges s ≤ 0
  decided : ∀ c s, Decides sort (ranges.map rounded) supported c →
    supported.find? (covers c) = some s →
    (∃ r, rounded r = c ∧
      Unrivalled covers specificityOf (fun c => decimalOf infinite c.2) ranges supported r s) ∨
    (0 < qualityOf infinite ranges s ∧
      ∀ s' ∈ supported, qualityOf infinite ranges s' ≤ qualityOf infinite ranges s)

theorem notOverruled_iff {sort : List (String × Flt) → List (String × Flt)} (hsort : SortsByQ sort)
    {infinite : Bool → WithBot (WithTop ℚ)} {ranges : List (String × Flt)}
    {supported : List String} : NotOverruled sort infinite ranges supported ↔
      BestChoice covers specificityOf (fun c => decimalOf infinite c.2) ranges supported
        (firstMatched covers tried (sort (ranges.map rounded)) supported) := by
  rw [bestChoice_firstMatched_iff rounded]
  constructor
  · intro h
    refine ⟨fun hnone => h.undecided fun c hc => ?_, fun c s hc hs => ?_⟩
    · rw [(deciding_iff hsort).mpr hc] at hnone
      cases hnone
    · exact h.decided c s ((deciding_iff hsort).mp hc) hs
  · intro ⟨hnone, hsome⟩
    refine ⟨fun hall => hnone ?_, fun c s hc hs => hsome c s ((deciding_iff hsort).mpr hc) hs⟩
    rw [Option.eq_none_iff_forall_ne_some]
    exact fun c hc => hall c ((deciding_iff hsort).mp hc)

end

/-- An infinity is taken for what it is. -/
def plainInfinite (negative : Bool) : WithBot (WithTop ℚ) := if negative then ⊥ else ⊤

/-- Everything but JSON. -/
def anythingButJson : String := "application/json;q=0, */*"

end ExecRestApi
