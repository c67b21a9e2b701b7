/-
Choosing among what is offered by ranges with weights.

A range matches some of the things offered.  What a thing is worth is said by the most specific
ranges that match it, and by the highest weight among these.

The usual shortcut puts the ranges into the order of their weights and takes the first thing that
the first range that counts matches.  It goes wrong in two ways: it never looks for a more specific
range, and the weights it sorts by may be coarser than those that say what a thing is worth.  So a
range is kept apart here from what the shortcut sees of it, and the order it is tried in is any
order of these views.  What decides the outcome is one range, and the choice is the best one
exactly if that range is neither overruled nor outdone.
-/
import Mathlib.Data.List.MinMax
import Mathlib.Data.List.Sort

namespace Negotiate

variable {R T Q : Type} [LinearOrder Q]

/-! ### Sorting by weight -/

/-- The ranges with the higher weights first, those of one weight as they were. -/
def byWeight (q : R → Q) (rs : List R) : List R := rs.insertionSort fun a b => q b ≤ q a

section

variable {q : R → Q}

instance total_quality : Std.Total fun a b : R => q b ≤ q a := ⟨fun a b => le_total (q b) (q a)⟩

instance isTrans_quality : IsTrans R fun a b => q b ≤ q a := ⟨fun _ _ _ hab hbc => le_trans hbc hab⟩

theorem mem_byWeight {rs : List R} {r : R} : r ∈ byWeight q rs ↔ r ∈ rs :=
  List.mem_insertionSort _

/-- Ranges of one weight keep their order. -/
theorem filter_byWeight {p : R → Bool} {w : Q} (h : ∀ r, p r = true → q r = w) (rs : List R) :
    (byWeight q rs).filter p = rs.filter p := by
  have hpairwise : (rs.filter p).Pairwise fun a b => q b ≤ q a := by
    refine List.pairwise_of_forall_mem_list fun a ha b hb => ?_
    rw [h a (List.mem_filter.mp ha).2, h b (List.mem_filter.mp hb).2]
  have hsub : (rs.filter p).Sublist (byWeight q rs) :=
    List.sublist_insertionSort hpairwise List.filter_sublist
  have hkept := hsub.filter p
  rw [List.filter_filter] at hkept
  simp only [Bool.and_self] at hkept
  refine (hkept.eq_of_length ?_).symm
  exact (((List.perm_insertionSort _ rs).filter p).length_eq).symm

/-- **The first of the sorted ranges** is the first of those with the highest weight. -/
theorem find?_byWeight {p : R → Bool} {rs : List R} {r : R} (h : (byWeight q rs).find? p = some r) :
    (∀ r' ∈ rs, p r' = true → q r' ≤ q r) ∧
      rs.find? (fun r' => p r' && decide (q r' = q r)) = some r := by
  obtain ⟨hp, pre, post, hsplit, hpre⟩ := List.find?_eq_some_iff_append.mp h
  have hsorted : (byWeight q rs).Pairwise fun a b => q b ≤ q a := List.pairwise_insertionSort _ rs
  have hbound : ∀ r' ∈ rs, p r' = true → q r' ≤ q r := by
    intro r' hr' hp'
    have hmem := mem_byWeight (q := q).mpr hr'
    rw [hsplit, List.mem_append, List.mem_cons] at hmem
    rcases hmem with hmem | rfl | hmem
    · have hnot := hpre r' hmem
      rw [hp'] at hnot
      cases hnot
    · exact le_refl _
    · rw [hsplit] at hsorted
      exact (List.pairwise_cons.mp (List.pairwise_append.mp hsorted).2.1).1 r' hmem
  refine ⟨hbound, ?_⟩
  have hsame := filter_byWeight (q := q) (p := fun r' => p r' && decide (q r' = q r)) (w := q r)
    (fun r' hr' => of_decide_eq_true (Bool.and_eq_true_iff.mp hr').2) rs
  rw [← List.head?_filter, ← hsame, List.head?_filter, List.find?_eq_some_iff_append]
  refine ⟨by simp [hp], pre, post, hsplit, fun x hx => ?_⟩
  rw [Bool.not_eq_true', Bool.and_eq_false_iff]
  exact .inl (by simpa using hpre x hx)

end

/-! ### What a thing is worth -/

variable [Zero Q] (matched : R → T → Bool) (specificity : R → Nat) (q : R → Q)

/-- The ranges that match a thing, and that no range is more specific than. -/
def decisive (rs : List R) (t : T) : List R :=
  (rs.filter fun r => matched r t).filter fun r =>
    decide (∀ r' ∈ rs, matched r' t = true → specificity r' ≤ specificity r)

/-- The highest weight of a decisive range, and 0 if nothing matches. -/
def quality (rs : List R) (t : T) : Q :=
  ((decisive matched specificity rs t).map q).maximum.unbotD 0

/-- What a choice should be: something of the highest quality, and nothing if all is worthless. -/
structure BestChoice (rs : List R) (ts : List T) (choice : Option T) : Prop where
  none_iff : choice = none ↔ ∀ t ∈ ts, quality matched specificity q rs t ≤ 0
  best : ∀ t, choice = some t → t ∈ ts ∧
    ∀ t' ∈ ts, quality matched specificity q rs t' ≤ quality matched specificity q rs t

variable {matched specificity q} {rs : List R} {ts : List T} {t : T}

theorem mem_decisive {r : R} : r ∈ decisive matched specificity rs t ↔
    r ∈ rs ∧ matched r t = true ∧ ∀ r' ∈ rs, matched r' t = true → specificity r' ≤ specificity r := by
  unfold decisive
  rw [List.mem_filter, List.mem_filter, decide_eq_true_iff, and_assoc]

theorem quality_le {b : Q} (h0 : 0 ≤ b) (h : ∀ r ∈ rs, matched r t = true → q r ≤ b) :
    quality matched specificity q rs t ≤ b := by
  unfold quality
  cases hmax : ((decisive matched specificity rs t).map q).maximum with
  | bot => exact h0
  | coe w =>
      obtain ⟨r, hr, rfl⟩ := List.mem_map.mp (List.maximum_mem hmax)
      exact h r (mem_decisive.mp hr).1 (mem_decisive.mp hr).2.1

theorem le_quality {r : R} (hr : r ∈ decisive matched specificity rs t) :
    q r ≤ quality matched specificity q rs t := by
  have hmem : q r ∈ (decisive matched specificity rs t).map q := List.mem_map_of_mem hr
  unfold quality
  cases hmax : ((decisive matched specificity rs t).map q).maximum with
  | bot =>
      rw [List.maximum_eq_bot.mp hmax] at hmem
      cases hmem
  | coe w => exact List.le_maximum_of_mem hmem hmax

/-! ### The shortcut

The shortcut works on a view of the ranges.  `counts` says which it does not skip.
-/

variable {V : Type} {seen : V → T → Bool} {counts : V → Bool} {tried : List V}

variable (seen counts) in
/-- The first of the ranges tried that counts and matches something. -/
def deciding (tried : List V) (ts : List T) : Option V :=
  tried.find? fun v => counts v && ts.any (seen v)

variable (seen counts) in
/-- The first thing matched by the range that decides. -/
def firstMatched (tried : List V) (ts : List T) : Option T :=
  (deciding seen counts tried ts).bind fun v => ts.find? (seen v)

theorem firstMatched_cons_of_not {v : V} (h : counts v = false) :
    firstMatched seen counts (v :: tried) ts = firstMatched seen counts tried ts := by
  unfold firstMatched deciding
  rw [List.find?_cons, h, Bool.false_and]

theorem firstMatched_cons_of_none {v : V} (h : ts.find? (seen v) = none) :
    firstMatched seen counts (v :: tried) ts = firstMatched seen counts tried ts := by
  have hany : ts.any (seen v) = false := List.any_eq_false.mpr (List.find?_eq_none.mp h)
  unfold firstMatched deciding
  rw [List.find?_cons, hany, Bool.and_false]

theorem firstMatched_cons_of_some {v : V} (hcounts : counts v = true)
    (h : ts.find? (seen v) = some t) : firstMatched seen counts (v :: tried) ts = some t := by
  have hany : ts.any (seen v) = true :=
    List.any_eq_true.mpr ⟨t, List.mem_of_find?_eq_some h, List.find?_some h⟩
  unfold firstMatched deciding
  rw [List.find?_cons, hany, hcounts]
  exact h

theorem find?_isSome_of_any {p : T → Bool} (h : ts.any p = true) : ∃ t, ts.find? p = some t := by
  obtain ⟨t, ht, hp⟩ := List.any_eq_true.mp h
  exact Option.isSome_iff_exists.mp (List.find?_isSome.mpr ⟨t, ht, hp⟩)

variable (matched specificity q) in
/-- The range settles what `t` is worth, and no other thing is worth more. -/
structure Unrivalled (rs : List R) (ts : List T) (r : R) (t : T) : Prop where
  mem : r ∈ rs
  covered : matched r t = true
  positive : 0 < q r
  highest : ∀ r' ∈ rs, ts.any (matched r') = true → q r' ≤ q r
  specific : ∀ r' ∈ rs, matched r' t = true → specificity r' ≤ specificity r

theorem Unrivalled.best {r : R} (h : Unrivalled matched specificity q rs ts r t) :
    0 < quality matched specificity q rs t ∧
      ∀ t' ∈ ts, quality matched specificity q rs t' ≤ quality matched specificity q rs t := by
  have hle : q r ≤ quality matched specificity q rs t :=
    le_quality (mem_decisive.mpr ⟨h.mem, h.covered, h.specific⟩)
  refine ⟨lt_of_lt_of_le h.positive hle, fun t' ht' => le_trans ?_ hle⟩
  exact quality_le (le_of_lt h.positive) fun r' hr' hmatched =>
    h.highest r' hr' (List.any_eq_true.mpr ⟨t', ht', hmatched⟩)

/-- **The shortcut makes the best choice** exactly if the thing it takes is worth something and no
less than the others, as it is if the range that decides is unrivalled, and if nothing is worth
anything where no range decides. -/
theorem bestChoice_firstMatched_iff (view : R → V) :
    BestChoice matched specificity q rs ts (firstMatched seen counts tried ts) ↔
      (deciding seen counts tried ts = none → ∀ t ∈ ts, quality matched specificity q rs t ≤ 0) ∧
      ∀ v t, deciding seen counts tried ts = some v → ts.find? (seen v) = some t →
        (∃ r, view r = v ∧ Unrivalled matched specificity q rs ts r t) ∨
        (0 < quality matched specificity q rs t ∧
          ∀ t' ∈ ts, quality matched specificity q rs t' ≤ quality matched specificity q rs t) := by
  unfold firstMatched
  constructor
  · intro h
    refine ⟨fun hnone => ?_, fun v t hv ht => .inr ?_⟩
    · rw [hnone] at h
      exact h.none_iff.mp rfl
    · rw [hv, Option.bind_some, ht] at h
      refine ⟨not_le.mp fun hle => ?_, (h.best t rfl).2⟩
      have hnone := h.none_iff.mpr fun t' ht' => le_trans ((h.best t rfl).2 t' ht') hle
      cases hnone
  · intro ⟨hnone, hsome⟩
    cases hdeciding : deciding seen counts tried ts with
    | none => exact ⟨⟨fun _ => hnone hdeciding, fun _ => rfl⟩, nofun⟩
    | some v =>
        have hany := List.find?_some hdeciding
        rw [Bool.and_eq_true] at hany
        obtain ⟨t, ht⟩ := find?_isSome_of_any hany.2
        have hts := List.mem_of_find?_eq_some ht
        have hbest : 0 < quality matched specificity q rs t ∧
            ∀ t' ∈ ts, quality matched specificity q rs t' ≤ quality matched specificity q rs t := by
          rcases hsome v t hdeciding ht with ⟨r, -, hr⟩ | hbest
          · exact hr.best
          · exact hbest
        rw [Option.bind_some, ht]
        refine ⟨⟨nofun, fun hall => absurd (hall t hts) (not_le.mpr hbest.1)⟩, fun t' ht' => ?_⟩
        injection ht' with ht'
        rw [← ht']
        exact ⟨hts, hbest.2⟩

/-! ### Ranges in the order of their weights

Where the ranges are tried in the order of their weights, what decides can be told from the ranges
as they stand.
-/

variable (matched q) in
/-- The first of the ranges with the highest weight that match something, if that is positive. -/
structure Preferred (rs : List R) (ts : List T) (r : R) : Prop where
  positive : 0 < q r
  highest : ∀ r' ∈ rs, ts.any (matched r') = true → q r' ≤ q r
  earliest : rs.find? (fun r' => ts.any (matched r') && decide (q r' = q r)) = some r

theorem preferred_of_find? {r : R}
    (h : (byWeight q rs).find? (fun r => decide (0 < q r) && ts.any (matched r)) = some r) :
    Preferred matched q rs ts r := by
  have hp := List.find?_some h
  rw [Bool.and_eq_true, decide_eq_true_iff] at hp
  obtain ⟨hhighest, hearliest⟩ := find?_byWeight h
  refine ⟨hp.1, fun r' hr' hany => ?_, ?_⟩
  · by_cases hpos : 0 < q r'
    · exact hhighest r' hr' (by rw [decide_eq_true hpos, hany]; rfl)
    · exact le_trans (not_lt.mp hpos) (le_of_lt hp.1)
  · rw [← hearliest]
    congr 1
    funext r'
    by_cases heq : q r' = q r
    · rw [heq, decide_eq_true hp.1, Bool.true_and]
    · rw [decide_eq_false heq, Bool.and_false, Bool.and_false]

/-- There is one preferred range at most. -/
theorem Preferred.unique {r r' : R} (h : Preferred matched q rs ts r)
    (h' : Preferred matched q rs ts r') : r = r' := by
  have hmem := List.mem_of_find?_eq_some h.earliest
  have hmem' := List.mem_of_find?_eq_some h'.earliest
  have hany := List.find?_some h.earliest
  have hany' := List.find?_some h'.earliest
  rw [Bool.and_eq_true] at hany hany'
  have heq : q r = q r' := le_antisymm (h'.highest r hmem hany.1) (h.highest r' hmem' hany'.1)
  have hfind := h.earliest
  rw [heq, h'.earliest] at hfind
  injection hfind with hfind
  exact hfind.symm

/-- **The preferred range decides.** -/
theorem deciding_byWeight {r : R} :
    deciding matched (fun r => decide (0 < q r)) (byWeight q rs) ts = some r ↔
      Preferred matched q rs ts r := by
  refine ⟨preferred_of_find?, fun h => ?_⟩
  have hmem := List.mem_of_find?_eq_some h.earliest
  have hany := List.find?_some h.earliest
  rw [Bool.and_eq_true] at hany
  unfold deciding
  cases hfind : (byWeight q rs).find? fun r => decide (0 < q r) && ts.any (matched r) with
  | none =>
      have hnone := List.find?_eq_none.mp hfind r (mem_byWeight.mpr hmem)
      rw [decide_eq_true h.positive, hany.1] at hnone
      exact absurd rfl hnone
  | some r' => rw [h.unique (preferred_of_find? hfind)]

end Negotiate
