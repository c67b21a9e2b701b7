/-
Reading an ordered list page by page, while the list changes.

Every entry has a place in a linear order, and a list is read in the order of places.
A page starts after a resume point and stops at one of its entries, whose place is
the next resume point.  Between two pages the list may change, as long as what lies
up to the resume point stays as it was.  However the pages were cut, and however the
list changed past each resume point, the pages of a finished read put together are
the list as it was last seen.
-/
import Mathlib.Data.List.Basic
import Mathlib.Order.Lattice

namespace Scan

variable {α P : Type} [LinearOrder P] (place : α → P)

/-- The entries come in the strict order of their places. -/
def Ordered (l : List α) : Prop := l.Pairwise fun x y => place x < place y

/-- The entries up to a point. -/
def upTo (p : P) (l : List α) : List α := l.filter fun x => place x ≤ p

/-- The entries past a point. -/
def past (p : P) (l : List α) : List α := l.filter fun x => p < place x

variable {place}

theorem Ordered.filter {l : List α} (h : Ordered place l) (q : α → Bool) :
    Ordered place (l.filter q) :=
  List.Pairwise.filter q h

/-- Filtering an ordered list below and above a point gives it in two pieces. -/
theorem Ordered.filter_append {l : List α} (h : Ordered place l) (p : P) (q : α → Bool) :
    (l.filter fun x => q x && decide (place x ≤ p))
      ++ (l.filter fun x => q x && decide (p < place x)) = l.filter q := by
  induction l with
  | nil => rfl
  | cons x rest ih =>
      obtain ⟨hx, hrest⟩ := List.pairwise_cons.mp h
      by_cases hle : place x ≤ p
      · have hnot : ¬ p < place x := not_lt.mpr hle
        by_cases hq : q x = true <;> simp [hq, hle, hnot, ih hrest]
      · have hlt : p < place x := lt_of_not_ge hle
        -- from here on everything is past the point
        have hnone : (rest.filter fun y => q y && decide (place y ≤ p)) = [] := by
          refine List.filter_eq_nil_iff.mpr fun y hy => ?_
          have := lt_trans hlt (hx y hy)
          simp [not_le.mpr this]
        have hall : (rest.filter fun y => q y && decide (p < place y)) = rest.filter q := by
          refine List.filter_congr fun y hy => ?_
          simp [lt_trans hlt (hx y hy)]
        by_cases hq : q x = true <;> simp [hq, hle, hlt, hnone, hall]

theorem Ordered.upTo_append_past {l : List α} (h : Ordered place l) (p : P) :
    upTo place p l ++ past place p l = l := by
  simpa [upTo, past] using h.filter_append p fun _ => true

/-- Stopping at an entry past the resume point: what has been read is what lies up to it. -/
theorem Ordered.upTo_of_past_eq {l xs ys : List α} {x : α} {p : P} (h : Ordered place l)
    (hcut : past place p l = xs ++ x :: ys) :
    upTo place (place x) l = upTo place p l ++ (xs ++ [x]) := by
  have hl : l = upTo place p l ++ (xs ++ x :: ys) := by rw [← hcut, h.upTo_append_past]
  have hx : p < place x := by
    have hmem : x ∈ past place p l := by rw [hcut]; simp
    simpa using (List.mem_filter.mp hmem).2
  have hbefore : ∀ y ∈ upTo place p l, place y ≤ place x := by
    intro y hy
    have hyp : place y ≤ p := by simpa using (List.mem_filter.mp hy).2
    exact le_of_lt (lt_of_le_of_lt hyp hx)
  have hpast : Ordered place (xs ++ x :: ys) := by
    rw [← hcut]
    exact h.filter _
  obtain ⟨-, hxys, hxs⟩ := List.pairwise_append.mp hpast
  have hxs' : ∀ y ∈ xs, place y ≤ place x := fun y hy => le_of_lt (hxs y hy x (by simp))
  have hys : ∀ y ∈ ys, ¬ place y ≤ place x :=
    fun y hy => not_le.mpr ((List.pairwise_cons.mp hxys).1 y hy)
  conv_lhs => rw [hl]
  rw [upTo, List.filter_append, List.filter_append, List.filter_cons_of_pos (by simp),
    List.filter_eq_self.mpr (by simpa using hbefore), List.filter_eq_self.mpr (by simpa using hxs'),
    List.filter_eq_nil_iff.mpr (by simpa using hys)]

/-- A read from a resume point, by the pages it gives, to the list it ends on. -/
inductive Reads (place : α → P) : P → List α → List (List α) → List α → Prop
  /-- The rest of the list fits. -/
  | last {p : P} {l : List α} (hl : Ordered place l) :
      Reads place p l [past place p l] l
  /-- The page stops at `x`; the next one finds the list the same up to there. -/
  | next {p : P} {l l' final xs ys : List α} {x : α} {pages : List (List α)}
      (hl : Ordered place l) (hcut : past place p l = xs ++ x :: ys)
      (hsame : upTo place (place x) l' = upTo place (place x) l)
      (hrest : Reads place (place x) l' pages final) :
      Reads place p l ((xs ++ [x]) :: pages) final

/-- **The pages of a read, after what was read before, are the list it ended on.** -/
theorem Reads.flatten {p : P} {l final : List α} {pages : List (List α)}
    (h : Reads place p l pages final) : upTo place p l ++ pages.flatten = final := by
  induction h with
  | last hl => simpa using hl.upTo_append_past _
  | next hl hcut hsame hrest ih =>
      rw [List.flatten_cons, ← List.append_assoc, ← hl.upTo_of_past_eq hcut, ← hsame, ih]

end Scan
