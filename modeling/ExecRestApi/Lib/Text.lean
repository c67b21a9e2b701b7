/-
Small pieces of `str`.

`lower` is exact on ASCII and on the two other characters whose lower case contains
an ASCII letter.  No comparison with a fixed text depends on the rest, and where keys of
any text are put in lower case nothing is used about the map.
-/
import Mathlib.Data.List.Infix
import ExecRestApi.Lib.Numeral

namespace Py

/-- The lower case of one character. -/
def lowerChar (c : Char) : List Char :=
  if 65 ≤ c.toNat ∧ c.toNat ≤ 90 then [Char.ofNat (c.toNat + 32)]
  else if c.toNat = 0x130 then ['i', Char.ofNat 0x307]
  else if c.toNat = 0x212a then ['k']
  else [c]

/-- `s.lower()` -/
def lower (s : String) : String := String.ofList (s.toList.flatMap lowerChar)

theorem toNat_ofNat {n : Nat} (h : n < 0x80) : (Char.ofNat n).toNat = n := by
  revert n
  decide

theorem lowerChar_lowerChar {c d : Char} (h : d ∈ lowerChar c) : lowerChar d = [d] := by
  unfold lowerChar at h
  split_ifs at h with h₁ h₂ h₃
  · rw [List.mem_singleton.mp h]
    have hn : (Char.ofNat (c.toNat + 32)).toNat = c.toNat + 32 :=
      toNat_ofNat (by omega)
    unfold lowerChar
    rw [hn, if_neg (by omega), if_neg (by omega), if_neg (by omega)]
  · rcases List.mem_cons.mp h with rfl | h
    · decide
    · rw [List.mem_singleton.mp h]
      decide
  · rw [List.mem_singleton.mp h]
    decide
  · rw [List.mem_singleton.mp h]
    unfold lowerChar
    rw [if_neg h₁, if_neg h₂, if_neg h₃]

theorem lower_lower (s : String) : lower (lower s) = lower s := by
  have hflat : ∀ cs : List Char,
      (cs.flatMap lowerChar).flatMap lowerChar = cs.flatMap lowerChar := by
    intro cs
    induction cs with
    | nil => rfl
    | cons c cs ih =>
        have hc : (lowerChar c).flatMap lowerChar = lowerChar c := by
          rw [List.flatMap_congr fun d hd => lowerChar_lowerChar hd]
          simp
        rw [List.flatMap_cons, List.flatMap_append, hc, ih]
  rw [lower, lower, String.toList_ofList, hflat]

/-- `pat in s` -/
def contains (s pat : String) : Bool := decide (pat.toList <:+: s.toList)

/-- `s.replace(c, text)` on one character. -/
def replace (c : Char) (text cs : List Char) : List Char :=
  cs.flatMap fun x => if x = c then text else [x]

/-- `s.split(sep)` on one character. -/
def splitOn (sep : Char) : List Char → List (List Char)
  | [] => [[]]
  | c :: cs =>
      if c = sep then [] :: splitOn sep cs
      else match splitOn sep cs with
        | [] => [[c]]
        | piece :: pieces => (c :: piece) :: pieces

theorem splitOn_of_not_mem {sep : Char} {cs : List Char} (h : sep ∉ cs) : splitOn sep cs = [cs] := by
  induction cs with
  | nil => rfl
  | cons c cs ih =>
      rw [List.mem_cons, not_or] at h
      rw [splitOn, if_neg fun heq => h.1 heq.symm, ih h.2]

theorem splitOn_append {sep : Char} {cs : List Char} (h : sep ∉ cs) (rest : List Char) :
    splitOn sep (cs ++ sep :: rest) = cs :: splitOn sep rest := by
  induction cs with
  | nil => rw [List.nil_append, splitOn, if_pos rfl]
  | cons c cs ih =>
      rw [List.mem_cons, not_or] at h
      rw [List.cons_append, splitOn, if_neg fun heq => h.1 heq.symm, ih h.2]

/-- What is joined with a separator is split into its pieces again. -/
theorem splitOn_intercalate {sep : Char} {pieces : List (List Char)} (hne : pieces ≠ [])
    (h : ∀ cs ∈ pieces, sep ∉ cs) : splitOn sep ([sep].intercalate pieces) = pieces := by
  induction pieces with
  | nil => exact absurd rfl hne
  | cons cs rest ih =>
      have hcs := h cs List.mem_cons_self
      cases rest with
      | nil => rw [List.intercalate_singleton, splitOn_of_not_mem hcs]
      | cons cs' rest =>
          rw [List.intercalate_cons_cons, List.append_assoc, List.singleton_append,
            splitOn_append hcs, ih (by nofun) fun x hx => h x (List.mem_cons_of_mem _ hx)]

/-- Where there are no blanks there is nothing to strip off. -/
theorem stripBy_of_none {blank : Char → Bool} {cs : List Char} (h : ∀ c ∈ cs, blank c = false) :
    stripBy blank cs = cs := by
  have hkeep : ∀ l : List Char, (∀ c ∈ l, blank c = false) → l.dropWhile blank = l := by
    intro l hl
    cases l with
    | nil => rfl
    | cons c rest =>
        rw [List.dropWhile_cons_of_neg]
        rw [hl c List.mem_cons_self]
        nofun
  rw [stripBy, hkeep cs h, hkeep cs.reverse (fun c hc => h c (List.mem_reverse.mp hc)),
    List.reverse_reverse]

theorem strip_of_no_space {cs : List Char} (h : ∀ c ∈ cs, isSpace c = false) : strip cs = cs :=
  stripBy_of_none h

theorem isNumberSpace_of_isSpace {c : Char} (h : isSpace c = false) : isNumberSpace c = false := by
  rw [isNumberSpace, h, Bool.false_and]

/-- `0x` and the minimal lower-case hexadecimal digits of a number. -/
def toHex (n : Nat) : String := String.ofList ('0' :: 'x' :: Nat.toDigits 16 n)

/-- `f"0x{n:x}"`, which puts the sign of a negative number after the prefix. -/
def formatHex (n : Int) : String :=
  if n < 0 then String.ofList ('0' :: 'x' :: '-' :: Nat.toDigits 16 n.natAbs) else toHex n.toNat

/-- `hex(n)`, which puts it before. -/
def hex (n : Int) : String :=
  if n < 0 then String.ofList ('-' :: '0' :: 'x' :: Nat.toDigits 16 n.natAbs) else toHex n.toNat

theorem toList_toHex (n : Nat) : (toHex n).toList = '0' :: 'x' :: Nat.toDigits 16 n := by
  simp [toHex]

@[simp] theorem formatHex_natCast (n : Nat) : formatHex (n : Int) = toHex n := by
  simp [formatHex]

@[simp] theorem hex_natCast (n : Nat) : hex (n : Int) = toHex n := by
  simp [hex]

end Py
