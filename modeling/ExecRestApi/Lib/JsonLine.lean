/-
Printed values stay on one line.

Everything below a blank is escaped inside a string, and nothing else of a value without floats
is anything but a digit, a sign, a bracket or a letter.
-/
import ExecRestApi.Lib.JsonRoundTrip

namespace Py.Json

mutual

/-- A value without floats, whose objects have distinct keys. -/
def WithoutFloats : Json → Prop
  | float _ => False
  | arr items => ItemsWithoutFloats items
  | obj fields => (fields.map Prod.fst).Nodup ∧ FieldsWithoutFloats fields
  | _ => True

/-- `WithoutFloats` on the items of an array. -/
def ItemsWithoutFloats : List Json → Prop
  | [] => True
  | v :: rest => WithoutFloats v ∧ ItemsWithoutFloats rest

/-- `WithoutFloats` on the fields of an object. -/
def FieldsWithoutFloats : List (String × Json) → Prop
  | [] => True
  | (_, v) :: rest => WithoutFloats v ∧ FieldsWithoutFloats rest

end

mutual

theorem plain_of_withoutFloats : ∀ v : Json, WithoutFloats v → intsFit v = true → Plain v
  | null, _, _ => trivial
  | bool _, _, _ => trivial
  | int _, _, h => h
  | float _, h, _ => h.elim
  | str _, _, _ => trivial
  | arr items, h, hfit => plainItems_of_withoutFloats items h hfit
  | obj fields, h, hfit => ⟨h.1, plainFields_of_withoutFloats fields h.2 hfit⟩

theorem plainItems_of_withoutFloats : ∀ l : List Json, ItemsWithoutFloats l → itemsFit l = true →
    PlainItems l
  | [], _, _ => trivial
  | v :: rest, h, hfit => by
      rw [itemsFit, Bool.and_eq_true] at hfit
      exact ⟨plain_of_withoutFloats v h.1 hfit.1, plainItems_of_withoutFloats rest h.2 hfit.2⟩

theorem plainFields_of_withoutFloats : ∀ l : List (String × Json), FieldsWithoutFloats l →
    fieldsFit l = true → PlainFields l
  | [], _, _ => trivial
  | (_, v) :: rest, h, hfit => by
      rw [fieldsFit, Bool.and_eq_true] at hfit
      exact ⟨plain_of_withoutFloats v h.1 hfit.1, plainFields_of_withoutFloats rest h.2 hfit.2⟩

end

theorem withoutFloats_strings (l : List String) : (Json.arr (l.map .str)).WithoutFloats := by
  induction l with
  | nil => trivial
  | cons s rest ih => exact ⟨trivial, ih⟩

/-! ### Objects that are put together -/

/-- Fields without floats, each with its key among `keys`, in that order. -/
def FieldsOf (keys : List String) (l : List (String × Json)) : Prop :=
  (l.map Prod.fst).Sublist keys ∧ FieldsWithoutFloats l

theorem FieldsOf.nil (keys : List String) : FieldsOf keys [] := ⟨List.nil_sublist keys, trivial⟩

theorem FieldsOf.cons {keys : List String} {l : List (String × Json)} {v : Json} (key : String)
    (hv : v.WithoutFloats) (h : FieldsOf keys l) : FieldsOf (key :: keys) ((key, v) :: l) :=
  ⟨h.1.cons_cons key, hv, h.2⟩

theorem FieldsOf.append {keys keys' : List String} {l l' : List (String × Json)}
    (h : FieldsOf keys l) (h' : FieldsOf keys' l') : FieldsOf (keys ++ keys') (l ++ l') := by
  refine ⟨by rw [List.map_append]; exact h.1.append h'.1, ?_⟩
  have hfields := h.2
  clear h
  induction l with
  | nil => exact h'.2
  | cons p l ih => exact ⟨hfields.1, ih hfields.2⟩

/-- No key twice. -/
theorem FieldsOf.withoutFloats {keys : List String} {l : List (String × Json)} (h : FieldsOf keys l)
    (hkeys : keys.Nodup) : (Json.obj l).WithoutFloats :=
  ⟨h.1.nodup hkeys, h.2⟩

/-! ### No breaks -/

/-- Text without control characters. -/
def Visible (cs : List Char) : Prop := ∀ c ∈ cs, 32 ≤ c.toNat

theorem visible_append {xs ys : List Char} : Visible (xs ++ ys) ↔ Visible xs ∧ Visible ys :=
  List.forall_mem_append

theorem visible_cons {c : Char} {cs : List Char} : Visible (c :: cs) ↔ 32 ≤ c.toNat ∧ Visible cs :=
  List.forall_mem_cons

theorem visible_nil : Visible [] := by simp [Visible]

theorem le_digitChar {d : Nat} (h : d < 16) : 32 ≤ d.digitChar.toNat := by
  have hall : ∀ d < 16, 32 ≤ d.digitChar.toNat := by decide
  exact hall d h

theorem visible_hex4 (n : Nat) : Visible (hex4 n) := by
  simp only [hex4, visible_cons]
  exact ⟨le_digitChar (by omega), le_digitChar (by omega), le_digitChar (by omega),
    le_digitChar (by omega), visible_nil⟩

theorem visible_escapeChar (c : Char) : Visible (escapeChar c) := by
  unfold escapeChar
  split_ifs <;> simp_all [visible_cons, visible_append, visible_nil, visible_hex4]

theorem visible_quote (s : String) : Visible (quote s) := by
  have hbody : Visible (s.toList.flatMap escapeChar) := by
    intro c hc
    obtain ⟨x, -, hc⟩ := List.mem_flatMap.mp hc
    exact visible_escapeChar x c hc
  simp [quote, visible_cons, visible_append, visible_nil, hbody]

theorem visible_toDigits (n : Nat) : Visible (Nat.toDigits 10 n) :=
  forall_mem_toDigits (by decide) (P := fun c => 32 ≤ c.toNat)
    (fun _ hd => le_digitChar (by omega)) n

theorem visible_intText (n : Int) : Visible (intText n) := by
  unfold intText
  split_ifs
  · exact visible_cons.mpr ⟨by decide, visible_toDigits _⟩
  · exact visible_toDigits _

mutual

theorem visible_print : ∀ v : Json, WithoutFloats v → Visible (print v)
  | null, _ => by simp [print, visible_cons, visible_nil]
  | bool true, _ => by simp [print, visible_cons, visible_nil]
  | bool false, _ => by simp [print, visible_cons, visible_nil]
  | int n, _ => visible_intText n
  | float _, h => h.elim
  | str s, _ => visible_quote s
  | arr [], _ => by simp [print, printItems, visible_cons, visible_nil]
  | arr (v :: rest), h => by
      simp [print, printItems, visible_cons, visible_append, visible_nil, visible_print v h.1,
        visible_printMoreItems rest h.2]
  | obj [], _ => by simp [print, printFields, visible_cons, visible_nil]
  | obj ((k, v) :: rest), h => by
      simp [print, printFields, visible_cons, visible_append, visible_nil, visible_quote,
        visible_print v h.2.1, visible_printMoreFields rest h.2.2]

theorem visible_printMoreItems : ∀ l : List Json, ItemsWithoutFloats l → Visible (printMoreItems l)
  | [], _ => visible_nil
  | v :: rest, h => by
      simp [printMoreItems, visible_cons, visible_append, visible_print v h.1,
        visible_printMoreItems rest h.2]

theorem visible_printMoreFields : ∀ l : List (String × Json), FieldsWithoutFloats l →
    Visible (printMoreFields l)
  | [], _ => visible_nil
  | (k, v) :: rest, h => by
      simp [printMoreFields, visible_cons, visible_append, visible_quote, visible_print v h.1,
        visible_printMoreFields rest h.2]

end

end Py.Json
