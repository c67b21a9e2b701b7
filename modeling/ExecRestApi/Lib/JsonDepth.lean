/-
A printed value that nests more deeply than the interpreter allows cannot be loaded.

This is the other half of the round trip.  `loads_print` gives a value back if it
nests at most `d` deep; here every other value ends in the recursion error, so the
two together say exactly which texts of `json.dumps` can be read again under a limit.

The induction is that of the round trip, on the value, with a companion for the rest
of an array and one for the rest of an object.  At each container the question is
where the reader first runs out: it may be at the bracket that opens the container,
within the value that comes next, or only within what follows that value.  In the
last case the value before it fits, and the round trip says where the reader stands
when it has read it.
-/
import ExecRestApi.Lib.JsonRoundTrip

namespace Py.Json

section

variable {d : Nat}

/-- Text after a prefix that cannot be read does not help. -/
theorem readAll_append_error {r : Reader} {xs : List Char} {e : LoadsError}
    (h : readAll d r xs = .error e) (ys : List Char) : readAll d r (xs ++ ys) = .error e := by
  rw [readAll_append, h]
  rfl

/-- No container is opened on a full stack. -/
theorem readAll_open_full {σ : List Container} (h : ¬ σ.length < d) {c : Char}
    (hc : c = '[' ∨ c = '{') (cs : List Char) :
    readAll d ⟨.value, σ⟩ (c :: cs) = .error .recursion := by
  have hopen : read d ⟨.value, σ⟩ c = .error .recursion := by
    rcases hc with rfl | rfl <;> simp [read, isBlank, startValue, h]
  rw [readAll_cons, hopen]
  rfl

mutual

/-- The text of a value that nests too deeply for the room that is left. -/
theorem readAll_print_deep : ∀ v : Json, Plain v → ∀ σ : List Container, σ.length ≤ d →
    d < σ.length + depth v → readAll d ⟨.value, σ⟩ (print v) = .error .recursion
  | null, _, σ, hσ, hd | bool _, _, σ, hσ, hd | float _, _, σ, hσ, hd | int _, _, σ, hσ, hd
  | str _, _, σ, hσ, hd => by
      simp only [depth] at hd
      omega
  | arr [], _, σ, hσ, hd => by
      have hfull : ¬ σ.length < d := by simp only [depth, itemsDepth] at hd; omega
      exact readAll_open_full hfull (Or.inl rfl) _
  | arr (v :: rest), h, σ, hσ, hd => by
      by_cases hlt : σ.length < d
      · rw [print, printItems, List.cons_append, readAll_openArr hlt, List.append_assoc,
          readAll_arrFirst h.1]
        have hσ' : (Container.arr [] :: σ).length ≤ d := hlt
        by_cases hv : d < (Container.arr [] :: σ).length + depth v
        · exact readAll_append_error (readAll_print_deep v h.1 _ hσ' hv) _
        · obtain ⟨r, hread, hset⟩ := readAll_print v h.1 (.arr [] :: σ) (Nat.le_of_not_lt hv)
          have hrest : d < σ.length + 1 + itemsDepth rest := by
            simp only [depth, itemsDepth, List.length_cons] at hd hv
            omega
          rw [readAll_append, hread]
          exact readAll_append_error (readAll_moreItems_deep rest h.2 σ hlt hrest [] r v hset) _
      · exact readAll_open_full hlt (Or.inl rfl) _
  | obj [], _, σ, hσ, hd => by
      have hfull : ¬ σ.length < d := by simp only [depth, fieldsDepth] at hd; omega
      exact readAll_open_full hfull (Or.inr rfl) _
  | obj ((k, v) :: rest), h, σ, hσ, hd => by
      by_cases hlt : σ.length < d
      · rw [print, printFields, List.cons_append, readAll_openObj hlt]
        simp only [List.append_assoc, List.cons_append]
        rw [readAll_key (Or.inl rfl)]
        have hσ' : (Container.obj [] (some k) :: σ).length ≤ d := hlt
        by_cases hv : d < (Container.obj [] (some k) :: σ).length + depth v
        · exact readAll_append_error (readAll_print_deep v h.2.1 _ hσ' hv) _
        · obtain ⟨r, hread, hset⟩ := readAll_print v h.2.1 (.obj [] (some k) :: σ)
            (Nat.le_of_not_lt hv)
          have hrest : d < σ.length + 1 + fieldsDepth rest := by
            simp only [depth, fieldsDepth, List.length_cons] at hd hv
            omega
          have hnd : (([] : List (String × Json)) ++ (k, v) :: rest).map Prod.fst |>.Nodup := h.1
          rw [readAll_append, hread]
          exact readAll_append_error
            (readAll_moreFields_deep rest h.2.2 σ hlt hrest [] k r v hset hnd) _
      · exact readAll_open_full hlt (Or.inr rfl) _

/-- The rest of an array in which a later item nests too deeply. -/
theorem readAll_moreItems_deep : ∀ rest : List Json, PlainItems rest → ∀ σ : List Container,
    σ.length < d → d < σ.length + 1 + itemsDepth rest →
    ∀ (acc : List Json) (r : Reader) (v : Json), Settles d r v (.arr acc :: σ) →
      readAll d r (printMoreItems rest) = .error .recursion
  | [], _, σ, hσ, hd, acc, r, v, hset => by
      simp only [itemsDepth] at hd
      omega
  | w :: rest, h, σ, hσ, hd, acc, r, v, hset => by
      have hσ' : (Container.arr (v :: acc) :: σ).length ≤ d := hσ
      rw [printMoreItems, List.cons_append, hset.readAll_comma_arr]
      by_cases hw : d < (Container.arr (v :: acc) :: σ).length + depth w
      · exact readAll_append_error (readAll_print_deep w h.1 _ hσ' hw) _
      · obtain ⟨r', hread, hset'⟩ := readAll_print w h.1 (.arr (v :: acc) :: σ)
          (Nat.le_of_not_lt hw)
        have hrest : d < σ.length + 1 + itemsDepth rest := by
          simp only [itemsDepth, List.length_cons] at hd hw
          omega
        rw [readAll_append, hread]
        exact readAll_moreItems_deep rest h.2 σ hσ hrest (v :: acc) r' w hset'

/-- The rest of an object in which a later value nests too deeply. -/
theorem readAll_moreFields_deep : ∀ rest : List (String × Json), PlainFields rest →
    ∀ σ : List Container, σ.length < d → d < σ.length + 1 + fieldsDepth rest →
    ∀ (acc : List (String × Json)) (k : String) (r : Reader) (v : Json),
      Settles d r v (.obj acc (some k) :: σ) → ((acc ++ (k, v) :: rest).map Prod.fst).Nodup →
      readAll d r (printMoreFields rest) = .error .recursion
  | [], _, σ, hσ, hd, acc, k, r, v, hset, hnd => by
      simp only [fieldsDepth] at hd
      omega
  | (l, w) :: rest, h, σ, hσ, hd, acc, k, r, v, hset, hnd => by
      have hσ' : (Container.obj (acc ++ [(k, v)]) (some l) :: σ).length ≤ d := hσ
      rw [printMoreFields]
      simp only [List.cons_append, List.append_assoc]
      rw [hset.readAll_comma_obj (not_mem_of_nodup_append hnd), readAll_key (Or.inr rfl)]
      by_cases hw : d < (Container.obj (acc ++ [(k, v)]) (some l) :: σ).length + depth w
      · exact readAll_append_error (readAll_print_deep w h.1 _ hσ' hw) _
      · obtain ⟨r', hread, hset'⟩ :=
          readAll_print w h.1 (.obj (acc ++ [(k, v)]) (some l) :: σ) (Nat.le_of_not_lt hw)
        have hrest : d < σ.length + 1 + fieldsDepth rest := by
          simp only [fieldsDepth, List.length_cons] at hd hw
          omega
        have hnd' : (((acc ++ [(k, v)]) ++ (l, w) :: rest).map Prod.fst).Nodup := by
          simpa using hnd
        rw [readAll_append, hread]
        exact readAll_moreFields_deep rest h.2 σ hσ hrest (acc ++ [(k, v)]) l r' w hset' hnd'

end

/-- **Nothing that nests too deeply is loaded.** -/
theorem loads_print_deep {v : Json} (hv : Plain v) (hd : d < depth v) :
    loads d (print v) = .error .recursion := by
  rw [loads, readAll_print_deep v hv [] (Nat.zero_le d) (by simpa using hd)]
  rfl

/-! ### Values of every depth

For a limit that is not small the value that exceeds it is not written down but described: an
array in an array, `n` times. -/

/-- `[[…[]…]]`, the empty array inside `n` further ones. -/
def nested : Nat → Json
  | 0 => arr []
  | n + 1 => arr [nested n]

theorem depth_nested (n : Nat) : depth (nested n) = n + 1 := by
  induction n with
  | zero => rfl
  | succ n ih => simp only [nested, depth, itemsDepth, ih, Nat.max_zero]

theorem plain_nested (n : Nat) : Plain (nested n) := by
  induction n with
  | zero => exact trivial
  | succ n ih => exact ⟨ih, trivial⟩

end

end Py.Json
