/-
What the conversion of a call keeps of the call.

`FieldFrom` relates one field of the converted object to the field of the body it comes
from, and `Built` does so for a whole object: every field is accounted for, and none comes
from elsewhere.  A quantity denotes the same number, a text is the same in lower case.

The overrides are rebuilt under keys in lower case.  What is built comes from the input
whatever the keys are; nothing is lost exactly if no two keys of one map are the same in lower
case.  What lower case is enters as a map on texts.
-/
import ExecRestApi.Lib.DecimalText
import ExecRestApi.Model.CallRequest

namespace ExecRestApi

open Py

/-! ### Entry by entry

An object is converted entry by entry, so what is built and what it was built from stand side
by side, one entry each.
-/

theorem exists_right_of_mem {α β : Type} {R : α → β → Prop} {xs : List α} {ys : List β}
    (h : List.Forall₂ R xs ys) {x : α} (hx : x ∈ xs) : ∃ y ∈ ys, R x y := by
  induction h with
  | nil => cases hx
  | @cons a b _ _ hab _ ih =>
      rcases List.mem_cons.mp hx with rfl | hx
      · exact ⟨b, List.mem_cons_self, hab⟩
      · obtain ⟨y, hy, hxy⟩ := ih hx
        exact ⟨y, List.mem_cons_of_mem _ hy, hxy⟩

theorem exists_left_of_mem {α β : Type} {R : α → β → Prop} {xs : List α} {ys : List β}
    (h : List.Forall₂ R xs ys) {y : β} (hy : y ∈ ys) : ∃ x ∈ xs, R x y :=
  exists_right_of_mem (R := fun y x => R x y) h.flip hy

/-! ### Where a field comes from

A converter writes its own keys and leaves the others alone.  `Built.convertField` is one
field, `Built.convertFields` a loop over several, and `Built.both` two converters one after the
other.
-/

/-- The field `key` of `out` is that of `body`, converted as `rel` says; it is missing exactly if
there is nothing to convert. -/
def FieldFrom (rel : Json → Json → Prop) (body out : List (String × Json)) (key : String) : Prop :=
  match Json.field? out key with
  | some x => ∃ v, v ≠ .null ∧ Json.field? body key = some v ∧ rel v x
  | none => (Json.field? body key).getD .null = .null

/-- The fields of `out` are those of `body` that `spec` lists, each converted as it says. -/
structure Built (spec : List (String × (Json → Json → Prop))) (body out : List (String × Json)) :
    Prop where
  field : ∀ p ∈ spec, FieldFrom p.2 body out p.1
  /-- Nothing else is there. -/
  known : ∀ p ∈ out, p.1 ∈ spec.map Prod.fst

/-- A number, or text that spells it. -/
def Denotes (v : Json) (n : Nat) : Prop :=
  v = .int n ∨ ∃ s, v = .str s ∧ decimalRe s.toList = true ∧ foldDigits 10 0 s.toList = n

/-- The hexadecimal quantity of the same number. -/
def SameQuantity (v x : Json) : Prop := ∃ n, Denotes v n ∧ x = .str (toHex n)

/-- The same text in lower case. -/
def Lowered (lower : String → String) (v x : Json) : Prop :=
  ∃ s, v = .str s ∧ x = .str (lower s)

theorem field?_setIn_self (key : String) (x : Json) (out : List (String × Json)) :
    Json.field? (Dict.setIn key x out) key = some x := by
  rw [Json.field?, Dict.lookupIn_setIn, if_pos rfl]

theorem field?_setIn_ne {key key' : String} (h : key ≠ key') (x : Json)
    (out : List (String × Json)) : Json.field? (Dict.setIn key x out) key' = Json.field? out key' := by
  rw [Json.field?, Dict.lookupIn_setIn, if_neg h, Json.field?]

/-- What `convertField` does to the object built so far. -/
theorem convertField_eq_ok {convert : Json → Except Exc Json} {body out out' : List (String × Json)}
    {key : String} (h : convertField convert body out key = .ok out') :
    (out' = out ∧ (Json.field? body key).getD .null = .null) ∨
      ∃ v x, v ≠ .null ∧ Json.field? body key = some v ∧ convert v = .ok x ∧
        out' = Dict.setIn key x out := by
  unfold convertField at h
  split at h
  · rename_i hnone
    cases h
    exact .inl ⟨rfl, by rw [hnone]; rfl⟩
  · rename_i hnull
    cases h
    exact .inl ⟨rfl, by rw [hnull]; rfl⟩
  · rename_i v hnull hv
    obtain ⟨x, hx, h⟩ := bind_eq_ok.mp h
    cases h
    exact .inr ⟨v, x, fun hvnull => hnull (by rw [hvnull]), hv, hx, rfl⟩

/-- One more field. -/
theorem Built.convertField {spec : List (String × (Json → Json → Prop))}
    {body out out' : List (String × Json)} {key : String} {rel : Json → Json → Prop}
    {convert : Json → Except Exc Json} (h : Built spec body out) (hnew : key ∉ spec.map Prod.fst)
    (hrel : ∀ v x, convert v = .ok x → rel v x)
    (hconv : ExecRestApi.convertField convert body out key = .ok out') :
    Built (spec ++ [(key, rel)]) body out' := by
  have hmissing : Json.field? out key = none := by
    cases hfound : Json.field? out key with
    | none => rfl
    | some x => exact absurd (h.known _ (Dict.mem_of_lookupIn hfound)) hnew
  rcases convertField_eq_ok hconv with ⟨rfl, hnull⟩ | ⟨v, x, hv, hbody, hx, rfl⟩
  · refine ⟨List.forall_mem_append.mpr ⟨h.field, List.forall_mem_singleton.mpr ?_⟩, ?_⟩
    · rw [FieldFrom, hmissing]
      exact hnull
    · intro p hp
      rw [List.map_append]
      exact List.mem_append_left _ (h.known p hp)
  · refine ⟨List.forall_mem_append.mpr ⟨fun p hp => ?_, List.forall_mem_singleton.mpr ?_⟩, ?_⟩
    · have hne : key ≠ p.1 := by
        intro heq
        exact hnew (by rw [heq]; exact List.mem_map_of_mem hp)
      rw [FieldFrom, field?_setIn_ne hne]
      exact h.field p hp
    · rw [FieldFrom, field?_setIn_self]
      exact ⟨v, hv, hbody, hrel v x hx⟩
    · intro p hp
      rw [List.map_append]
      rcases Dict.mem_setIn hp with rfl | hp
      · exact List.mem_append_right _ (by simp)
      · exact List.mem_append_left _ (h.known p hp)

/-- Several fields of one kind. -/
theorem Built.convertFields {body : List (String × Json)} {rel : Json → Json → Prop}
    {convert : Json → Except Exc Json} (hrel : ∀ v x, convert v = .ok x → rel v x) :
    ∀ {keys : List String} {spec : List (String × (Json → Json → Prop))}
      {out out' : List (String × Json)}, Built spec body out →
      (spec.map Prod.fst ++ keys).Nodup →
      keys.foldlM (ExecRestApi.convertField convert body) out = .ok out' →
        Built (spec ++ keys.map fun key => (key, rel)) body out' := by
  intro keys
  induction keys with
  | nil =>
      intro spec out out' h _ hfold
      cases hfold
      rw [List.map_nil, List.append_nil]
      exact h
  | cons key keys ih =>
      intro spec out out' h hnodup hfold
      rw [List.foldlM_cons] at hfold
      obtain ⟨out₁, hout₁, hfold⟩ := bind_eq_ok.mp hfold
      have hnew : key ∉ spec.map Prod.fst := by
        intro hmem
        exact (List.nodup_append.mp hnodup).2.2 key hmem key (by simp) rfl
      have hstep := h.convertField hnew hrel hout₁
      have hnodup' : ((spec ++ [(key, rel)]).map Prod.fst ++ keys).Nodup := by
        rw [List.map_append, List.append_assoc]
        exact hnodup
      have hrest := ih hstep hnodup' hfold
      rw [List.append_assoc] at hrest
      exact hrest

/-- The same fields under weaker relations. -/
theorem Built.mono {spec spec' : List (String × (Json → Json → Prop))}
    {body out : List (String × Json)} (h : Built spec body out)
    (hspec : List.Forall₂ (fun p q => q.1 = p.1 ∧
      ∀ v x, Json.field? body p.1 = some v → p.2 v x → q.2 v x) spec spec') :
    Built spec' body out := by
  have hkeys : spec'.map Prod.fst = spec.map Prod.fst := by
    clear h
    induction hspec with
    | nil => rfl
    | cons hpq _ ih => rw [List.map_cons, List.map_cons, ih, hpq.1]
  refine ⟨?_, by rw [hkeys]; exact h.known⟩
  intro q hq
  obtain ⟨p, hp, hkey, himp⟩ := exists_left_of_mem hspec hq
  have hfield := h.field p hp
  unfold FieldFrom at hfield ⊢
  rw [hkey]
  cases hout : Json.field? out p.1 with
  | none =>
      rw [hout] at hfield
      exact hfield
  | some x =>
      rw [hout] at hfield
      obtain ⟨v, hnull, hv, hx⟩ := hfield
      exact ⟨v, hnull, hv, himp v x hv hx⟩

/-- A field of the body that is not `None` is converted, and as both descriptions say. -/
theorem Built.both {spec spec' : List (String × (Json → Json → Prop))}
    {body out : List (String × Json)} {key : String} {rel rel' : Json → Json → Prop} {v : Json}
    (h : Built spec body out) (h' : Built spec' body out) (hrel : (key, rel) ∈ spec)
    (hrel' : (key, rel') ∈ spec') (hv : Json.field? body key = some v) (hnull : v ≠ .null) :
    ∃ x, rel v x ∧ rel' v x := by
  have hfield := h.field _ hrel
  have hfield' := h'.field _ hrel'
  unfold FieldFrom at hfield hfield'
  cases hout : Json.field? out key with
  | none =>
      rw [hout, hv] at hfield
      exact absurd hfield hnull
  | some x =>
      rw [hout] at hfield hfield'
      obtain ⟨w, -, hw, hx⟩ := hfield
      obtain ⟨w', -, hw', hx'⟩ := hfield'
      rw [hv] at hw hw'
      cases hw
      cases hw'
      exact ⟨x, hx, hx'⟩

theorem built_nil (body : List (String × Json)) : Built [] body [] := by
  refine ⟨by simp, by simp⟩

/-! ### Values

What it means for a value to be kept depends on its kind: a quantity denotes a number, and an
address, a text or some bytes are the same in lower case.
-/

theorem isDecimal_of_decimalRe {cs : List Char} (h : decimalRe cs = true) :
    cs ≠ [] ∧ ∀ c ∈ cs, isDecimal c = true := by
  rw [decimalRe, Bool.and_eq_true, Bool.not_eq_true', List.all_eq_true] at h
  refine ⟨?_, h.2⟩
  rintro rfl
  cases h.1

/-- What is read as a number denotes it. -/
theorem denotes_of_parseInputInt {v : Json} {n : Int} (h : parseInputInt v = .ok n) :
    ∃ m : Nat, n = m ∧ Denotes v m := by
  unfold parseInputInt at h
  split at h
  · cases h
  · rename_i k
    split_ifs at h with hneg
    cases h
    exact ⟨n.toNat, by omega, .inl (by rw [Int.toNat_of_nonneg (by omega)])⟩
  · rename_i s
    split_ifs at h with hre
    obtain ⟨hne, hdigits⟩ := isDecimal_of_decimalRe hre
    have hint := int?_eq_ite hne hdigits
    rw [String.ofList_toList] at hint
    rw [intOfText, hint] at h
    split_ifs at h
    cases h
    exact ⟨_, rfl, .inr ⟨s, rfl, hre, rfl⟩⟩
  · cases h

theorem sameQuantity_of_inputQuantity (v x : Json) (h : inputQuantity v = .ok x) :
    SameQuantity v x := by
  obtain ⟨n, hn, h⟩ := bind_eq_ok.mp h
  obtain ⟨s, hs, h⟩ := bind_eq_ok.mp h
  cases h
  obtain ⟨m, rfl, hv⟩ := denotes_of_parseInputInt hn
  rw [decimalToHex_natCast] at hs
  cases hs
  exact ⟨m, hv, rfl⟩

theorem sameQuantity_of_inputWei (v x : Json) (h : inputWei v = .ok x) : SameQuantity v x :=
  sameQuantity_of_inputQuantity v x h

theorem lowered_of_inputLower (lower : String → String) (v x : Json)
    (h : inputLower lower v = .ok x) : Lowered lower v x := by
  cases v with
  | str s =>
      cases h
      exact ⟨s, rfl, rfl⟩
  | _ => cases h

theorem mapAddressLowercase_eq_ok {v : Json} {a : String} (h : mapAddressLowercase v = .ok a) :
    ∃ s, v = .str s ∧ a = lower s := by
  unfold mapAddressLowercase at h
  split at h
  · split_ifs at h
    cases h
    exact ⟨_, rfl, rfl⟩
  · cases h

theorem lowered_of_inputAddress (v x : Json) (h : inputAddress v = .ok x) :
    Lowered lower v x := by
  obtain ⟨a, ha, h⟩ := bind_eq_ok.mp h
  cases h
  obtain ⟨s, rfl, rfl⟩ := mapAddressLowercase_eq_ok ha
  exact ⟨s, rfl, rfl⟩

theorem lowered_of_inputBytes (f : String) (v x : Json) (h : inputBytes f v = .ok x) :
    Lowered lower v x := by
  unfold inputBytes at h
  dsimp only at h
  split at h
  · split_ifs at h
    cases h
    exact ⟨_, rfl, rfl⟩
  · cases h

/-! ### Maps under rewritten keys

The names of accounts are checked before they are put in lower case; the keys of a state are not.
So `lower` is any map here, and `Py.lower` the one that is known on ASCII.
-/

section

variable (lower : String → String)

/-- Every entry of `out` is an entry of `input` under its key in lower case, its value converted
as `rel` says. -/
def EntriesFrom (rel : Json → Json → Prop) (input out : List (String × Json)) : Prop :=
  ∀ p ∈ out, ∃ e ∈ input, p.1 = lower e.1 ∧ rel e.2 p.2

/-- Every entry of `input` has an entry of its own in `out`, with its own value. -/
structure EntriesKept (rel : Json → Json → Prop) (input out : List (String × Json)) : Prop where
  comes : EntriesFrom lower rel input out
  /-- No two entries share one. -/
  own : out.length = input.length
  value : ∀ e ∈ input, ∃ x, Json.field? out (lower e.1) = some x ∧ rel e.2 x

/-- No two keys differ in case only. -/
def DistinctKeys (input : List (String × Json)) : Prop :=
  (input.map fun e => lower e.1).Nodup

end

section

variable {lower : String → String}

section

variable {rel : Json → Json → Prop} {conv : String × Json → Json → Prop}
  {input out : List (String × Json)}

/-- The rewritten entries are assigned one after the other. -/
theorem entries_of_foldlM
    {step : List (String × Json) → String × Json → Except Exc (List (String × Json))}
    (hstep : ∀ acc e acc', step acc e = .ok acc' →
      ∃ x, conv e x ∧ acc' = Dict.setIn (lower e.1) x acc) :
    ∀ {input acc out : List (String × Json)}, input.foldlM step acc = .ok out →
      ∃ pairs, List.Forall₂ (fun e p => p.1 = lower e.1 ∧ conv e p.2) input pairs ∧
        out = Dict.setAll acc pairs := by
  intro input
  induction input with
  | nil =>
      intro acc out h
      cases h
      exact ⟨[], .nil, rfl⟩
  | cons e input ih =>
      intro acc out h
      rw [List.foldlM_cons] at h
      obtain ⟨acc', hacc', h⟩ := bind_eq_ok.mp h
      obtain ⟨x, hx, rfl⟩ := hstep acc e acc' hacc'
      obtain ⟨pairs, hpairs, rfl⟩ := ih h
      exact ⟨(lower e.1, x) :: pairs, .cons ⟨rfl, hx⟩ hpairs, rfl⟩

theorem keys_of_forall₂ {pairs : List (String × Json)}
    (h : List.Forall₂ (fun e p => p.1 = lower e.1 ∧ conv e p.2) input pairs) :
    pairs.map Prod.fst = input.map fun e => lower e.1 := by
  induction h with
  | nil => rfl
  | cons hep _ ih => rw [List.map_cons, List.map_cons, ih, hep.1]

theorem entriesFrom_of_forall₂ {pairs : List (String × Json)}
    (hrel : ∀ e x, conv e x → rel e.2 x)
    (h : List.Forall₂ (fun e p => p.1 = lower e.1 ∧ conv e p.2) input pairs) :
    EntriesFrom lower rel input (Dict.setAll [] pairs) := by
  intro p hp
  rcases Dict.mem_setAll hp with hp | hp
  · cases hp
  · obtain ⟨e, he, heq, hx⟩ := exists_left_of_mem h hp
    exact ⟨e, he, heq, hrel e p.2 hx⟩

/-- Nothing is lost exactly if the keys stay apart and nothing is lost inside the values. -/
theorem entriesKept_iff {pairs : List (String × Json)} {cond : String × Json → Prop}
    (hrel : ∀ e x, conv e x → (rel e.2 x ↔ cond e))
    (h : List.Forall₂ (fun e p => p.1 = lower e.1 ∧ conv e p.2) input pairs) :
    EntriesKept lower rel input (Dict.setAll [] pairs) ↔
      DistinctKeys lower input ∧ ∀ e ∈ input, cond e := by
  have hkeys := keys_of_forall₂ h
  have hlength : pairs.length = input.length := h.length_eq.symm
  -- each entry finds its own value once the keys are known to stay apart
  have hlookup : DistinctKeys lower input → Dict.setAll [] pairs = pairs ∧ ∀ e ∈ input, ∃ x,
      conv e x ∧ Json.field? pairs (lower e.1) = some x := by
    intro hnodup
    have hnodup' : (pairs.map Prod.fst).Nodup := by rwa [hkeys]
    refine ⟨Dict.setAll_of_nodup hnodup', ?_⟩
    intro e he
    obtain ⟨p, hp, heq, hx⟩ := exists_right_of_mem h he
    refine ⟨p.2, hx, Dict.lookupIn_of_mem hnodup' ?_⟩
    rw [← heq]
    exact hp
  constructor
  · intro hkept
    have hnodup : DistinctKeys lower input := by
      have hown := hkept.own
      rw [← hlength] at hown
      have := (@Dict.length_setAll_eq _ _ _ pairs [] List.nodup_nil).2 (by simpa using hown)
      rw [List.nil_append, hkeys] at this
      exact this
    obtain ⟨hall, hfound⟩ := hlookup hnodup
    refine ⟨hnodup, ?_⟩
    intro e he
    obtain ⟨x, hx, hxfound⟩ := hfound e he
    obtain ⟨x', hx', hrel'⟩ := hkept.value e he
    rw [hall, hxfound] at hx'
    cases hx'
    exact (hrel e x hx).mp hrel'
  · intro ⟨hnodup, hcond⟩
    obtain ⟨hall, hfound⟩ := hlookup hnodup
    have hvalue : ∀ e ∈ input, ∃ x, Json.field? pairs (lower e.1) = some x ∧ rel e.2 x := by
      intro e he
      obtain ⟨x, hx, hxfound⟩ := hfound e he
      exact ⟨x, hxfound, (hrel e x hx).mpr (hcond e he)⟩
    rw [hall]
    refine ⟨?_, hlength, hvalue⟩
    intro p hp
    obtain ⟨e, he, heq, hx⟩ := exists_left_of_mem h hp
    exact ⟨e, he, heq, (hrel e p.2 hx).mpr (hcond e he)⟩

end

end

/-! ### The parts that have entries

These are the specifications: which keys an object has, and what is kept of each.  They say
nothing of how the source goes about it.
-/

section

variable (lower : String → String)

/-- An access list, entry by entry. -/
def AccessEntry (v x : Json) : Prop :=
  ∃ fields address keys address' keys', v = .obj fields ∧
    Json.field? fields "address" = some address ∧
    (Json.field? fields "storageKeys").getD (.arr []) = .arr keys ∧
    Lowered Py.lower address address' ∧ List.Forall₂ (Lowered lower) keys keys' ∧
    x = .obj [("address", address'), ("storageKeys", .arr keys')]

def AccessListFrom (v x : Json) : Prop :=
  ∃ entries entries', v = .arr entries ∧ x = .arr entries' ∧
    List.Forall₂ (AccessEntry lower) entries entries'

/-- A map of storage slots; `entries` says what becomes of its entries. -/
def Slots (entries : (String → String) → (Json → Json → Prop) → List (String × Json) →
    List (String × Json) → Prop) (v x : Json) : Prop :=
  ∃ slots slots', v = .obj slots ∧ x = .obj slots' ∧ entries lower (Lowered lower) slots slots'

/-- The fields of an account's overrides. -/
def overrideSpec (slots : Json → Json → Prop) : List (String × (Json → Json → Prop)) :=
  [("balance", SameQuantity), ("nonce", SameQuantity), ("code", Lowered lower), ("state", slots),
    ("stateDiff", slots)]

/-- The overrides of an account. -/
def Override (slots : Json → Json → Prop) (v x : Json) : Prop :=
  ∃ override out, v = .obj override ∧ x = .obj out ∧ Built (overrideSpec lower slots) override out

/-- The overridden accounts. -/
def Accounts (entries : (String → String) → (Json → Json → Prop) → List (String × Json) →
    List (String × Json) → Prop) (v x : Json) : Prop :=
  ∃ accounts out, v = .obj accounts ∧ x = .obj out ∧
    entries Py.lower (Override lower (Slots lower entries)) accounts out

/-- The fields of a block's overrides. -/
def blockSpec : List (String × (Json → Json → Prop)) :=
  [("number", SameQuantity), ("timestamp", SameQuantity), ("gasLimit", SameQuantity),
    ("baseFeePerGas", SameQuantity), ("difficulty", SameQuantity), ("coinbase", Lowered Py.lower),
    ("random", Lowered lower)]

def BlockOverride (v x : Json) : Prop :=
  ∃ bo out, v = .obj bo ∧ x = .obj out ∧ Built (blockSpec lower) bo out

/-- The fields of a call. -/
def callSpec (accounts : Json → Json → Prop) : List (String × (Json → Json → Prop)) :=
  [("from", Lowered Py.lower), ("to", Lowered Py.lower), ("gas", SameQuantity),
    ("nonce", SameQuantity), ("chainId", SameQuantity), ("gasPrice", SameQuantity),
    ("maxFeePerGas", SameQuantity), ("maxPriorityFeePerGas", SameQuantity),
    ("value", SameQuantity), ("data", Lowered Py.lower), ("accessList", AccessListFrom lower),
    ("stateOverrides", accounts), ("blockOverrides", BlockOverride lower)]

end

/-! ### The maps

A map of storage slots goes through `lower` key by key.
-/

section

variable {lower : String → String}

/-- One turn of the loop over the slots. -/
theorem slot_of_step (acc : List (String × Json)) (e : String × Json) (acc' : List (String × Json))
    (h : (do
      let w ← inputLower lower e.2
      pure (Dict.setIn (lower e.1) w acc) : Except Exc (List (String × Json))) = .ok acc') :
    ∃ x, inputLower lower e.2 = .ok x ∧ acc' = Dict.setIn (lower e.1) x acc := by
  obtain ⟨w, hw, h⟩ := bind_eq_ok.mp h
  cases h
  exact ⟨w, hw, rfl⟩

theorem slots_pairs {v x : Json} (h : inputSlots lower v = .ok x) : ∃ slots pairs, v = .obj slots ∧
    x = .obj (Dict.setAll [] pairs) ∧
    List.Forall₂ (fun e p => p.1 = lower e.1 ∧ inputLower lower e.2 = .ok p.2) slots pairs := by
  unfold inputSlots at h
  split at h
  · rename_i slots
    obtain ⟨out, hout, h⟩ := bind_eq_ok.mp h
    cases h
    obtain ⟨pairs, hpairs, rfl⟩ := entries_of_foldlM slot_of_step hout
    exact ⟨slots, pairs, rfl, rfl, hpairs⟩
  · cases h

variable (lower) in
/-- A map of slots has no two keys that differ in case only. -/
def DistinctSlots (v : Json) : Prop := ∀ slots, v = .obj slots → DistinctKeys lower slots

theorem slotsFrom_of_inputSlots (v x : Json) (h : inputSlots lower v = .ok x) :
    Slots lower EntriesFrom v x := by
  obtain ⟨slots, pairs, hv, hx, hpairs⟩ := slots_pairs h
  exact ⟨slots, _, hv, hx, entriesFrom_of_forall₂
    (fun e x he => lowered_of_inputLower lower e.2 x he) hpairs⟩

theorem slotsKept_iff {v x : Json} (h : inputSlots lower v = .ok x) :
    Slots lower EntriesKept v x ↔ DistinctSlots lower v := by
  obtain ⟨slots, pairs, rfl, rfl, hpairs⟩ := slots_pairs h
  have hiff := @entriesKept_iff _ _ _ _ _ (fun _ => True)
    (fun e x he => iff_true_intro (lowered_of_inputLower lower e.2 x he)) hpairs
  constructor
  · intro ⟨slots', out, hv, hx, hkept⟩ slots'' hv'
    cases hv
    cases hx
    cases hv'
    exact (hiff.mp hkept).1
  · intro hdistinct
    exact ⟨slots, _, rfl, rfl, hiff.mpr ⟨hdistinct slots rfl, fun _ _ => trivial⟩⟩

/-! ### The overrides of an account

An override has fields and two maps, so it is kept if both maps are.
-/

/-- With any relation that the conversion of a map of slots meets. -/
theorem built_of_stateOverride {slots : Json → Json → Prop}
    (hslots : ∀ v x, inputSlots lower v = .ok x → slots v x) {override out : List (String × Json)}
    (h : stateOverride lower override = .ok out) : Built (overrideSpec lower slots) override out := by
  obtain ⟨out₁, h₁, h⟩ := bind_eq_ok.mp h
  obtain ⟨out₂, h₂, h⟩ := bind_eq_ok.mp h
  obtain ⟨out₃, h₃, h⟩ := bind_eq_ok.mp h
  obtain ⟨out₄, h₄, h⟩ := bind_eq_ok.mp h
  have built₁ := (built_nil override).convertField (by decide) sameQuantity_of_inputWei h₁
  have built₂ := built₁.convertField (by decide) sameQuantity_of_inputQuantity h₂
  have built₃ := built₂.convertField (by decide) (lowered_of_inputLower lower) h₃
  have built₄ := built₃.convertField (by simp) hslots h₄
  exact built₄.convertField (by simp) hslots h

variable (lower) in
/-- No map of slots in the overrides of an account has two keys that differ in case only. -/
def DistinctOverride (v : Json) : Prop :=
  ∀ override, v = .obj override → ∀ key ∈ ["state", "stateDiff"], ∀ slots,
    Json.field? override key = some slots → DistinctSlots lower slots

theorem overrideFrom_of_stateOverride {override out : List (String × Json)}
    (h : stateOverride lower override = .ok out) :
    Override lower (Slots lower EntriesFrom) (.obj override) (.obj out) :=
  ⟨override, out, rfl, rfl, built_of_stateOverride slotsFrom_of_inputSlots h⟩

theorem overrideKept_iff {override out : List (String × Json)}
    (h : stateOverride lower override = .ok out) :
    Override lower (Slots lower EntriesKept) (.obj override) (.obj out) ↔
      DistinctOverride lower (.obj override) := by
  have hconv := @built_of_stateOverride lower (fun v x => inputSlots lower v = .ok x)
    (fun _ _ hx => hx) _ _ h
  constructor
  · intro ⟨override', out', hv, hx, hkept⟩ override'' hv' key hkey v hfield slots hslots
    cases hv
    cases hx
    cases hv'
    have hmem : ∀ rel, (key, rel) ∈ overrideSpec lower rel := by
      intro rel
      rcases List.mem_cons.mp hkey with rfl | hkey
      · simp [overrideSpec]
      · rw [List.mem_singleton.mp hkey]
        simp [overrideSpec]
    obtain ⟨x, hx, hx'⟩ := hconv.both hkept (hmem _) (hmem _) hfield (by rw [hslots]; nofun)
    exact (slotsKept_iff hx).mp hx' slots hslots
  · intro hdistinct
    have hslots : ∀ key ∈ ["state", "stateDiff"], ∀ v x, Json.field? override key = some v →
        inputSlots lower v = .ok x → Slots lower EntriesKept v x := by
      intro key hkey v x hfield hx
      exact (slotsKept_iff hx).mpr (hdistinct override rfl key hkey v hfield)
    refine ⟨override, out, rfl, rfl, hconv.mono ?_⟩
    exact .cons ⟨rfl, fun _ _ _ hx => hx⟩ <| .cons ⟨rfl, fun _ _ _ hx => hx⟩ <|
      .cons ⟨rfl, fun _ _ _ hx => hx⟩ <| .cons ⟨rfl, hslots "state" (by simp)⟩ <|
      .cons ⟨rfl, hslots "stateDiff" (by simp)⟩ .nil

/-! ### The overridden accounts

The accounts are a map as well, with an override under each address.
-/

variable (lower) in
/-- The value of `stateOverrides`. -/
def inputAccounts (v : Json) : Except Exc Json :=
  match v with
  | .obj so => do
      let converted ← so.foldlM (addStateOverride lower) []
      pure (.obj converted)
  | _ => .error (.badValue ⟨"stateOverrides must be an object", none⟩)

theorem convertStateOverrides_eq (out body : List (String × Json)) :
    convertStateOverrides lower out body =
      convertField (inputAccounts lower) body out "stateOverrides" := by
  unfold convertStateOverrides convertField
  cases Json.field? body "stateOverrides" with
  | none => rfl
  | some v =>
      cases v with
      | obj so =>
          show (so.foldlM (addStateOverride lower) [] >>= _)
            = (so.foldlM (addStateOverride lower) [] >>= _) >>= _
          rw [bind_assoc]
          rfl
      | _ => rfl

variable (lower) in
/-- The overrides of one account are converted. -/
def AccountConverted (e : String × Json) (x : Json) : Prop :=
  ∃ override out, e.2 = .obj override ∧ stateOverride lower override = .ok out ∧ x = .obj out

/-- One turn of the loop over the accounts. -/
theorem account_of_step (acc : List (String × Json)) (e : String × Json)
    (acc' : List (String × Json)) (h : addStateOverride lower acc e = .ok acc') :
    ∃ x, AccountConverted lower e x ∧ acc' = Dict.setIn (Py.lower e.1) x acc := by
  unfold addStateOverride at h
  split at h
  · rename_i override hov
    obtain ⟨out, hout, h⟩ := bind_eq_ok.mp h
    obtain ⟨addr, haddr, h⟩ := bind_eq_ok.mp h
    cases h
    obtain ⟨s, hs, rfl⟩ := mapAddressLowercase_eq_ok haddr
    cases hs
    exact ⟨.obj out, ⟨override, out, hov, hout, rfl⟩, rfl⟩
  · cases h

variable (lower) in
/-- No two accounts differ in case only, and no two slots of one account. -/
def DistinctAccounts (v : Json) : Prop :=
  ∀ accounts, v = .obj accounts →
    DistinctKeys Py.lower accounts ∧ ∀ e ∈ accounts, DistinctOverride lower e.2

theorem accounts_pairs {v x : Json} (h : inputAccounts lower v = .ok x) : ∃ accounts pairs,
    v = .obj accounts ∧ x = .obj (Dict.setAll [] pairs) ∧
    List.Forall₂ (fun e p => p.1 = Py.lower e.1 ∧ AccountConverted lower e p.2) accounts pairs := by
  unfold inputAccounts at h
  split at h
  · rename_i accounts
    obtain ⟨out, hout, h⟩ := bind_eq_ok.mp h
    cases h
    obtain ⟨pairs, hpairs, rfl⟩ := entries_of_foldlM account_of_step hout
    exact ⟨accounts, pairs, rfl, rfl, hpairs⟩
  · cases h

theorem accountsFrom_of_inputAccounts (v x : Json) (h : inputAccounts lower v = .ok x) :
    Accounts lower EntriesFrom v x := by
  obtain ⟨accounts, pairs, hv, hx, hpairs⟩ := accounts_pairs h
  refine ⟨accounts, _, hv, hx, @entriesFrom_of_forall₂ _ _ (AccountConverted lower) _ _ ?_ hpairs⟩
  intro e x he
  obtain ⟨override, out, hov, hout, rfl⟩ := he
  rw [hov]
  exact overrideFrom_of_stateOverride hout

theorem accountsKept_iff {v x : Json} (h : inputAccounts lower v = .ok x) :
    Accounts lower EntriesKept v x ↔ DistinctAccounts lower v := by
  obtain ⟨accounts, pairs, rfl, rfl, hpairs⟩ := accounts_pairs h
  have hentry : ∀ e x, AccountConverted lower e x →
      (Override lower (Slots lower EntriesKept) e.2 x ↔ DistinctOverride lower e.2) := by
    intro e x he
    obtain ⟨override, out, hov, hout, rfl⟩ := he
    rw [hov]
    exact overrideKept_iff hout
  have hiff := @entriesKept_iff _ _ _ _ _ (fun e => DistinctOverride lower e.2) hentry hpairs
  constructor
  · intro ⟨accounts', out, hv, hx, hkept⟩ accounts'' hv'
    cases hv
    cases hx
    cases hv'
    exact hiff.mp hkept
  · intro hdistinct
    exact ⟨accounts, _, rfl, rfl, hiff.mpr (hdistinct accounts rfl)⟩

/-! ### The other parts of a call

Neither an access list nor the overrides of the block have keys of the client's choosing, and
nothing can be lost there.
-/

theorem lowered_of_storageKey (k x : Json) (h : storageKey lower k = .ok x) :
    Lowered lower k x := by
  cases k with
  | str s =>
      cases h
      exact ⟨s, rfl, rfl⟩
  | _ => cases h

theorem accessEntry_of_accessListEntry (v x : Json) (h : accessListEntry lower v = .ok x) :
    AccessEntry lower v x := by
  unfold accessListEntry at h
  split at h
  · rename_i fields
    split at h
    · cases h
    · rename_i address haddress
      split at h
      · rename_i keys hkeys
        obtain ⟨keys', hkeys', h⟩ := bind_eq_ok.mp h
        obtain ⟨address', haddress', h⟩ := bind_eq_ok.mp h
        cases h
        exact ⟨fields, address, keys, address', keys', rfl, haddress, hkeys,
          lowered_of_inputAddress address address' haddress',
          forall₂_of_mapM lowered_of_storageKey hkeys', rfl⟩
      · cases h
  · cases h

variable (lower) in
/-- The value of `accessList`. -/
def inputAccessList (v : Json) : Except Exc Json :=
  match v with
  | .arr al => do
      let converted ← al.mapM (accessListEntry lower)
      pure (.arr converted)
  | _ => .error (.badValue ⟨"accessList must be an array", none⟩)

theorem convertAccessList_eq (out body : List (String × Json)) :
    convertAccessList lower out body =
      convertField (inputAccessList lower) body out "accessList" := by
  unfold convertAccessList convertField
  cases Json.field? body "accessList" with
  | none => rfl
  | some v =>
      cases v with
      | arr al =>
          show (al.mapM (accessListEntry lower) >>= _)
            = (al.mapM (accessListEntry lower) >>= _) >>= _
          rw [bind_assoc]
          rfl
      | _ => rfl

theorem accessListFrom_of_inputAccessList (v x : Json) (h : inputAccessList lower v = .ok x) :
    AccessListFrom lower v x := by
  unfold inputAccessList at h
  split at h
  · rename_i al
    obtain ⟨converted, hconverted, h⟩ := bind_eq_ok.mp h
    cases h
    exact ⟨al, converted, rfl, rfl, forall₂_of_mapM accessEntry_of_accessListEntry hconverted⟩
  · cases h

variable (lower) in
/-- The value of `blockOverrides`. -/
def inputBlockOverrides (v : Json) : Except Exc Json :=
  match v with
  | .obj bo => do
      let converted ← blockOverride lower bo
      pure (.obj converted)
  | _ => .error (.badValue ⟨"blockOverrides must be an object", none⟩)

theorem convertBlockOverrides_eq (out body : List (String × Json)) :
    convertBlockOverrides lower out body =
      convertField (inputBlockOverrides lower) body out "blockOverrides" := by
  unfold convertBlockOverrides convertField
  cases Json.field? body "blockOverrides" with
  | none => rfl
  | some v =>
      cases v with
      | obj bo =>
          show (blockOverride lower bo >>= _) = (blockOverride lower bo >>= _) >>= _
          rw [bind_assoc]
          rfl
      | _ => rfl

theorem blockOverride_of_inputBlockOverrides (v x : Json) (h : inputBlockOverrides lower v = .ok x) :
    BlockOverride lower v x := by
  unfold inputBlockOverrides at h
  split at h
  · rename_i bo
    obtain ⟨out, hout, h⟩ := bind_eq_ok.mp h
    cases h
    obtain ⟨out₁, h₁, hout⟩ := bind_eq_ok.mp hout
    obtain ⟨out₂, h₂, hout⟩ := bind_eq_ok.mp hout
    obtain ⟨out₃, h₃, hout⟩ := bind_eq_ok.mp hout
    have built₁ := (built_nil bo).convertFields sameQuantity_of_inputQuantity (by decide) h₁
    have built₂ := built₁.convertFields sameQuantity_of_inputWei (by decide) h₂
    have built₃ := built₂.convertField (by decide) lowered_of_inputAddress h₃
    exact ⟨bo, out, rfl, rfl, built₃.convertField (by decide) (lowered_of_inputLower lower) hout⟩
  · cases h

/-! ### The whole call

What is built comes from the call in any case, and `DistinctOverrides` is what it takes for
nothing to be lost.  One call has an account twice, spelled in two ways, and one has it once.
-/

/-- With any relation that the conversion of the accounts meets. -/
theorem built_of_callObject {accounts : Json → Json → Prop}
    (haccounts : ∀ v x, inputAccounts lower v = .ok x → accounts v x) {body out : List (String × Json)}
    (h : callObject lower body = .ok out) : Built (callSpec lower accounts) body out := by
  obtain ⟨out₁, h₁, h⟩ := bind_eq_ok.mp h
  obtain ⟨out₂, h₂, h⟩ := bind_eq_ok.mp h
  obtain ⟨out₂', h₂, h₂'⟩ := bind_eq_ok.mp h₂
  obtain ⟨out₃, h₃, h⟩ := bind_eq_ok.mp h
  obtain ⟨out₄, h₄, h⟩ := bind_eq_ok.mp h
  obtain ⟨out₅, h₅, h⟩ := bind_eq_ok.mp h
  rw [convertAccessList_eq] at h₄
  rw [convertStateOverrides_eq] at h₅
  rw [convertBlockOverrides_eq] at h
  unfold convertBytes bytesFields at h₃
  rw [List.foldlM_cons] at h₃
  obtain ⟨out₃', h₃, h₃'⟩ := bind_eq_ok.mp h₃
  cases h₃'
  have built₁ := (built_nil body).convertFields lowered_of_inputAddress (by decide) h₁
  have built₂ := built₁.convertFields sameQuantity_of_inputQuantity (by decide) h₂
  have built₂' := built₂.convertFields sameQuantity_of_inputWei (by decide) h₂'
  have built₃ := built₂'.convertField (by decide) (lowered_of_inputBytes "data") h₃
  have built₄ := built₃.convertField (by decide) accessListFrom_of_inputAccessList h₄
  have built₅ := built₄.convertField (by simp [addressFields, intFields, weiFields]) haccounts h₅
  exact built₅.convertField (by simp [addressFields, intFields, weiFields]) blockOverride_of_inputBlockOverrides h

variable (lower) in
/-- In the overrides of a call, no two accounts differ in case only, and no two slots of one
account. -/
def DistinctOverrides (body : List (String × Json)) : Prop :=
  ∀ v, Json.field? body "stateOverrides" = some v → DistinctAccounts lower v

/-- Nothing of a call is lost exactly if its overrides stay apart. -/
theorem built_kept_iff {body out : List (String × Json)} (h : callObject lower body = .ok out) :
    Built (callSpec lower (Accounts lower EntriesKept)) body out ↔ DistinctOverrides lower body := by
  have hconv := @built_of_callObject lower (fun v x => inputAccounts lower v = .ok x)
    (fun _ _ hx => hx) _ _ h
  have hmem : ∀ rel, ("stateOverrides", rel) ∈ callSpec lower rel := by
    intro rel
    simp [callSpec]
  constructor
  · intro hkept v hfield accounts haccounts
    obtain ⟨x, hx, hx'⟩ := hconv.both hkept (hmem _) (hmem _) hfield (by rw [haccounts]; nofun)
    exact (accountsKept_iff hx).mp hx' accounts haccounts
  · intro hdistinct
    refine hconv.mono ?_
    -- the accounts are the twelfth of the thirteen fields, the others stay as they are
    iterate 11 refine .cons ⟨rfl, fun _ _ _ hx => hx⟩ ?_
    refine .cons ⟨rfl, ?_⟩ (.cons ⟨rfl, fun _ _ _ hx => hx⟩ .nil)
    intro v x hfield hx
    exact (accountsKept_iff hx).mpr (hdistinct v hfield)

/-- **What the conversion of a call keeps.**  Whenever it returns, every quantity of the call
object denotes the number the body gives and every field and entry comes from the body.  Every
override of the body keeps a converted entry of its own, down to the single storage slot, exactly
if no two accounts and no two slots of one account have keys that `lower` makes one. -/
theorem conversion_keeps_iff (lower : String → String) (body out : List (String × Json))
    (at_ : String) (h : callRequestToRpc lower (.obj body) = .ok (out, at_)) :
    Built (callSpec lower (Accounts lower EntriesFrom)) body out ∧
      (Built (callSpec lower (Accounts lower EntriesKept)) body out ↔
        DistinctOverrides lower body) := by
  obtain ⟨out', hout, h⟩ := bind_eq_ok.mp h
  obtain ⟨at', -, h⟩ := bind_eq_ok.mp h
  cases h
  exact ⟨built_of_callObject accountsFrom_of_inputAccounts hout, built_kept_iff hout⟩

end

/-- Two accounts whose names differ in case only. -/
def twiceInCase : List (String × Json) :=
  [("stateOverrides", .obj [
    ("0x00000000000000000000000000000000000000AA", .obj [("balance", .str "1")]),
    ("0x00000000000000000000000000000000000000aa", .obj [("nonce", .int 2)])])]

/-- The call object has the overrides of the second only. -/
def onceInLower : List (String × Json) :=
  [("stateOverrides", .obj [
    ("0x00000000000000000000000000000000000000aa", .obj [("nonce", .str "0x2")])])]

theorem callRequestToRpc_twiceInCase :
    callRequestToRpc lower (.obj twiceInCase) = .ok (onceInLower, "latest") := by decide +kernel

theorem not_distinct_twiceInCase : ¬ DistinctOverrides lower twiceInCase := by
  intro hdistinct
  have hkeys := (hdistinct _ rfl _ rfl).1
  revert hkeys
  unfold DistinctKeys
  decide +kernel

theorem override_lost :
    callRequestToRpc lower (.obj twiceInCase) = .ok (onceInLower, "latest") ∧
      ¬ Built (callSpec lower (Accounts lower EntriesKept)) twiceInCase onceInLower := by
  refine ⟨callRequestToRpc_twiceInCase, ?_⟩
  intro hkept
  obtain ⟨out, hout, h⟩ := bind_eq_ok.mp callRequestToRpc_twiceInCase
  obtain ⟨at', -, h⟩ := bind_eq_ok.mp h
  cases h
  exact not_distinct_twiceInCase ((built_kept_iff hout).mp hkept)

/-- One account, with one slot. -/
def onceMixed : List (String × Json) :=
  [("gas", .str "21000"), ("stateOverrides", .obj [
    ("0x00000000000000000000000000000000000000AA", .obj [
      ("stateDiff", .obj [("0xA", .str "0xB")])])])]

theorem conversion_keeps_onceMixed :
    Built (callSpec lower (Accounts lower EntriesKept)) onceMixed
      [("gas", .str "0x5208"), ("stateOverrides", .obj [
        ("0x00000000000000000000000000000000000000aa", .obj [
          ("stateDiff", .obj [("0xa", .str "0xb")])])])] := by
  refine (conversion_keeps_iff lower onceMixed _ "latest" (by decide +kernel)).2.mpr ?_
  intro v hv accounts haccounts
  cases hv
  cases haccounts
  refine ⟨List.nodup_singleton _, ?_⟩
  intro e he override hoverride key hkey slots hslots entries hentries
  rw [List.mem_singleton.mp he] at hoverride
  cases hoverride
  rcases List.mem_cons.mp hkey with rfl | hkey
  · cases hslots
  · rw [List.mem_singleton.mp hkey] at hslots
    cases hslots
    cases hentries
    exact List.nodup_singleton _

end ExecRestApi
