/-
The storage keys that proofs are asked for.

A key is one word of 32 bytes.  Both spellings of a slot are padded to the same word, which is
the one text of its length with that value.  A decimal number past `2 ^ 256` is not refused: the
padding leaves it as it is, and its key is longer than a word.

The keys are looked at in the calls that are made, and not in what the parsers return:
`KeysSent` says of each handler that its one call names the slots of its request, in order and
one word each.
-/
import ExecRestApi.Proofs.Identifiers

namespace ExecRestApi

open Py Interaction Checks
open List (Forall₂)

/-! ### Numbers and words

A word is `0x` and 64 digits in lower case.  There is one for each number below `2 ^ 256`, and
that is what makes the spelling of a slot irrelevant.
-/

/-- The number a text spells, in hexadecimal or decimal and of any length. -/
def numberOf (s : String) : Option Nat :=
  if hexRe s.toList then some (foldDigits 16 0 (s.toList.drop 2))
  else if decimalRe s.toList then some (foldDigits 10 0 s.toList)
  else none

/-- A key of exactly 64 lower-case digits that has the value. -/
structure StorageKey (n : Nat) (key : String) : Prop where
  form : ∃ ds, key = String.ofList ('0' :: 'x' :: ds) ∧ ds.length = 64 ∧
    (∀ c ∈ ds, c ∈ "0123456789abcdef".toList) ∧ foldDigits 16 0 ds = n

/-- The digits of a number, at least 64 of them. -/
def wordKey (n : Nat) : String := String.ofList ('0' :: 'x' :: hexWord 64 n)

/-- **A number has one key, if it fits.** -/
theorem storageKey_iff {n : Nat} {key : String} :
    StorageKey n key ↔ n < 2 ^ 256 ∧ key = wordKey n := by
  have hsize : (2 : Nat) ^ 256 = 16 ^ 64 := by rw [show 16 = 2 ^ 4 from rfl, ← Nat.pow_mul]
  rw [hsize]
  constructor
  · rintro ⟨ds, rfl, hlen, hlower, hvalue⟩
    have hds : ∀ c ∈ ds, ∃ d < 16, c = d.digitChar := fun c hc => mem_lowerDigits_iff.mp (hlower c hc)
    obtain ⟨hlt, rfl⟩ := (eq_hexWord_iff (by decide)).mp ⟨hlen, hds, hvalue⟩
    exact ⟨hlt, rfl⟩
  · rintro ⟨hlt, rfl⟩
    obtain ⟨hlen, hds, hvalue⟩ := (eq_hexWord_iff (by decide)).mpr ⟨hlt, rfl⟩
    exact ⟨_, rfl, hlen, fun c hc => mem_lowerDigits_iff.mpr (hds c hc), hvalue⟩

/-! ### Padding

Padding puts zeros in front of the digits and never cuts any.  So it makes the word of every
number that has one.
-/

theorem eq_of_hexSlotRe {s : String} (h : hexSlotRe s = true) :
    ∃ ds, s.toList = '0' :: 'x' :: ds ∧ (∀ c ∈ ds, isHex c = true) ∧ 1 ≤ ds.length ∧
      ds.length ≤ 64 := by
  unfold hexSlotRe at h
  split at h
  · rename_i ds hs
    rw [Bool.and_eq_true, Bool.and_eq_true, List.all_eq_true, decide_eq_true_iff,
      decide_eq_true_iff] at h
    exact ⟨ds, hs, h.1.1, h.1.2, h.2⟩
  · cases h

theorem hexRe_of_hexSlotRe {s : String} (h : hexSlotRe s = true) : hexRe s.toList = true := by
  obtain ⟨ds, hds, hhex, hlen, -⟩ := eq_of_hexSlotRe h
  rw [hds]
  cases ds with
  | nil => simp at hlen
  | cons d ds => exact List.all_eq_true.mpr hhex

theorem numberOf_of_hexSlotRe {s : String} (h : hexSlotRe s = true) :
    numberOf s = some (foldDigits 16 0 (s.toList.drop 2)) :=
  if_pos (hexRe_of_hexSlotRe h)

theorem numberOf_of_decimalRe {s : String} (h : decimalRe s.toList = true) :
    numberOf s = some (foldDigits 10 0 s.toList) := by
  unfold numberOf
  rw [if_neg (not_hexRe_of_decimalRe h), if_pos h]

/-- Padding puts zeros in front, none if there are enough digits. -/
theorem padSlotTo32Bytes_eq (ds : List Char) :
    padSlotTo32Bytes (String.ofList ('0' :: 'x' :: ds)) =
      String.ofList ('0' :: 'x' :: (List.replicate (64 - ds.length) '0' ++ ds)) := by
  unfold padSlotTo32Bytes
  rw [String.toList_ofList]
  show (if 64 ≤ ds.length then _ else _) = _
  split_ifs with hlen
  · rw [Nat.sub_eq_zero_of_le hlen]
    rfl
  · rfl

/-- A slot in decimal. -/
theorem pad_formatHex (n : Nat) : padSlotTo32Bytes (formatHex n) = wordKey n := by
  rw [formatHex_natCast]
  exact padSlotTo32Bytes_eq (Nat.toDigits 16 n)

/-- A slot in hexadecimal. -/
theorem pad_lower {s : String} (h : hexSlotRe s = true) :
    padSlotTo32Bytes (lower s) = wordKey (foldDigits 16 0 (s.toList.drop 2)) := by
  obtain ⟨ds, hds, hhex, hpos, hlen⟩ := eq_of_hexSlotRe h
  have hne : ds ≠ [] := by
    rintro rfl
    simp at hpos
  have hlower := lower_prefixed hne hhex
  rw [← hds, String.ofList_toList] at hlower
  rw [hlower, padSlotTo32Bytes_eq, hds]
  have hbound : foldDigits 16 0 ds < 16 ^ ds.length := by
    have := foldDigits_lt ds (b := 16) (fun c _ => digitOf_lt c) 0
    rwa [Nat.zero_add, Nat.one_mul] at this
  rw [length_hexWord hpos hbound, replicate_append_hexWord hlen hpos hbound]
  rfl

theorem numberOf_lt_of_hexSlotRe {s : String} (h : hexSlotRe s = true) :
    foldDigits 16 0 (s.toList.drop 2) < 2 ^ 256 := by
  obtain ⟨ds, hds, -, -, hlen⟩ := eq_of_hexSlotRe h
  have hbound := foldDigits_lt ds (b := 16) (fun c _ => digitOf_lt c) 0
  rw [Nat.zero_add, Nat.one_mul] at hbound
  rw [hds]
  calc foldDigits 16 0 ds < 16 ^ ds.length := hbound
    _ ≤ 16 ^ 64 := Nat.pow_le_pow_right (by decide) hlen
    _ = 2 ^ 256 := by rw [show 16 = 2 ^ 4 from rfl, ← Nat.pow_mul]

/-! ### The slots of a query

A query gives its slots in either notation, separated by commas.  Only a decimal one can be too
big.
-/

/-- The key of a slot that is accepted. -/
theorem wordKey_of_parseSlot {s path slot : String} (h : parseSlot s path = .ok (.inr slot)) :
    ∃ n, numberOf s = some n ∧ padSlotTo32Bytes slot = wordKey n := by
  unfold parseSlot at h
  by_cases hhex : hexSlotRe s = true
  · rw [if_pos hhex] at h
    injection h with h
    injection h with h
    exact ⟨_, numberOf_of_hexSlotRe hhex, by rw [← h, pad_lower hhex]⟩
  · rw [if_neg hhex] at h
    by_cases hdecimal : decimalRe s.toList = true
    · rw [if_pos hdecimal, intOfText_of_decimalRe hdecimal] at h
      by_cases hlong : TooLong s
      · rw [if_pos hlong] at h
        cases h
      · rw [if_neg hlong] at h
        injection h with h
        injection h with h
        exact ⟨_, numberOf_of_decimalRe hdecimal, by rw [← h]; exact pad_formatHex _⟩
    · rw [if_neg hdecimal] at h
      cases h

/-- An accepted list is the keys of its pieces, in order. -/
theorem wordKeys_of_parsePieces {path : String} {pieces : List (List Char)} {keys : List String}
    (h : parsePieces path pieces = .ok (.inr keys)) :
    Forall₂ (fun piece key => ∃ n, numberOf piece = some n ∧ key = wordKey n)
      (pieces.map fun piece => String.ofList (strip piece)) keys := by
  induction pieces generalizing keys with
  | nil =>
      injection h with h
      injection h with h
      rw [← h]
      exact .nil
  | cons piece rest ih =>
      unfold parsePieces at h
      obtain ⟨slot, hslot, h⟩ := unlessRefused_eq_inr h
      obtain ⟨out, hout, h⟩ := unlessRefused_eq_inr h
      injection h with h
      injection h with h
      rw [← h]
      exact .cons (wordKey_of_parseSlot hslot) (ih hout)

theorem wordKeys_of_parseSlotsCsv {raw path : String} {keys : List String}
    (h : parseSlotsCsv (some raw) path = .ok (.inr keys)) :
    Forall₂ (fun piece key => ∃ n, numberOf piece = some n ∧ key = wordKey n) (slotPieces raw) keys := by
  unfold parseSlotsCsv at h
  unfold slotPieces
  dsimp only at h
  split_ifs at h ⊢
  · injection h with h
    injection h with h
    rw [← h]
    exact .nil
  · exact wordKeys_of_parsePieces h

/-- A number that does not fit in 32 bytes. -/
def TooBig (s : String) : Prop := ∃ n, numberOf s = some n ∧ 2 ^ 256 ≤ n

/-- The keys of accepted slots are words with their values, and numbers that do not fit are
answered with 400. -/
structure KeysExact (raw path : String) : Prop where
  accepted : ∀ keys, parseSlotsCsv (some raw) path = .ok (.inr keys) →
    Forall₂ (fun piece key => ∃ n, numberOf piece = some n ∧ StorageKey n key) (slotPieces raw) keys
  refused : (∃ piece ∈ slotPieces raw, TooBig piece) →
    ∃ resp, parseSlotsCsv (some raw) path = .ok (.inl resp) ∧ resp.status = 400

/-- **The keys are exact** if the slots fit, and otherwise only if the list is refused for the first
piece that is not read. -/
theorem keysExact_iff (raw path : String) : KeysExact raw path ↔
    (∀ piece ∈ slotPieces raw, ¬ TooBig piece) ∨ first ((slotPieces raw).map slotVerdict) = .refused := by
  have hread : reading (parseSlotsCsv (some raw) path) = _ := reads_parseSlotsCsv raw path
  constructor
  · intro h
    by_cases hbig : ∃ piece ∈ slotPieces raw, TooBig piece
    · exact .inr (by rw [← hread]; exact reading_eq_refused.mpr (h.refused hbig))
    · exact .inl fun piece hpiece hfits => hbig ⟨piece, hpiece, hfits⟩
  · rintro (hfits | hrefused)
    · refine ⟨fun keys hkeys => ?_, fun ⟨piece, hpiece, hbig⟩ => absurd hbig (hfits piece hpiece)⟩
      refine ((List.forall₂_and_left _ _).mpr ⟨hfits, wordKeys_of_parseSlotsCsv hkeys⟩).imp ?_
      rintro piece key ⟨hpiece, n, hn, hkey⟩
      exact ⟨n, hn, storageKey_iff.mpr ⟨Nat.lt_of_not_le fun hle => hpiece ⟨n, hn, hle⟩, hkey⟩⟩
    · rw [← hread] at hrefused
      refine ⟨fun keys hkeys => ?_, fun _ => reading_eq_refused.mp hrefused⟩
      rw [reading_eq_fine.mpr ⟨keys, hkeys⟩] at hrefused
      cases hrefused

/-- Lists that spell the same numbers get the same keys. -/
def SpellingsAgree (raw raw' : String) : Prop :=
  ∀ path path' keys keys', parseSlotsCsv (some raw) path = .ok (.inr keys) →
    parseSlotsCsv (some raw') path' = .ok (.inr keys') →
    (slotPieces raw).map numberOf = (slotPieces raw').map numberOf → keys = keys'

theorem keys_eq_map {pieces keys : List String}
    (h : Forall₂ (fun piece key => ∃ n, numberOf piece = some n ∧ key = wordKey n) pieces keys) :
    keys.map some = (pieces.map numberOf).map (Option.map wordKey) := by
  induction h with
  | nil => rfl
  | cons hhead _ ih =>
      obtain ⟨n, hn, rfl⟩ := hhead
      rw [List.map_cons, List.map_cons, List.map_cons, hn, ih]
      rfl

/-- **The key depends on the number only.** -/
theorem spellingsAgree (raw raw' : String) : SpellingsAgree raw raw' := by
  intro path path' keys keys' hkeys hkeys' hvalues
  have heq : keys.map some = keys'.map some := by
    rw [keys_eq_map (wordKeys_of_parseSlotsCsv hkeys), keys_eq_map (wordKeys_of_parseSlotsCsv hkeys'),
      hvalues]
  exact List.map_injective_iff.mpr (Option.some_injective _) heq

/-! ### The slots of a body

A body has them in hexadecimal, with at most 64 digits, and each of those fits.
-/

/-- An entry of a body and the key it is sent as. -/
def SentAs (s key : Json) : Prop :=
  ∃ t k n, s = .str t ∧ key = .str k ∧ numberOf t = some n ∧ StorageKey n k

theorem sentAs_of_proofSlot {s key : Json} (h : proofSlot s = .ok key) : SentAs s key := by
  cases s with
  | str t =>
      unfold proofSlot at h
      dsimp only at h
      split_ifs at h with hhex
      injection h with h
      exact ⟨t, _, _, rfl, h.symm, numberOf_of_hexSlotRe hhex,
        storageKey_iff.mpr ⟨numberOf_lt_of_hexSlotRe hhex, pad_lower hhex⟩⟩
  | _ => cases h

/-- The same for the entries of a body. -/
structure BodyKeysExact (req : Request) (fields : List (String × Json)) (slots : List Json) :
    Prop where
  accepted : ∀ keys, slots.mapM proofSlot = .ok keys → Forall₂ SentAs slots keys
  refused : req.body = .ok (.obj fields) → Json.field? fields "slots" = some (.arr slots) →
    (∃ t, .str t ∈ slots ∧ TooBig t) →
    ∃ resp, proofSearchOf req = .ok (.inl resp) ∧ resp.status = 400

theorem bodyKeysExact (req : Request) (fields : List (String × Json)) (slots : List Json) :
    BodyKeysExact req fields slots where
  accepted keys hkeys := forall₂_of_mapM (fun _ _ => sentAs_of_proofSlot) hkeys
  refused hbody hslots := by
    rintro ⟨t, ht, n, hn, hbig⟩
    have hnot : ∀ keys, slots.mapM proofSlot ≠ .ok keys := by
      intro keys hkeys
      have hsent : ∀ s ∈ slots, ∃ key, SentAs s key :=
        ((List.forall₂_and_left (R := fun _ _ => True) _ _).mp
          (forall₂_of_mapM (fun _ key h => ⟨⟨key, sentAs_of_proofSlot h⟩, trivial⟩) hkeys)).1
      obtain ⟨key, t', k, m, htt, -, hm, hexact⟩ := hsent _ ht
      injection htt with htt
      rw [htt, hm] at hn
      injection hn with hn
      have := (storageKey_iff.mp hexact).1
      omega
    refine reading_eq_refused.mp ?_
    have hread := reads_proofSearchOf hbody
    unfold Reads at hread
    unfold onProofSearch at hread
    dsimp only at hread
    rw [hread, hslots]
    dsimp only
    cases hmap : slots.mapM proofSlot with
    | ok keys => exact absurd hmap (hnot keys)
    | error msg => cases mapAddressLowercase (.str (req.matched "addr")) <;> rfl

/-! ### The calls

Both handlers make one call, and the keys are its second parameter.
-/

/-- The keys of a call for a proof are those its endpoint has read. -/
structure KeysSent (req : Request) : Prop where
  query : ∀ rpc, accountProofOf req = .ok (.inr rpc) → ∃ addr keys at_,
    parseSlotsCsv (req.queryGet "slots") req.path = .ok (.inr keys) ∧
    rpc = ⟨"eth_getProof", [.str addr, .arr (keys.map .str), .str at_]⟩
  body : ∀ rpc, proofSearchOf req = .ok (.inr rpc) → ∃ addr fields slots keys at_,
    req.body = .ok (.obj fields) ∧ Json.field? fields "slots" = some (.arr slots) ∧
    slots.mapM proofSlot = .ok keys ∧ rpc = ⟨"eth_getProof", [.str addr, .arr keys, .str at_]⟩

theorem keysSent (req : Request) : KeysSent req where
  query rpc h := by
    obtain ⟨addr, -, h⟩ := unlessRefused_eq_inr h
    obtain ⟨bid, -, h⟩ := unlessRefused_eq_inr h
    obtain ⟨keys, hkeys, h⟩ := unlessRefused_eq_inr h
    injection h with h
    injection h with h
    exact ⟨addr, keys, _, hkeys, h.symm⟩
  body rpc h := by
    obtain ⟨addr, -, h⟩ := unlessRefused_eq_inr h
    obtain ⟨body, hbody, h⟩ := unlessRefused_eq_inr h
    cases body with
    | obj fields =>
        dsimp only at h
        cases hslots : Json.field? fields "slots" with
        | none =>
            rw [hslots] at h
            cases h
        | some v =>
            rw [hslots] at h
            cases v with
            | arr slots =>
                dsimp only at h
                cases hkeys : slots.mapM proofSlot with
                | error msg =>
                    rw [hkeys] at h
                    cases h
                | ok keys =>
                    rw [hkeys] at h
                    obtain ⟨at_, -, h⟩ := unlessRefused_eq_inr h
                    injection h with h
                    injection h with h
                    exact ⟨addr, fields, slots, keys, at_, ok_of_readJson hbody, hslots, hkeys,
                      h.symm⟩
            | _ => cases h
    | _ => cases h

/-- **The keys of a proof are one word each with the number the client wrote**, except for decimal
numbers that do not fit. -/
theorem storage_keys_exact (raw raw' path : String) (req : Request)
    (fields : List (String × Json)) (slots : List Json) :
    (KeysExact raw path ↔ (∀ piece ∈ slotPieces raw, ¬ TooBig piece) ∨
      first ((slotPieces raw).map slotVerdict) = .refused) ∧
    SpellingsAgree raw raw' ∧ BodyKeysExact req fields slots ∧ KeysSent req :=
  ⟨keysExact_iff raw path, spellingsAgree raw raw', bodyKeysExact req fields slots, keysSent req⟩

/-- `2 ** 256` in decimal. -/
def pastTheWord : String :=
  "115792089237316195423570985008687907853269984665640564039457584007913129639936"

/-- **The number after the last word is accepted**, with a key of 65 digits. -/
theorem not_storage_keys_exact : ¬ KeysExact pastTheWord "/accounts/0x00/proof" := by
  rw [keysExact_iff]
  have hpieces : slotPieces pastTheWord = [pastTheWord] := by decide +kernel
  have hvalue : numberOf pastTheWord = some (2 ^ 256) := by decide +kernel
  have hdecimal : decimalRe pastTheWord.toList = true := by decide +kernel
  have hfine : slotVerdict pastTheWord = .fine := by
    refine slotVerdict_eq_fine.mpr ⟨fun hlong => ?_, ?_⟩
    · have hlen : pastTheWord.toList.length = 78 := by decide +kernel
      have := hlong.2
      rw [hlen] at this
      unfold maxStrDigits at this
      omega
    · unfold slotValue
      rw [if_pos hdecimal]
      split_ifs <;> nofun
  rintro (hfits | hrefused)
  · exact hfits pastTheWord (by rw [hpieces]; exact List.mem_singleton_self _) ⟨_, hvalue, le_refl _⟩
  · rw [hpieces, List.map_singleton, hfine] at hrefused
    cases hrefused

end ExecRestApi
