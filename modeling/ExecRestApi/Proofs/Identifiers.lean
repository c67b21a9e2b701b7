/-
What a client may name a block, a storage slot or a transaction by.

Each name is matched against its grammar first and converted by `int` afterwards.  The two steps
have different domains: the grammars allow any number of digits, and `int` refuses more than
`maxStrDigits` of them with an exception that nobody catches.  The parameter of a block says less
than its name in one place: a number of 64 hexadecimal digits is written like a hash.

`ByGrammar` puts it in one form for all of them.  A handler lets a name through, with the value
that the grammar gives it, refuses it with a 400, or raises; the first happens exactly for the
names of the grammar that `int` can convert.
-/
import ExecRestApi.Lib.HexBytes
import ExecRestApi.Model.BlockTransactions
import ExecRestApi.Proofs.BodyChecks
import ExecRestApi.Proofs.Quantities

namespace ExecRestApi

open Py Interaction Checks

/-- A decimal number that `int` refuses. -/
def TooLong (s : String) : Prop := decimalRe s.toList = true ∧ maxStrDigits < s.toList.length

instance (s : String) : Decidable (TooLong s) := inferInstanceAs (Decidable (_ ∧ _))

theorem intOfText_of_decimalRe {s : String} (h : decimalRe s.toList = true) :
    intOfText s = if TooLong s then .error .valueError else .ok (foldDigits 10 0 s.toList : Nat) := by
  obtain ⟨hne, hdigits⟩ : s.toList ≠ [] ∧ ∀ c ∈ s.toList, isDecimal c = true := by
    simpa [decimalRe] using h
  have hint := int?_eq_ite hne hdigits
  rw [String.ofList_toList] at hint
  unfold intOfText
  rw [hint]
  by_cases hlen : s.toList.length ≤ maxStrDigits
  · have hshort : ¬ TooLong s := fun hlong => absurd hlong.2 (by omega)
    rw [if_pos hlen, if_neg hshort]
    rfl
  · have hlong : TooLong s := ⟨h, by omega⟩
    rw [if_neg hlen, if_pos hlong]

/-! ### Blocks

A name of a block is a tag, a hash or a number in one of two notations.  Two names are the same
block for the upstream if their parameters are equal, and `Collide` is the one way in which
that says more than it should.
-/

/-- What a client means by a block. -/
inductive BlockName where
  | tag (t : String)
  | number (n : Nat)
  | hash (h : Nat)
  deriving DecidableEq

/-- The block a text names, if it is in the grammar. -/
def nameOf (s : String) : Option BlockName :=
  if s ∈ blockTags then some (.tag s)
  else if decimalRe s.toList then some (.number (foldDigits 10 0 s.toList))
  else if fixedHexRe 64 s.toList then some (.hash (foldDigits 16 0 (s.toList.drop 2)))
  else none

/-- The block a parameter of the upstream names: 32 bytes are a hash. -/
def paramNames (p : String) : Option BlockName :=
  if p ∈ blockTags then some (.tag p)
  else if fixedHexRe 64 p.toList then some (.hash (foldDigits 16 0 (p.toList.drop 2)))
  else if hexRe p.toList then some (.number (foldDigits 16 0 (p.toList.drop 2)))
  else none

/-- A number whose hexadecimal digits are as many as those of a hash. -/
def HashSized (n : Nat) : Prop := 16 ^ 63 ≤ n ∧ n < 16 ^ 64

instance (n : Nat) : Decidable (HashSized n) := inferInstanceAs (Decidable (_ ∧ _))

/-- What the upstream takes a named block for. -/
def BlockName.seen : BlockName → BlockName
  | number n => if HashSized n then .hash n else .number n
  | name => name

theorem seen_number (n : Nat) :
    (BlockName.number n).seen = if HashSized n then .hash n else .number n := rfl

theorem seen_cases (name : BlockName) :
    name.seen = name ∨ ∃ n, HashSized n ∧ name = .number n ∧ name.seen = .hash n := by
  cases name with
  | number n =>
      rw [seen_number]
      by_cases hsized : HashSized n
      · exact .inr ⟨n, hsized, rfl, if_pos hsized⟩
      · exact .inl (if_neg hsized)
  | _ => exact .inl rfl

/-- The parameter of a block with a given name. -/
def BlockName.param : BlockName → String
  | tag t => t
  | number n => toHex n
  | hash h => String.ofList ('0' :: 'x' :: hexWord 64 h)

theorem eq_of_fixedHexRe {k : Nat} {cs : List Char} (h : fixedHexRe k cs = true) :
    ∃ ds, cs = '0' :: 'x' :: ds ∧ ds.length = k ∧ ∀ c ∈ ds, isHex c = true := by
  unfold fixedHexRe at h
  split at h
  · rename_i ds
    rw [Bool.and_eq_true, beq_iff_eq, List.all_eq_true] at h
    exact ⟨ds, rfl, h.1, h.2⟩
  · cases h

theorem fixedHexRe_cons (k : Nat) (cs : List Char) :
    fixedHexRe k ('0' :: 'x' :: cs) = (cs.length == k && cs.all isHex) := rfl

/-- A hash in lower case is the word of its value. -/
theorem lower_hash {s : String} (h : fixedHexRe 64 s.toList = true) :
    lower s = (BlockName.hash (foldDigits 16 0 (s.toList.drop 2))).param := by
  obtain ⟨ds, hds, hlen, hhex⟩ := eq_of_fixedHexRe h
  have hne : ds ≠ [] := by
    rintro rfl
    cases hlen
  have hlower := lower_prefixed hne hhex
  rw [← hds, String.ofList_toList] at hlower
  rw [hlower, hlen, hds]
  rfl

/-- What a text in the grammar is parsed to. -/
theorem parseBlockId_of_nameOf {s : String} {name : BlockName} (h : nameOf s = some name)
    (hlong : ¬ TooLong s) :
    ∃ bid, parseBlockId (.str s) = .ok bid ∧ bid.toRpcParam = name.param := by
  have hempty : nameOf "" = none := by decide +kernel
  have hne : (Json.str s).isFalsy = false := by
    unfold Json.isFalsy
    rw [beq_eq_false_iff_ne]
    rintro rfl
    rw [hempty] at h
    cases h
  unfold nameOf at h
  unfold parseBlockId
  rw [if_neg (by rw [hne]; nofun)]
  dsimp only
  by_cases htag : s ∈ blockTags
  · rw [if_pos htag] at h ⊢
    injection h with h
    exact ⟨_, rfl, by rw [← h]; rfl⟩
  · rw [if_neg htag] at h ⊢
    by_cases hdecimal : decimalRe s.toList = true
    · rw [if_pos hdecimal] at h ⊢
      injection h with h
      have hint := intOfText_of_decimalRe hdecimal
      rw [if_neg hlong] at hint
      unfold intOfText at hint
      cases hread : int? s with
      | none =>
          rw [hread] at hint
          cases hint
      | some n =>
          rw [hread] at hint
          injection hint with hint
          refine ⟨_, rfl, ?_⟩
          rw [← h, hint]
          exact formatHex_natCast _
    · rw [if_neg hdecimal] at h ⊢
      by_cases hhash : fixedHexRe 64 s.toList = true
      · rw [if_pos hhash] at h ⊢
        injection h with h
        exact ⟨_, rfl, by rw [← h]; exact lower_hash hhash⟩
      · rw [if_neg hhash] at h
        cases h

/-- What is no name is refused. -/
theorem parseBlockId_of_nameOf_none {s : String} (h : nameOf s = none) :
    ∃ msg, parseBlockId (.str s) = .error (.blockIdError msg) := by
  unfold nameOf at h
  unfold parseBlockId
  by_cases hfalsy : (Json.str s).isFalsy = true
  · rw [if_pos hfalsy]
    exact ⟨_, rfl⟩
  · rw [if_neg hfalsy]
    dsimp only
    split_ifs at h ⊢
    exact ⟨_, rfl⟩

/-- A number that is too long is refused with another exception. -/
theorem parseBlockId_of_tooLong {s : String} (h : TooLong s) :
    ∃ e, parseBlockId (.str s) = .error e ∧ e.isBlockIdError = false := by
  refine ending_eq_broken.mp (parseBlockId_broken_iff.mpr ⟨?_, fun t ht => ?_⟩)
  · unfold Json.isFalsy
    rw [beq_eq_false_iff_ne]
    rintro rfl
    exact absurd h.1 (by decide)
  · injection ht with ht
    rw [← ht]
    exact h

/-- No tag is a number. -/
theorem decimalRe_of_tag {s : String} (h : s ∈ blockTags) : decimalRe s.toList = false := by
  have hnone : ∀ t ∈ blockTags, decimalRe t.toList = false := by decide +kernel
  exact hnone s h

theorem fixedHexRe_word {h : Nat} (hh : h < 16 ^ 64) :
    fixedHexRe 64 (BlockName.hash h).param.toList = true := by
  unfold BlockName.param
  rw [String.toList_ofList, fixedHexRe_cons, Bool.and_eq_true, beq_iff_eq, List.all_eq_true]
  exact ⟨length_hexWord (by decide) hh, isHex_hexWord 64 h⟩

/-- A number is written like a hash if it has as many digits. -/
theorem fixedHexRe_toHex_iff {n : Nat} : fixedHexRe 64 (toHex n).toList = true ↔ HashSized n := by
  rw [toList_toHex, fixedHexRe_cons, Bool.and_eq_true, beq_iff_eq, List.all_eq_true]
  unfold HashSized
  have hle := Nat.length_toDigits_le_iff (n := n) (b := 16) (k := 64) (by decide) (by decide)
  have hlt := Nat.length_toDigits_le_iff (n := n) (b := 16) (k := 63) (by decide) (by decide)
  constructor
  · rintro ⟨hlen, -⟩
    exact ⟨Nat.le_of_not_lt fun h => by have := hlt.mpr h; omega, hle.mp (by omega)⟩
  · rintro ⟨hlow, hhigh⟩
    refine ⟨?_, fun c hc => isHex_of_mem_toDigits hc⟩
    have h64 := hle.mpr hhigh
    have h63 : ¬ (Nat.toDigits 16 n).length ≤ 63 := fun h => absurd (hlt.mp h) (by omega)
    omega

/-- Names that texts have: a hash has 32 bytes. -/
def BlockName.InRange : BlockName → Prop
  | tag t => t ∈ blockTags
  | number _ => True
  | hash h => h < 16 ^ 64

theorem inRange_of_nameOf {s : String} {name : BlockName} (h : nameOf s = some name) :
    name.InRange := by
  unfold nameOf at h
  split_ifs at h with htag hdecimal hhash
  · injection h with h
    rw [← h]
    exact htag
  · injection h with h
    rw [← h]
    trivial
  · injection h with h
    rw [← h]
    obtain ⟨ds, hds, hlen, hhex⟩ := eq_of_fixedHexRe hhash
    have hbound := foldDigits_lt ds (b := 16) (fun c _ => digitOf_lt c) 0
    rw [hlen, Nat.zero_add, Nat.one_mul] at hbound
    show foldDigits 16 0 (s.toList.drop 2) < 16 ^ 64
    rw [hds]
    exact hbound

/-- **A parameter names the block it was written for**, unless it is a number the size of a hash. -/
theorem paramNames_param {name : BlockName} (h : name.InRange) :
    paramNames name.param = some name.seen := by
  have hzero : ∀ cs : List Char, String.ofList ('0' :: 'x' :: cs) ∉ blockTags := by
    intro cs hmem
    have hheads : ∀ t ∈ blockTags, t.toList.head? ≠ some '0' := by decide +kernel
    exact hheads _ hmem (by rw [String.toList_ofList]; rfl)
  unfold paramNames
  cases name with
  | tag t => exact if_pos h
  | number n =>
      have hvalue : foldDigits 16 0 ((toHex n).toList.drop 2) = n :=
        (minimalHexOf_iff.mpr rfl : MinimalHexOf n (toHex n)).value
      rw [show (BlockName.number n).param = toHex n from rfl,
        if_neg (show toHex n ∉ blockTags from hzero _), hvalue]
      rw [seen_number]
      by_cases hsized : HashSized n
      · rw [if_pos (fixedHexRe_toHex_iff.mpr hsized), if_pos hsized]
      · rw [if_neg (mt fixedHexRe_toHex_iff.mp hsized), if_pos (hexRe_toHex n), if_neg hsized]
  | hash x =>
      rw [if_neg (show (BlockName.hash x).param ∉ blockTags from hzero _),
        if_pos (fixedHexRe_word h)]
      unfold BlockName.param BlockName.seen
      rw [String.toList_ofList, List.drop_succ_cons, List.drop_succ_cons, List.drop_zero,
        foldDigits_hexWord]

/-- A number the size of a hash has the parameter of that hash. -/
theorem param_seen (name : BlockName) : name.seen.param = name.param := by
  rcases seen_cases name with hseen | ⟨n, hsized, rfl, hseen⟩
  · rw [hseen]
  · have hlen : (Nat.toDigits 16 n).length = 64 := by
      have hfixed := fixedHexRe_toHex_iff.mpr hsized
      rw [toList_toHex, fixedHexRe_cons, Bool.and_eq_true, beq_iff_eq] at hfixed
      exact hfixed.1
    rw [hseen]
    show String.ofList ('0' :: 'x' :: hexWord 64 n) = toHex n
    rw [hexWord, hlen]
    rfl

/-- Parameters are the same where the names are taken for the same. -/
theorem param_eq_iff {name name' : BlockName} (h : name.InRange) (h' : name'.InRange) :
    name.param = name'.param ↔ name.seen = name'.seen := by
  constructor
  · intro heq
    have hnames := congrArg paramNames heq
    rw [paramNames_param h, paramNames_param h'] at hnames
    exact Option.some.inj hnames
  · intro heq
    rw [← param_seen name, ← param_seen name', heq]

/-- A text names a number and the other a hash of the same digits. -/
def Collide (s t : String) : Prop :=
  ∃ n, HashSized n ∧ (nameOf s = some (.number n) ∧ nameOf t = some (.hash n) ∨
    nameOf s = some (.hash n) ∧ nameOf t = some (.number n))

/-- What is accepted has a name, and its parameter. -/
theorem nameOf_of_parseBlockId {s : String} {bid : BlockId} (h : parseBlockId (.str s) = .ok bid) :
    ∃ name, nameOf s = some name ∧ bid.toRpcParam = name.param := by
  cases hname : nameOf s with
  | none =>
      obtain ⟨msg, hmsg⟩ := parseBlockId_of_nameOf_none hname
      rw [hmsg] at h
      cases h
  | some name =>
      have hlong : ¬ TooLong s := by
        intro hlong
        obtain ⟨e, he, -⟩ := parseBlockId_of_tooLong hlong
        rw [he] at h
        cases h
      obtain ⟨bid', hbid', hparam⟩ := parseBlockId_of_nameOf hname hlong
      rw [h] at hbid'
      injection hbid' with hbid'
      exact ⟨name, rfl, by rw [hbid', hparam]⟩

/-- Two accepted texts get the same parameter exactly when they name the same block, unless one of
them names a number and the other the hash that is written like it. -/
theorem sameParam_of_accepted {s t : String} {bid bid' : BlockId} (hs : parseBlockId (.str s) = .ok bid)
    (ht : parseBlockId (.str t) = .ok bid') :
    (bid.toRpcParam = bid'.toRpcParam ↔ nameOf s = nameOf t) ↔ ¬ Collide s t := by
  obtain ⟨name, hname, hparam⟩ := nameOf_of_parseBlockId hs
  obtain ⟨name', hname', hparam'⟩ := nameOf_of_parseBlockId ht
  rw [hparam, hparam', param_eq_iff (inRange_of_nameOf hname) (inRange_of_nameOf hname'), hname,
    hname', Option.some.injEq]
  unfold Collide
  rw [hname, hname']
  constructor
  · rintro hlaw ⟨n, hsized, ⟨h, h'⟩ | ⟨h, h'⟩⟩
    · injection h with h
      injection h' with h'
      have hsame := hlaw.mp (by rw [h, h']; exact if_pos hsized)
      rw [h, h'] at hsame
      cases hsame
    · injection h with h
      injection h' with h'
      have hsame := hlaw.mp (by rw [h, h']; exact (if_pos hsized).symm)
      rw [h, h'] at hsame
      cases hsame
  · intro hnot
    refine ⟨fun hseen => ?_, fun heq => by rw [heq]⟩
    rcases seen_cases name with hsame | ⟨n, hsized, rfl, hsame⟩
    · rcases seen_cases name' with hsame' | ⟨m, hsized, rfl, hsame'⟩
      · rwa [hsame, hsame'] at hseen
      · rw [hsame, hsame'] at hseen
        exact absurd ⟨m, hsized, .inr ⟨by rw [hseen], rfl⟩⟩ hnot
    · rcases seen_cases name' with hsame' | ⟨m, hsized', rfl, hsame'⟩
      · rw [hsame, hsame'] at hseen
        exact absurd ⟨n, hsized, .inl ⟨rfl, by rw [hseen]⟩⟩ hnot
      · rw [hsame, hsame'] at hseen
        injection hseen with hseen
        rw [hseen]

/-- A text is parsed by its grammar and nothing else: the block it names is passed on, and
anything else is a `BlockIdError`. -/
structure BlockIdExact (s : String) : Prop where
  accepted : ∀ name, nameOf s = some name → ∃ bid, parseBlockId (.str s) = .ok bid ∧
    paramNames bid.toRpcParam = some name
  refused : nameOf s = none → ∃ msg, parseBlockId (.str s) = .error (.blockIdError msg)

theorem nameOf_of_decimalRe {s : String} (h : decimalRe s.toList = true) :
    nameOf s = some (.number (foldDigits 10 0 s.toList)) := by
  have htag : s ∉ blockTags := by
    intro htag
    rw [decimalRe_of_tag htag] at h
    cases h
  unfold nameOf
  rw [if_neg htag, if_pos h]

theorem blockIdExact_iff {s : String} :
    BlockIdExact s ↔ ¬ TooLong s ∧ ∀ n, nameOf s = some (.number n) → ¬ HashSized n := by
  constructor
  · intro h
    refine ⟨fun hlong => ?_, fun n hn hsized => ?_⟩
    · obtain ⟨bid, hbid, -⟩ := h.accepted _ (nameOf_of_decimalRe hlong.1)
      obtain ⟨e, he, -⟩ := parseBlockId_of_tooLong hlong
      rw [he] at hbid
      cases hbid
    · obtain ⟨bid, hbid, hnames⟩ := h.accepted _ hn
      obtain ⟨name, hname, hparam⟩ := nameOf_of_parseBlockId hbid
      rw [hn] at hname
      injection hname with hname
      rw [hparam, ← hname, paramNames_param (show (BlockName.number n).InRange from trivial),
        seen_number, if_pos hsized] at hnames
      cases hnames
  · rintro ⟨hlong, hsized⟩
    refine ⟨fun name hname => ?_, parseBlockId_of_nameOf_none⟩
    obtain ⟨bid, hbid, hparam⟩ := parseBlockId_of_nameOf hname hlong
    refine ⟨bid, hbid, ?_⟩
    rw [hparam, paramNames_param (inRange_of_nameOf hname)]
    rcases seen_cases name with hseen | ⟨n, hn, rfl, -⟩
    · rw [hseen]
    · exact absurd hn (hsized n hname)

/-- Two texts get the same parameter exactly when they name the same block. -/
def SameParam (s t : String) : Prop :=
  ∀ bid bid', parseBlockId (.str s) = .ok bid → parseBlockId (.str t) = .ok bid' →
    (bid.toRpcParam = bid'.toRpcParam ↔ nameOf s = nameOf t)

theorem not_tooLong_of_parseBlockId {s : String} {bid : BlockId}
    (h : parseBlockId (.str s) = .ok bid) : ¬ TooLong s := by
  intro hlong
  obtain ⟨e, he, -⟩ := parseBlockId_of_tooLong hlong
  rw [he] at h
  cases h

theorem sameParam_iff (s t : String) :
    SameParam s t ↔ ¬ (Collide s t ∧ ¬ TooLong s ∧ ¬ TooLong t) := by
  constructor
  · rintro h ⟨hcollide, hs, ht⟩
    obtain ⟨name, name', hname, hname'⟩ :
        ∃ name name', nameOf s = some name ∧ nameOf t = some name' := by
      obtain ⟨n, -, ⟨h, h'⟩ | ⟨h, h'⟩⟩ := hcollide
      · exact ⟨_, _, h, h'⟩
      · exact ⟨_, _, h, h'⟩
    obtain ⟨bid, hbid, -⟩ := parseBlockId_of_nameOf hname hs
    obtain ⟨bid', hbid', -⟩ := parseBlockId_of_nameOf hname' ht
    exact (sameParam_of_accepted hbid hbid').mp (h bid bid' hbid hbid') hcollide
  · intro h bid bid' hbid hbid'
    refine (sameParam_of_accepted hbid hbid').mpr fun hcollide => h ⟨hcollide, ?_, ?_⟩
    · exact not_tooLong_of_parseBlockId hbid
    · exact not_tooLong_of_parseBlockId hbid'

/-! ### Grammars and what they come to

The verdicts on a text are three: fine, refused, broken.  What a handler does is read off the
first that is not fine, as for the bodies.
-/

/-- A text is accepted by its grammar, or it is answered with 400. -/
structure ByGrammar {α : Type} (grammar : Prop) (x : Except Exc (Response ⊕ α)) : Prop where
  accepted : grammar → ∃ a, x = .ok (.inr a)
  answered : ¬ grammar → ∃ resp, x = .ok (.inl resp) ∧ resp.status = 400

/-- A text that is matched first and converted by `int` then. -/
def textVerdict (grammar : Prop) [Decidable grammar] (s : String) : Verdict :=
  if TooLong s then .broken else if grammar then .fine else .refused

section

variable {α : Type} {x : Except Exc (Response ⊕ α)}

theorem reading_eq_fine : reading x = .fine ↔ ∃ a, x = .ok (.inr a) := by
  cases x with
  | error e => exact iff_of_false nofun fun ⟨_, h⟩ => by cases h
  | ok r =>
      cases r with
      | inl resp =>
          refine iff_of_false (fun h => ?_) fun ⟨_, h⟩ => by cases h
          unfold reading answerVerdict at h
          dsimp only at h
          split_ifs at h
      | inr a => exact iff_of_true rfl ⟨a, rfl⟩

theorem reading_eq_refused :
    reading x = .refused ↔ ∃ resp, x = .ok (.inl resp) ∧ resp.status = 400 := by
  cases x with
  | error e => exact iff_of_false nofun fun ⟨_, h, _⟩ => by cases h
  | ok r =>
      cases r with
      | inl resp =>
          unfold reading answerVerdict
          dsimp only
          constructor
          · intro h
            split_ifs at h with hstatus
            exact ⟨resp, rfl, hstatus⟩
          · rintro ⟨resp', h, hstatus⟩
            injection h with h
            injection h with h
            rw [h, if_pos hstatus]
      | inr a => exact iff_of_false nofun fun ⟨_, h, _⟩ => by cases h

/-- What is read as verdicts say is read by its grammar if they say what the grammar does. -/
theorem byGrammar_iff {vs : List Verdict} {grammar : Prop} (h : Reads x vs)
    (hfine : first vs = .fine → grammar) (hrefused : first vs = .refused → ¬ grammar) :
    ByGrammar grammar x ↔ first vs ≠ .broken := by
  unfold Reads at h
  constructor
  · intro hx hbroken
    by_cases hg : grammar
    · have := reading_eq_fine.mpr (hx.accepted hg)
      rw [h, hbroken] at this
      cases this
    · have := reading_eq_refused.mpr (hx.answered hg)
      rw [h, hbroken] at this
      cases this
  · intro hne
    cases hvs : first vs with
    | fine => exact ⟨fun _ => reading_eq_fine.mp (h.trans hvs), fun hg => absurd (hfine hvs) hg⟩
    | refused =>
        exact ⟨fun hg => absurd hg (hrefused hvs), fun _ => reading_eq_refused.mp (h.trans hvs)⟩
    | broken => exact absurd hvs hne

end

theorem first_singleton (v : Verdict) : first [v] = v := by
  cases v <;> rfl

/-! ### Storage slots

A slot in a path is one name, a list of slots in a query is several, separated by commas.
Blanks around each are not part of it.
-/

/-- The number a slot stands for, if it is in the grammar. -/
def slotValue (s : String) : Option Nat :=
  if hexSlotRe s then some (foldDigits 16 0 (s.toList.drop 2))
  else if decimalRe s.toList then some (foldDigits 10 0 s.toList)
  else none

/-- A slot as it is read. -/
def slotVerdict (s : String) : Verdict := textVerdict (slotValue s ≠ none) s

/-- The pieces of `?slots=`. -/
def slotPieces (raw : String) : List String :=
  if raw = "" then [] else (splitOn ',' raw.toList).map fun piece => String.ofList (strip piece)

theorem not_hexSlotRe_of_decimalRe {s : String} (h : decimalRe s.toList = true) :
    hexSlotRe s = false := by
  unfold hexSlotRe
  split
  · rename_i cs hs
    rw [hs] at h
    simp [decimalRe, isDecimal] at h
  · rfl

theorem reads_parseSlot (s path : String) : Reads (parseSlot s path) [slotVerdict s] := by
  unfold parseSlot slotVerdict textVerdict slotValue
  by_cases hhex : hexSlotRe s = true
  · have hshort : ¬ TooLong s := by
      intro hlong
      rw [not_hexSlotRe_of_decimalRe hlong.1] at hhex
      cases hhex
    rw [if_pos hhex, if_neg hshort, if_pos hhex]
    rfl
  · rw [if_neg hhex, if_neg hhex]
    by_cases hdecimal : decimalRe s.toList = true
    · rw [if_pos hdecimal, if_pos hdecimal, intOfText_of_decimalRe hdecimal]
      by_cases hlong : TooLong s
      · rw [if_pos hlong, if_pos hlong]
        rfl
      · rw [if_neg hlong, if_neg hlong, if_pos nofun]
        rfl
    · have hshort : ¬ TooLong s := fun hlong => hdecimal hlong.1
      rw [if_neg hdecimal, if_neg hdecimal, if_neg hshort]
      rfl

theorem reads_parsePieces (path : String) (pieces : List (List Char)) :
    Reads (parsePieces path pieces)
      (pieces.map fun piece => slotVerdict (String.ofList (strip piece))) := by
  induction pieces with
  | nil => rfl
  | cons piece rest ih => exact (reads_parseSlot _ path).unless fun _ _ => ih.last

theorem reads_parseSlotsCsv (raw path : String) :
    Reads (parseSlotsCsv (some raw) path) ((slotPieces raw).map slotVerdict) := by
  unfold parseSlotsCsv slotPieces
  dsimp only
  split_ifs
  · rfl
  · rw [List.map_map]
    exact reads_parsePieces path _

theorem slotVerdict_eq_fine {s : String} :
    slotVerdict s = .fine ↔ ¬ TooLong s ∧ slotValue s ≠ none := by
  unfold slotVerdict textVerdict
  split_ifs <;> simp_all

theorem slotVerdict_eq_refused {s : String} :
    slotVerdict s = .refused ↔ ¬ TooLong s ∧ slotValue s = none := by
  unfold slotVerdict textVerdict
  split_ifs <;> simp_all

theorem slotVerdict_eq_broken {s : String} : slotVerdict s = .broken ↔ TooLong s := by
  unfold slotVerdict textVerdict
  split_ifs <;> simp_all

/-- **A slot is accepted or answered** unless it is a number that is too long. -/
theorem parseSlot_byGrammar (s path : String) :
    ByGrammar (slotValue s ≠ none) (parseSlot s path) ↔ ¬ TooLong s := by
  rw [byGrammar_iff (reads_parseSlot s path), first_singleton, Ne, slotVerdict_eq_broken]
  · rw [first_singleton]
    exact fun h => (slotVerdict_eq_fine.mp h).2
  · rw [first_singleton]
    exact fun h hg => hg (slotVerdict_eq_refused.mp h).2

/-- **So is a list of slots**, unless the first piece that is not in order is too long. -/
theorem parseSlotsCsv_byGrammar (raw path : String) :
    ByGrammar (∀ piece ∈ slotPieces raw, slotValue piece ≠ none) (parseSlotsCsv (some raw) path) ↔
      first ((slotPieces raw).map slotVerdict) ≠ .broken := by
  refine byGrammar_iff (reads_parseSlotsCsv raw path) (fun h piece hpiece => ?_) fun h hall => ?_
  · exact (slotVerdict_eq_fine.mp (first_eq_fine.mp h _ (List.mem_map_of_mem hpiece))).2
  · obtain ⟨piece, hpiece, hverdict⟩ := List.mem_map.mp (mem_of_first (by rw [h]; nofun) : first _ ∈ _)
    rw [h, slotVerdict_eq_refused] at hverdict
    exact hall piece hpiece hverdict.2

/-! ### The endpoints

The handlers look at the address first, then at the block or the slot, in the order of the
parameters of each.  `IdentifierRoute` names them, and its verdicts have that order.
-/

/-- An address of a path. -/
def addressVerdict (s : String) : Verdict := if fixedHexRe 40 s.toList then .fine else .refused

/-- A block of a path or a query. -/
def blockVerdict (s : String) : Verdict := textVerdict (nameOf s ≠ none) s

/-- The index of a transaction in its block. -/
def indexVerdict (s : String) : Verdict := textVerdict (decimalRe s.toList = true) s

theorem reads_address (raw path : String) : Reads (parseAddress raw path) [addressVerdict raw] := by
  unfold parseAddress mapAddressLowercase addressVerdict
  dsimp only
  split_ifs <;> rfl

theorem ending_parseBlockId (s : String) :
    ending Exc.isBlockIdError (parseBlockId (.str s)) = blockVerdict s := by
  unfold blockVerdict textVerdict
  by_cases hlong : TooLong s
  · obtain ⟨e, he, hother⟩ := parseBlockId_of_tooLong hlong
    rw [if_pos hlong]
    exact ending_eq_broken.mpr ⟨e, he, hother⟩
  · rw [if_neg hlong]
    cases hname : nameOf s with
    | none =>
        obtain ⟨msg, hmsg⟩ := parseBlockId_of_nameOf_none hname
        rw [hmsg]
        rfl
    | some name =>
        obtain ⟨bid, hbid, -⟩ := parseBlockId_of_nameOf hname hlong
        rw [hbid]
        rfl

theorem reads_blockId (raw path : String) : Reads (parseId raw path) [blockVerdict raw] := by
  rw [← ending_parseBlockId]
  exact reads_parseId raw path

theorem reads_parseAt (req : Request) :
    Reads (parseAt req) [blockVerdict ((req.queryGet "at").getD "latest")] := by
  rw [← ending_parseBlockId]
  unfold parseAt
  cases parseBlockId (.str ((req.queryGet "at").getD "latest")) with
  | ok bid => rfl
  | error e => cases e <;> rfl

theorem reads_index (req : Request) (bid : BlockId) :
    Reads (if decimalRe (req.matched "index").toList then do
        let index ← intOfText (req.matched "index")
        let hexIndex ← decimalToHex index
        let method := if bid.isHash then "eth_getTransactionByBlockHashAndIndex"
          else "eth_getTransactionByBlockNumberAndIndex"
        pure (.inr ⟨method, [.str bid.toRpcParam, .str hexIndex]⟩)
      else .ok (.inl (badRequest req.path
        ⟨"transaction index must be a non-negative integer, got ",
          some (.str (req.matched "index"))⟩)) : Except Exc (Response ⊕ RpcCall))
      [indexVerdict (req.matched "index")] := by
  unfold indexVerdict textVerdict
  by_cases hdecimal : decimalRe (req.matched "index").toList = true
  · rw [if_pos hdecimal, if_pos hdecimal, intOfText_of_decimalRe hdecimal]
    by_cases hlong : TooLong (req.matched "index")
    · rw [if_pos hlong, if_pos hlong]
      rfl
    · rw [if_neg hlong, if_neg hlong]
      dsimp only [bind, Except.bind]
      rw [decimalToHex_natCast]
      rfl
  · have hshort : ¬ TooLong (req.matched "index") := fun hlong => hdecimal hlong.1
    rw [if_neg hdecimal, if_neg hdecimal, if_neg hshort]
    rfl

/-- The slots of a query, of which there are none if they are not given. -/
def givenSlots (req : Request) : List String :=
  match req.queryGet "slots" with
  | none => []
  | some raw => slotPieces raw

theorem reads_givenSlots (req : Request) :
    Reads (parseSlotsCsv (req.queryGet "slots") req.path) ((givenSlots req).map slotVerdict) := by
  unfold givenSlots
  cases req.queryGet "slots" with
  | none => rfl
  | some raw => exact reads_parseSlotsCsv raw req.path

/-- The `GET` endpoints with a slot or an index. -/
inductive IdentifierRoute where
  | storage
  | proof
  | blockTransaction
  deriving DecidableEq

/-- The handler of an endpoint. -/
def IdentifierRoute.handler : IdentifierRoute → App → Request → Handler Response
  | storage => accountStorage
  | proof => accountProof
  | blockTransaction => getBlockTransactionByIndex

/-- The identifiers of a request, in the order they are parsed. -/
def IdentifierRoute.verdicts (req : Request) : IdentifierRoute → List Verdict
  | storage => [addressVerdict (req.matched "addr")] ++ ([slotVerdict (req.matched "slot")]
      ++ [blockVerdict ((req.queryGet "at").getD "latest")])
  | proof => [addressVerdict (req.matched "addr")]
      ++ ([blockVerdict ((req.queryGet "at").getD "latest")] ++ (givenSlots req).map slotVerdict)
  | blockTransaction => [blockVerdict (req.matched "id")] ++ [indexVerdict (req.matched "index")]

theorem opening_identifiers (app : App) (req : Request) (route : IdentifierRoute) :
    opening (route.handler app req) = first (route.verdicts req) := by
  cases route with
  | storage =>
      refine (opening_of_read fun _ => rfl).trans ((reads_address _ _).unless fun addr _ => ?_)
      exact (reads_parseSlot _ _).unless fun slot _ => (reads_parseAt req).last
  | proof =>
      refine (opening_of_read fun _ => rfl).trans ((reads_address _ _).unless fun addr _ => ?_)
      exact (reads_parseAt req).unless fun bid _ => (reads_givenSlots req).last
  | blockTransaction =>
      refine (opening_of_read fun _ => rfl).trans ((reads_blockId _ _).unless fun bid _ => ?_)
      exact reads_index req bid

/-- **Identifiers are parsed by their grammar and nothing else escapes**, except for numbers that
are too long; and their parameters tell them apart, except for numbers the size of a hash. -/
theorem identifiers_exact (s t raw path : String) (route : IdentifierRoute) (app : App)
    (req : Request) :
    (BlockIdExact s ↔ ¬ TooLong s ∧ ∀ n, nameOf s = some (.number n) → ¬ HashSized n) ∧
    (SameParam s t ↔ ¬ (Collide s t ∧ ¬ TooLong s ∧ ¬ TooLong t)) ∧
    (ByGrammar (slotValue s ≠ none) (parseSlot s path) ↔ ¬ TooLong s) ∧
    (ByGrammar (∀ piece ∈ slotPieces raw, slotValue piece ≠ none)
      (parseSlotsCsv (some raw) path) ↔ first ((slotPieces raw).map slotVerdict) ≠ .broken) ∧
    (AnsweredOrAsked (route.handler app req) ↔ first (route.verdicts req) ≠ .broken) := by
  refine ⟨blockIdExact_iff, sameParam_iff s t, parseSlot_byGrammar s path,
    parseSlotsCsv_byGrammar raw path, ?_⟩
  rw [answeredOrAsked_iff, opening_identifiers]

/-- A number with one digit more than `int` reads. -/
def ones : String := String.ofList (List.replicate (maxStrDigits + 1) '1')

theorem tooLong_ones : TooLong ones := by
  unfold TooLong ones
  rw [String.toList_ofList, List.length_replicate]
  refine ⟨?_, Nat.lt_succ_self _⟩
  unfold decimalRe
  rw [List.isEmpty_replicate, List.all_replicate]
  rfl

/-- The request for the storage at such a slot. -/
def onesRequest : Request :=
  { path := "/accounts/0x0000000000000000000000000000000000000000/storage/" ++ ones, query := [],
    matchInfo := [("addr", "0x0000000000000000000000000000000000000000"), ("slot", ones)] }

/-- **`int` refuses it**, as a block and as a slot. -/
theorem not_identifiers_exact :
    ¬ BlockIdExact ones ∧
      ¬ AnsweredOrAsked (IdentifierRoute.handler .storage (sampleApp 1000 10000) onesRequest) := by
  constructor
  · exact fun h => (blockIdExact_iff.mp h).1 tooLong_ones
  · rw [answeredOrAsked_iff, opening_identifiers]
    have hslot : slotVerdict ones = .broken := slotVerdict_eq_broken.mpr tooLong_ones
    have haddr : addressVerdict "0x0000000000000000000000000000000000000000" = .fine := by
      decide +kernel
    have hverdicts : IdentifierRoute.verdicts onesRequest .storage =
        [.fine, .broken, blockVerdict "latest"] := by
      rw [← hslot, ← haddr]
      rfl
    rw [hverdicts]
    exact fun h => h rfl

end ExecRestApi
