/-
The text format in which metrics are exposed.

A line is blank, a comment, or a sample: the name of a metric, labels in braces, a number, and
perhaps a timestamp, with blanks between them.  In the value of a label a backslash stands before
a backslash, a quotation mark, or the `n` of a line feed, and nowhere else.  Two kinds of comments
say what a metric means and which type it has.  Every line ends with a line feed.
-/
import ExecRestApi.Lib.Double

namespace Exposition

open Py

/-- A sample of a series. -/
structure Sample where
  name : String
  labels : List (String × String)
  value : Flt
  timestamp : Option Int := none
  deriving DecidableEq

/-- The same metric with the same labels, in whatever order they are. -/
def Sample.SameSeries (s t : Sample) : Prop := s.name = t.name ∧ s.labels.Perm t.labels

/-- A line that has been read.  The description of a metric is kept as it is written. -/
inductive Line where
  | blank
  | comment
  | help (name description : String)
  | type (name kind : String)
  | sample (s : Sample)
  deriving DecidableEq

/-- The sample of a line. -/
def Line.sample? : Line → Option Sample
  | .sample s => some s
  | _ => none

/-- The samples of an exposition. -/
def samples (lines : List Line) : List Sample := lines.filterMap Line.sample?

@[simp] theorem samples_nil : samples [] = [] := rfl

@[simp] theorem samples_append (l l' : List Line) : samples (l ++ l') = samples l ++ samples l' :=
  List.filterMap_append

@[simp] theorem samples_map (l : List Sample) : samples (l.map .sample) = l := by
  simp [samples, List.filterMap_map, Function.comp_def, Line.sample?]

theorem samples_flatMap {α : Type} (l : List α) (g : α → List Line) :
    samples (l.flatMap g) = l.flatMap fun a => samples (g a) := by
  induction l with
  | nil => rfl
  | cons a l ih => simp [ih]

/-- Labels of the same names in the same order are the same if they are in some order. -/
theorem eq_of_perm : ∀ {l l' : List (String × String)}, l.map Prod.fst = l'.map Prod.fst →
    (l.map Prod.fst).Nodup → l.Perm l' → l = l' := by
  intro l
  induction l with
  | nil => exact fun _ _ h => h.nil_eq
  | cons p l ih =>
      intro l' hnames hnodup h
      cases l' with
      | nil => cases hnames
      | cons p' l' =>
          rw [List.map_cons, List.map_cons, List.cons.injEq] at hnames
          have hp : p = p' := by
            rcases List.mem_cons.mp (h.mem_iff.mp List.mem_cons_self) with hp | hp
            · exact hp
            · rw [List.map_cons, List.nodup_cons, hnames.2] at hnodup
              exact absurd (List.mem_map_of_mem hp) hnodup.1
          subst hp
          rw [List.map_cons, List.nodup_cons] at hnodup
          rw [ih hnames.2 hnodup.2 h.cons_inv]

/-! ### Reading -/

def isBlank (c : Char) : Bool := c == ' ' || c == '\t'

/-- Go over blanks. -/
def skipBlanks (cs : List Char) : List Char := cs.dropWhile isBlank

/-- The characters of a name; only the name of a metric may hold a colon. -/
def nameChar (colon : Bool) (c : Char) : Bool := c.isAlphanum || c == '_' || (colon && c == ':')

/-- A name, which does not begin with a digit. -/
def isName (colon : Bool) (cs : List Char) : Bool :=
  cs ≠ [] && cs.all (nameChar colon) && !(cs.head?.any Char.isDigit)

/-- A name, and what follows it. -/
def readName (colon : Bool) (cs : List Char) : Option (List Char × List Char) :=
  let name := cs.takeWhile (nameChar colon)
  if isName colon name then some (name, cs.dropWhile (nameChar colon)) else none

/-- What a backslash and a character stand for. -/
def unescape : Char → Option Char
  | '\\' => some '\\'
  | '"' => some '"'
  | 'n' => some '\n'
  | _ => none

/-- The value of a label up to the closing quotation mark, and what follows that. -/
def readValue : List Char → Option (List Char × List Char)
  | [] => none
  | '"' :: cs => some ([], cs)
  | ['\\'] => none
  | '\\' :: c :: cs => do
      let c ← unescape c
      let (value, cs) ← readValue cs
      pure (c :: value, cs)
  | c :: cs => do
      let (value, cs) ← readValue cs
      pure (c :: value, cs)

/-- A label, and what follows it. -/
def readLabel (cs : List Char) : Option ((String × String) × List Char) := do
  let (name, cs) ← readName false (skipBlanks cs)
  match skipBlanks cs with
  | '=' :: cs =>
      match skipBlanks cs with
      | '"' :: cs => do
          let (value, cs) ← readValue cs
          pure ((String.ofList name, String.ofList value), skipBlanks cs)
      | _ => none
  | _ => none

/-- The labels up to the closing brace, and what follows that.  A comma may stand behind the last
one. -/
def readLabels : Nat → List Char → Option (List (String × String) × List Char)
  | 0, _ => none
  | fuel + 1, cs =>
      match skipBlanks cs with
      | '}' :: cs => some ([], cs)
      | cs => do
          let (label, cs) ← readLabel cs
          match cs with
          | ',' :: cs => do
              let (labels, cs) ← readLabels fuel cs
              pure (label :: labels, cs)
          | '}' :: cs => pure ([label], cs)
          | _ => none

/-- The labels behind the name of a metric, if there are any. -/
def readLabelPart (cs : List Char) : Option (List (String × String) × List Char) :=
  match skipBlanks cs with
  | '{' :: rest => readLabels (rest.length + 1) rest
  | _ => if cs.head?.any isBlank then some ([], cs) else none

/-- The words between blanks. -/
def words (cs : List Char) : List (List Char) :=
  (splitOn ' ' (cs.map fun c => if isBlank c then ' ' else c)).filter fun word => word ≠ []

/-- What a number is written with. -/
def numberChar (c : Char) : Bool := 33 ≤ c.toNat && c.toNat < 127 && c != '_'

/-- A number.  Those in hexadecimal are left out. -/
def number? (word : List Char) : Option Flt := if word.all numberChar then floatLiteral? word else none

/-- A whole number. -/
def integer? (word : List Char) : Option Int :=
  if word.all numberChar then int? (String.ofList word) else none

/-- The value of a sample, and when it was taken. -/
def readNumbers (cs : List Char) : Option (Flt × Option Int) :=
  match words cs with
  | [value] => (number? value).map fun x => (x, none)
  | [value, timestamp] => do
      let x ← number? value
      let t ← integer? timestamp
      pure (x, some t)
  | _ => none

def readSample (cs : List Char) : Option Sample := do
  let (name, cs) ← readName true cs
  let (labels, cs) ← readLabelPart cs
  let (value, timestamp) ← readNumbers cs
  pure ⟨String.ofList name, labels, value, timestamp⟩

def kinds : List String := ["counter", "gauge", "histogram", "summary", "untyped"]

/-- A comment: the word behind its `#`, and what follows that. -/
def readComment (keyword rest : List Char) : Option Line :=
  if keyword = "HELP".toList then
    let name := rest.takeWhile fun c => !isBlank c
    if isName true name then
      some (.help (String.ofList name)
        (String.ofList (skipBlanks (rest.dropWhile fun c => !isBlank c))))
    else none
  else if keyword = "TYPE".toList then
    match words rest with
    | [name, kind] =>
        if isName true name && kinds.contains (String.ofList kind) then
          some (.type (String.ofList name) (String.ofList kind))
        else none
    | _ => none
  else some .comment

/-- A line without its end. -/
def readLine (cs : List Char) : Option Line :=
  match skipBlanks cs with
  | [] => some .blank
  | '#' :: rest =>
      let rest := skipBlanks rest
      readComment (rest.takeWhile fun c => !isBlank c) (skipBlanks (rest.dropWhile fun c => !isBlank c))
  | cs => (readSample cs).map .sample

/-- The lines of an exposition, `none` where the grammar does not accept it. -/
def parse (cs : List Char) : Option (List Line) :=
  let pieces := splitOn '\n' cs
  if pieces.getLast? = some [] then pieces.dropLast.mapM readLine else none

/-! ### Writing -/

/-- A character of the value of a label. -/
def escape (c : Char) : List Char :=
  if c = '\\' then ['\\', '\\']
  else if c = '\n' then ['\\', 'n']
  else if c = '"' then ['\\', '"']
  else [c]

/-- A label. -/
def labelText (l : String × String) : List Char :=
  l.1.toList ++ '=' :: '"' :: (l.2.toList.flatMap escape ++ ['"'])

/-- Labels in braces. -/
def labelsText (labels : List (String × String)) : List Char :=
  if labels = [] then [] else '{' :: ([','].intercalate (labels.map labelText) ++ ['}'])

/-- A sample with its value as it is written. -/
def sampleText (name : String) (labels : List (String × String)) (value : List Char) : List Char :=
  name.toList ++ (labelsText labels ++ ' ' :: value)

/-- Lines, each with its end. -/
def unlines (lines : List (List Char)) : List Char := lines.flatMap fun line => line ++ ['\n']

example : parse "# TYPE a counter\na \x7bb=\"x\\\"\\n\", c=\"\\\\\",\x7d 3 -7\n\n#\n".toList
    = some [.type "a" "counter", .sample ⟨"a", [("b", "x\"\n"), ("c", "\\")], .finite 3, some (-7)⟩,
        .blank, .comment]
    ∧ parse "a\x7bb=\"x\\y\"\x7d 3\n".toList = none ∧ parse "a 3".toList = none := by
  decide +kernel

/-! ### What is written is read -/

theorem skipBlanks_cons {c : Char} (h : isBlank c = false) (cs : List Char) :
    skipBlanks (c :: cs) = c :: cs := by
  rw [skipBlanks, List.dropWhile_cons_of_neg]
  rw [h]
  nofun

@[simp] theorem skipBlanks_space (cs : List Char) : skipBlanks (' ' :: cs) = skipBlanks cs := by
  rw [skipBlanks, List.dropWhile_cons_of_pos (by decide)]
  rfl

/-- The characters of a name are visible, and none of them ends a name. -/
theorem plain_of_nameChar {colon : Bool} {c : Char} (h : nameChar colon c = true) :
    isBlank c = false ∧ c ≠ '\n' ∧ c ≠ '#' ∧ c ≠ '}' := by
  refine ⟨?_, ?_, ?_, ?_⟩
  · rw [isBlank, Bool.or_eq_false_iff, beq_eq_false_iff_ne, beq_eq_false_iff_ne]
    refine ⟨?_, ?_⟩
    · rintro rfl
      cases colon <;> cases h
    · rintro rfl
      cases colon <;> cases h
  · rintro rfl
    cases colon <;> cases h
  · rintro rfl
    cases colon <;> cases h
  · rintro rfl
    cases colon <;> cases h

theorem isName_iff {colon : Bool} {cs : List Char} : isName colon cs = true ↔
    cs ≠ [] ∧ (∀ c ∈ cs, nameChar colon c = true) ∧ cs.head?.any Char.isDigit = false := by
  simp [isName, and_assoc]

/-- A name begins with one of its characters. -/
theorem exists_cons_of_isName {colon : Bool} {cs : List Char} (h : isName colon cs = true) :
    ∃ c rest, cs = c :: rest ∧ nameChar colon c = true := by
  obtain ⟨hne, hall, -⟩ := isName_iff.mp h
  obtain ⟨c, rest, rfl⟩ := List.exists_cons_of_ne_nil hne
  exact ⟨c, rest, rfl, hall c List.mem_cons_self⟩

theorem skipBlanks_name {colon : Bool} {name : List Char} (h : isName colon name = true)
    (rest : List Char) : skipBlanks (name ++ rest) = name ++ rest := by
  obtain ⟨c, cs, rfl, hc⟩ := exists_cons_of_isName h
  exact skipBlanks_cons (plain_of_nameChar hc).1 _

/-- A name is read up to the first character that cannot be in it. -/
theorem readName_append {colon : Bool} {name : List Char} (hname : isName colon name = true)
    {rest : List Char} (hrest : rest.head?.any (nameChar colon) = false) :
    readName colon (name ++ rest) = some (name, rest) := by
  have hall := (isName_iff.mp hname).2.1
  have hstop : rest.takeWhile (nameChar colon) = [] ∧ rest.dropWhile (nameChar colon) = rest := by
    cases rest with
    | nil => exact ⟨rfl, rfl⟩
    | cons c rest =>
        have hc : ¬ nameChar colon c = true := by simpa using hrest
        exact ⟨List.takeWhile_cons_of_neg hc, List.dropWhile_cons_of_neg hc⟩
  rw [readName, List.takeWhile_append_of_pos hall, hstop.1, List.append_nil, if_pos hname,
    List.dropWhile_append_of_pos hall, hstop.2]

/-- **A value is read back, whatever is in it.** -/
theorem readValue_escape (value rest : List Char) :
    readValue (value.flatMap escape ++ '"' :: rest) = some (value, rest) := by
  induction value with
  | nil => rw [List.flatMap_nil, List.nil_append, readValue]
  | cons c value ih =>
      rw [List.flatMap_cons, List.append_assoc, escape]
      split_ifs with hback hline hquote
      · rw [hback, List.cons_append, List.cons_append, List.nil_append, readValue, ih]
        rfl
      · rw [hline, List.cons_append, List.cons_append, List.nil_append, readValue, ih]
        rfl
      · rw [hquote, List.cons_append, List.cons_append, List.nil_append, readValue, ih]
        rfl
      · rw [List.singleton_append, readValue, ih]
        · rfl
        · exact hquote
        · exact fun heq _ => absurd heq hback
        · exact fun _ _ heq _ => absurd heq hback

theorem newline_not_mem_escape (value : List Char) : '\n' ∉ value.flatMap escape := by
  rw [List.mem_flatMap]
  rintro ⟨c, -, hc⟩
  rw [escape] at hc
  split_ifs at hc with hback hline hquote
  · simp at hc
  · simp at hc
  · simp at hc
  · exact hline (List.mem_singleton.mp hc).symm

theorem skipBlanks_labelText {l : String × String} (hname : isName false l.1.toList = true)
    (rest : List Char) : skipBlanks (labelText l ++ rest) = labelText l ++ rest := by
  rw [labelText, List.append_assoc]
  exact skipBlanks_name hname _

/-- A label whose name is a name is read back, with nothing of what follows it. -/
theorem readLabel_text {l : String × String} (hname : isName false l.1.toList = true)
    (rest : List Char) : readLabel (labelText l ++ rest) = some (l, skipBlanks rest) := by
  have hskip := skipBlanks_labelText hname rest
  obtain ⟨name, value⟩ := l
  have htext : labelText (name, value) ++ rest
      = name.toList ++ '=' :: '"' :: (value.toList.flatMap escape ++ '"' :: rest) := by
    simp [labelText]
  rw [readLabel, hskip, htext, readName_append hname (by rfl)]
  simp only [Option.bind_eq_bind, Option.bind_some]
  have hquote : isBlank '"' = false := by decide
  rw [skipBlanks_cons (by decide)]
  simp [skipBlanks_cons hquote, readValue_escape]

/-- **Labels are read back**, one after the other up to the brace. -/
theorem readLabels_text {labels : List (String × String)} (hne : labels ≠ [])
    (hnames : ∀ l ∈ labels, isName false l.1.toList = true) (rest : List Char) :
    ∀ {fuel : Nat}, labels.length ≤ fuel →
      readLabels fuel ([','].intercalate (labels.map labelText) ++ '}' :: rest)
        = some (labels, rest) := by
  induction labels with
  | nil => exact absurd rfl hne
  | cons l labels ih =>
      intro fuel hfuel
      obtain ⟨fuel, rfl⟩ : ∃ k, fuel = k + 1 := ⟨fuel - 1, by simp at hfuel; omega⟩
      have hl := hnames l List.mem_cons_self
      obtain ⟨c, cs, hcs, hc⟩ := exists_cons_of_isName hl
      have hskip := skipBlanks_labelText hl
      have hbrace : ∀ rest cs, labelText l ++ rest ≠ '}' :: cs := by
        intro rest cs heq
        rw [labelText, hcs, List.cons_append, List.cons_append] at heq
        exact (plain_of_nameChar hc).2.2.2 (List.cons.inj heq).1
      cases labels with
      | nil =>
          rw [List.map_singleton, List.intercalate_singleton, readLabels, hskip]
          split
          · rename_i heq
            exact absurd heq (hbrace _ _)
          · rw [readLabel_text hl, skipBlanks_cons (by decide)]
            rfl
      | cons l' labels =>
          rw [List.map_cons, List.map_cons, List.intercalate_cons_cons, readLabels,
            List.append_assoc, List.append_assoc, hskip]
          split
          · rename_i heq
            exact absurd heq (hbrace _ _)
          · rw [readLabel_text hl, List.singleton_append, skipBlanks_cons (by decide)]
            have hlength : (l' :: labels).length ≤ fuel := by simpa using hfuel
            have hrest := ih (by nofun) (fun x hx => hnames x (List.mem_cons_of_mem _ hx)) hlength
            simp only [Option.bind_eq_bind, Option.bind_some]
            rw [← List.map_cons, hrest]
            rfl

theorem length_le_length_intercalate (labels : List (String × String)) :
    labels.length ≤ ([','].intercalate (labels.map labelText)).length := by
  induction labels with
  | nil => simp
  | cons l labels ih =>
      have hl : 0 < (labelText l).length := by simp [labelText]
      cases labels with
      | nil => simpa [Nat.succ_le_iff] using hl
      | cons l' labels =>
          rw [List.map_cons, List.map_cons, List.intercalate_cons_cons, List.length_append,
            List.length_append]
          simp only [List.length_cons, List.map_cons, List.length_nil] at ih ⊢
          omega

/-- Digits, points and signs, which is what a number is written with. -/
def NumberText (word : List Char) : Prop := word ≠ [] ∧ ∀ c ∈ word, 45 ≤ c.toNat ∧ c.toNat ≤ 57

theorem NumberText.signed {word : List Char} (h : NumberText word) (negative : Bool) :
    NumberText ((if negative then ['-'] else []) ++ word) := by
  refine ⟨by simp [h.1], ?_⟩
  intro c hc
  rcases List.mem_append.mp hc with hc | hc
  · cases negative with
    | true =>
        rw [List.mem_singleton.mp hc]
        decide
    | false => cases hc
  · exact h.2 c hc

theorem numberText_digits (n : Nat) : NumberText (Nat.toDigits 10 n) := by
  refine ⟨Nat.toDigits_ne_nil, ?_⟩
  intro c hc
  have := toNat_of_isDecimal (isDecimal_of_mem_toDigits hc)
  omega

theorem numberText_intText (n : Int) : NumberText (intText n) := by
  have h := (numberText_digits n.natAbs).signed (decide (n < 0))
  by_cases hneg : n < 0 <;> simpa [intText, hneg] using h

theorem numberText_pointText (k n : Nat) : NumberText (pointText k n) := by
  have hplain := mem_plain (fun c hc => isDecimal_of_mem_toDigits (n := n / 10 ^ k) hc)
    (isDecimal_of_mem_paddedDigits (k := k) (n := n % 10 ^ k)) (.inl rfl)
  refine ⟨by simp [pointText], ?_⟩
  intro c hc
  have := hplain c hc
  omega

theorem numberText_roundedText (x : ℚ) : NumberText (roundedText x) := by
  have h := (numberText_pointText (fractionDigits (roundThree |x|))
    (scaled (roundThree |x|) (fractionDigits (roundThree |x|)))).signed (decide (x < 0))
  simpa [roundedText] using h

theorem NumberText.not_blank {word : List Char} (h : NumberText word) :
    ∀ c ∈ word, isBlank c = false := by
  intro c hc
  have hlow := (h.2 c hc).1
  rw [isBlank, Bool.or_eq_false_iff, beq_eq_false_iff_ne, beq_eq_false_iff_ne]
  refine ⟨?_, ?_⟩
  · rintro rfl
    exact absurd hlow (by decide)
  · rintro rfl
    exact absurd hlow (by decide)

theorem NumberText.all_numberChar {word : List Char} (h : NumberText word) :
    word.all numberChar = true := by
  rw [List.all_eq_true]
  intro c hc
  have hrange := h.2 c hc
  simp only [numberChar, Bool.and_eq_true, decide_eq_true_eq, bne_iff_ne]
  refine ⟨⟨by omega, by omega⟩, ?_⟩
  rintro rfl
  exact absurd hrange.2 (by decide)

/-- The labels behind a name are read, and the value is left. -/
theorem readLabelPart_text {labels : List (String × String)}
    (hnames : ∀ l ∈ labels, isName false l.1.toList = true) {value : List Char}
    (hvalue : NumberText value) :
    readLabelPart (labelsText labels ++ ' ' :: value) = some (labels, ' ' :: value) := by
  by_cases hne : labels = []
  · obtain ⟨c, cs, hcs⟩ := List.exists_cons_of_ne_nil hvalue.1
    have hc := hvalue.2 c (by rw [hcs]; exact List.mem_cons_self)
    have hblank := hvalue.not_blank c (by rw [hcs]; exact List.mem_cons_self)
    rw [labelsText, if_pos hne, List.nil_append, readLabelPart, hne, skipBlanks_space, hcs,
      skipBlanks_cons hblank]
    split
    · rename_i heq
      rw [(List.cons.inj heq).1] at hc
      exact absurd hc.2 (by decide)
    · rfl
  · have htext : labelsText labels ++ ' ' :: value = '{' ::
        ([','].intercalate (labels.map labelText) ++ '}' :: ' ' :: value) := by
      simp [labelsText, hne]
    rw [htext, readLabelPart, skipBlanks_cons (by decide)]
    apply readLabels_text hne hnames
    have := length_le_length_intercalate labels
    rw [List.length_append]
    omega

theorem words_space (cs : List Char) : words (' ' :: cs) = words cs := by
  rw [words, List.map_cons]
  rfl

section

variable {word : List Char} (hne : word ≠ []) (hword : ∀ c ∈ word, isBlank c = false)

include hword in
theorem map_blank : word.map (fun c => if isBlank c then ' ' else c) = word := by
  rw [List.map_congr_left (g := id), List.map_id]
  intro c hc
  simp [hword c hc]

include hword in
theorem space_not_mem : ' ' ∉ word := fun hmem => absurd (hword ' ' hmem) (by decide)

include hne hword in
theorem words_singleton : words word = [word] := by
  rw [words, map_blank hword, splitOn_of_not_mem (space_not_mem hword)]
  simp [hne]

include hne hword in
theorem words_cons (rest : List Char) : words (word ++ ' ' :: rest) = word :: words rest := by
  rw [words, List.map_append, List.map_cons, map_blank hword]
  show (splitOn ' ' (word ++ ' ' :: _)).filter _ = _
  rw [splitOn_append (space_not_mem hword), List.filter_cons_of_pos (by simpa using hne)]
  rfl

end

theorem readNumbers_text {value : List Char} (hvalue : NumberText value) {x : Flt}
    (hread : floatLiteral? value = some x) : readNumbers (' ' :: value) = some (x, none) := by
  rw [readNumbers, words_space, words_singleton hvalue.1 hvalue.not_blank]
  simp [number?, hvalue.all_numberChar, hread]

theorem newline_not_mem_name {colon : Bool} {name : List Char} (h : isName colon name = true) :
    '\n' ∉ name :=
  fun hmem => (plain_of_nameChar ((isName_iff.mp h).2.1 _ hmem)).2.1 rfl

theorem newline_not_mem_labelText {l : String × String} (h : isName false l.1.toList = true) :
    '\n' ∉ labelText l := by
  have hname := newline_not_mem_name h
  have hvalue := newline_not_mem_escape l.2.toList
  simp [labelText, hname, hvalue]

theorem newline_not_mem_labelsText {labels : List (String × String)}
    (hnames : ∀ l ∈ labels, isName false l.1.toList = true) : '\n' ∉ labelsText labels := by
  have hinter : '\n' ∉ [','].intercalate (labels.map labelText) := by
    induction labels with
    | nil => simp
    | cons l labels ih =>
        have hl := newline_not_mem_labelText (hnames l List.mem_cons_self)
        cases labels with
        | nil => simpa using hl
        | cons l' labels =>
            have hrest := ih fun x hx => hnames x (List.mem_cons_of_mem _ hx)
            rw [List.map_cons] at hrest
            rw [List.map_cons, List.map_cons, List.intercalate_cons_cons]
            simp [hl, hrest]
  rw [labelsText]
  split_ifs
  · exact List.not_mem_nil
  · simp [hinter]

/-- What a line is read as, and that it is one line. -/
structure Reads (text : List Char) (line : Line) : Prop where
  read : readLine text = some line
  whole : '\n' ∉ text

/-- **A sample is read back with its labels.** -/
theorem reads_sampleText {name : String} (hname : isName true name.toList = true)
    {labels : List (String × String)} (hnames : ∀ l ∈ labels, isName false l.1.toList = true)
    {value : List Char} (hvalue : NumberText value) {x : Flt} (hread : floatLiteral? value = some x) :
    Reads (sampleText name labels value) (.sample ⟨name, labels, x, none⟩) := by
  obtain ⟨c, cs, hcs, hc⟩ := exists_cons_of_isName hname
  have hplain := plain_of_nameChar hc
  refine ⟨?_, ?_⟩
  · have hskip : skipBlanks (sampleText name labels value) = sampleText name labels value :=
      skipBlanks_name hname _
    have hsample : readSample (sampleText name labels value) = some ⟨name, labels, x, none⟩ := by
      have hstop : (labelsText labels ++ ' ' :: value).head?.any (nameChar true) = false := by
        rw [labelsText]
        split_ifs <;> rfl
      rw [readSample, sampleText, readName_append hname hstop]
      simp [readLabelPart_text hnames hvalue, readNumbers_text hvalue hread]
    rw [readLine, hskip]
    split
    · rename_i heq
      rw [sampleText, hcs] at heq
      cases heq
    · rename_i heq
      rw [sampleText, hcs, List.cons_append] at heq
      exact absurd (List.cons.inj heq).1 hplain.2.2.1
    · rw [hsample]
      rfl
  · have hvalue' : '\n' ∉ value := by
      intro hmem
      exact absurd (hvalue.2 _ hmem).1 (by decide)
    simp [sampleText, newline_not_mem_name hname, newline_not_mem_labelsText hnames, hvalue']

theorem not_blank_of_isName {colon : Bool} {name : List Char} (h : isName colon name = true) :
    ∀ c ∈ name, isBlank c = false :=
  fun c hc => (plain_of_nameChar ((isName_iff.mp h).2.1 c hc)).1

/-- A word ends at the first blank. -/
theorem span_word {word : List Char} (hword : ∀ c ∈ word, isBlank c = false) (rest : List Char) :
    (word ++ ' ' :: rest).takeWhile (fun c => !isBlank c) = word ∧
      (word ++ ' ' :: rest).dropWhile (fun c => !isBlank c) = ' ' :: rest := by
  have hall : ∀ c ∈ word, (!isBlank c) = true := fun c hc => by simp [hword c hc]
  rw [List.takeWhile_append_of_pos hall, List.dropWhile_append_of_pos hall]
  exact ⟨List.append_nil word, rfl⟩

/-- The keyword of a comment is found, and what follows it. -/
theorem readLine_comment {keyword : List Char} (hne : keyword ≠ [])
    (hsolid : keyword.all (fun c => !isBlank c) = true) (rest : List Char) :
    readLine ('#' :: ' ' :: (keyword ++ ' ' :: rest)) = readComment keyword (skipBlanks rest) := by
  have hword : ∀ c ∈ keyword, isBlank c = false := by simpa using hsolid
  have hskip : skipBlanks (keyword ++ ' ' :: rest) = keyword ++ ' ' :: rest := by
    obtain ⟨c, cs, rfl⟩ := List.exists_cons_of_ne_nil hne
    exact skipBlanks_cons (hword c List.mem_cons_self) _
  obtain ⟨htake, hdrop⟩ := span_word hword rest
  rw [readLine, skipBlanks_cons (by decide)]
  simp [hskip, htake, hdrop]

/-- A comment that describes a metric. -/
theorem reads_help {name : String} (hname : isName true name.toList = true)
    {description : List Char} (hfirst : description.head?.any isBlank = false)
    (hwhole : '\n' ∉ description) :
    Reads ("# HELP ".toList ++ (name.toList ++ ' ' :: description))
      (.help name (String.ofList description)) := by
  have hdescription : skipBlanks description = description := by
    cases description with
    | nil => rfl
    | cons c cs => exact skipBlanks_cons (by simpa using hfirst) cs
  obtain ⟨htake, hdrop⟩ := span_word (not_blank_of_isName hname) description
  have htext : "# HELP ".toList ++ (name.toList ++ ' ' :: description)
      = '#' :: ' ' :: ("HELP".toList ++ ' ' :: (name.toList ++ ' ' :: description)) := rfl
  refine ⟨?_, ?_⟩
  · rw [htext, readLine_comment (by decide) (by decide), skipBlanks_name hname, readComment,
      if_pos rfl]
    simp [htake, hdrop, hname, hdescription]
  · simp [newline_not_mem_name hname, hwhole]

/-- A comment that gives the type of a metric. -/
theorem reads_type {name : String} (hname : isName true name.toList = true) {kind : String}
    (hkind : kind ∈ kinds) :
    Reads ("# TYPE ".toList ++ (name.toList ++ ' ' :: kind.toList)) (.type name kind) := by
  have hkinds : ∀ kind ∈ kinds, kind.toList ≠ [] ∧
      kind.toList.all (fun c => !isBlank c) = true ∧ '\n' ∉ kind.toList := by
    decide
  obtain ⟨hne, hsolid, hnewline⟩ := hkinds kind hkind
  have hwords : words (name.toList ++ ' ' :: kind.toList) = [name.toList, kind.toList] := by
    rw [words_cons (isName_iff.mp hname).1 (not_blank_of_isName hname),
      words_singleton hne (by simpa using hsolid)]
  have htext : "# TYPE ".toList ++ (name.toList ++ ' ' :: kind.toList)
      = '#' :: ' ' :: ("TYPE".toList ++ ' ' :: (name.toList ++ ' ' :: kind.toList)) := rfl
  refine ⟨?_, ?_⟩
  · rw [htext, readLine_comment (by decide) (by decide), skipBlanks_name hname, readComment,
      if_neg (by decide), if_pos rfl, hwords]
    simp [hname, hkind]
  · simp [newline_not_mem_name hname, hnewline]

theorem unlines_eq_intercalate {lines : List (List Char)} (hne : lines ≠ []) :
    unlines lines = ['\n'].intercalate lines ++ ['\n'] := by
  induction lines with
  | nil => exact absurd rfl hne
  | cons line lines ih =>
      cases lines with
      | nil => simp [unlines]
      | cons line' lines =>
          have hrest := ih (by nofun)
          rw [unlines] at hrest ⊢
          rw [List.flatMap_cons, hrest, List.intercalate_cons_cons]
          simp

theorem splitOn_unlines {lines : List (List Char)} (h : ∀ line ∈ lines, '\n' ∉ line) :
    splitOn '\n' (unlines lines) = lines ++ [[]] := by
  induction lines with
  | nil => rfl
  | cons line lines ih =>
      have hrest := ih fun x hx => h x (List.mem_cons_of_mem _ hx)
      rw [unlines] at hrest ⊢
      rw [List.flatMap_cons, List.append_assoc, List.singleton_append,
        splitOn_append (h line List.mem_cons_self), hrest, List.cons_append]

/-- **Lines that are read one by one are read together.** -/
theorem parse_unlines {texts : List (List Char)} {lines : List Line}
    (h : List.Forall₂ Reads texts lines) : parse (unlines texts) = some lines := by
  have hwhole : ∀ text ∈ texts, '\n' ∉ text := by
    induction h with
    | nil => simp
    | cons hline _ ih => simpa using ⟨hline.whole, ih⟩
  have hread : texts.mapM readLine = some lines := by
    induction h with
    | nil => rfl
    | cons hline _ ih =>
        rw [List.mapM_cons, hline.read, ih fun text ht => hwhole text (List.mem_cons_of_mem _ ht)]
        rfl
  rw [parse, splitOn_unlines hwhole]
  simp [hread]

end Exposition
