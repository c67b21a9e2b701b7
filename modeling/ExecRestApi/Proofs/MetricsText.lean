/-
The exporter writes what the text format reads.

Each line that is rendered is read as the comment or the sample that it is for, whatever the
values of its labels are.  So if the text gets rendered at all, parsing it gives back the families
of the registry one by one.

Nothing is assumed of the values of labels: an escaped quote, a backslash or a line break in
one is read as what it was.
-/
import ExecRestApi.Lib.Exposition
import ExecRestApi.Model.Metrics

namespace ExecRestApi

open Py Exposition

/-! ### Label values and numbers

The renderer prints an integer without a point and a float rounded.  `ReadsAs` is how either is
read back; what cannot be printed raises.
-/

/-- **The three replacements escape each character once.**  The backslashes come first, so the ones
that are written for the others are left alone. -/
theorem escapeLabelValue_eq (v : List Char) : escapeLabelValue v = v.flatMap escape := by
  rw [escapeLabelValue, replace, replace, replace, List.flatMap_assoc, List.flatMap_assoc]
  refine List.flatMap_congr fun c _ => ?_
  rw [escape]
  split_ifs with hback hline hquote
  · rfl
  · subst hline
    rfl
  · subst hquote
    rfl
  · simp [hline, hquote]

theorem formatLabels_eq (labels : Labels) : formatLabels labels = labelsText labels := by
  rw [formatLabels, labelsText]
  split_ifs
  · rfl
  · simp only [escapeLabelValue_eq]
    rfl

/-- The number that is printed for a number. -/
def Number.shown : Number → Flt
  | .int n => .finite n
  | .float (.finite x) => if x.den = 1 then .finite x else .finite (roundedNumber x)
  | .float x => x

/-- Whether `_format_number` prints a number at all. -/
def Number.prints : Number → Bool
  | .int n => strFits n
  | .float (.finite x) => if x.den = 1 then strFits x.num else true
  | .float _ => false

/-- The text of a value and what it is read as. -/
def ReadsAs (value : String) (x : Flt) : Prop :=
  NumberText value.toList ∧ floatLiteral? value.toList = some x

theorem strInt_ok_iff {n : Int} : (∃ s, strInt n = .ok s) ↔ strFits n = true := by
  rw [strInt]
  split_ifs with h <;> simp [h]

theorem readsAs_strInt {n : Int} {s : String} (h : strInt n = .ok s) : ReadsAs s (.finite n) := by
  rw [strInt] at h
  split_ifs at h
  injection h with h
  rw [← h]
  simpa [ReadsAs] using ⟨numberText_intText n, floatLiteral?_intText n⟩

theorem formatNumber_ok_iff {v : Number} : (∃ s, formatNumber v = .ok s) ↔ v.prints = true := by
  cases v with
  | int n => exact strInt_ok_iff
  | float x =>
      cases x with
      | finite x =>
          rw [formatNumber, Number.prints]
          split_ifs
          · exact strInt_ok_iff
          · simp
      | _ => simp [formatNumber, Number.prints]

theorem readsAs_formatNumber {v : Number} {s : String} (h : formatNumber v = .ok s) :
    ReadsAs s v.shown := by
  cases v with
  | int n => exact readsAs_strInt h
  | float x =>
      cases x with
      | finite x =>
          rw [formatNumber] at h
          rw [Number.shown]
          split_ifs at h ⊢ with hden
          · have hx : ((x.num : Int) : ℚ) = x := Rat.coe_int_num_of_den_eq_one hden
            rw [← hx]
            exact readsAs_strInt h
          · injection h with h
            rw [← h]
            simpa [ReadsAs] using ⟨numberText_roundedText x, floatLiteral?_roundedText x⟩
      | inf negative => cases h
      | nan => cases h

/-- **A line with a value is a sample with these labels and no others.** -/
theorem reads_sampleLine {name : String} (hname : isName true name.toList = true)
    {labels : Labels} (hnames : ∀ l ∈ labels, isName false l.1.toList = true) {value : String}
    {x : Flt} (hvalue : ReadsAs value x) :
    Reads (sampleLine name labels value) (.sample ⟨name, labels, x, none⟩) := by
  rw [sampleLine, formatLabels_eq]
  exact reads_sampleText hname hnames hvalue.1 hvalue.2

/-! ### Traversals that raise

A family is rendered line by line and the first line that raises ends it.  So if there is a
text, every line was rendered, and the lines can be read one after the other.
-/

/-- Texts that are rendered piece by piece are read piece by piece. -/
theorem reads_flatten_mapM {α : Type} {f : α → Except Exc (List (List Char))} {g : α → List Line}
    {xs : List α} (hf : ∀ x ∈ xs, ∀ texts, f x = .ok texts → List.Forall₂ Reads texts (g x)) :
    ∀ {out : List (List (List Char))}, xs.mapM f = .ok out →
      List.Forall₂ Reads out.flatten (xs.flatMap g) := by
  induction xs with
  | nil =>
      intro out h
      rw [mapM_nil_eq_ok.mp h]
      exact .nil
  | cons x xs ih =>
      intro out h
      obtain ⟨z, zs, hz, hzs, rfl⟩ := mapM_cons_eq_ok.mp h
      rw [List.flatten_cons, List.flatMap_cons]
      exact List.rel_append (hf x List.mem_cons_self z hz)
        (ih (fun y hy => hf y (List.mem_cons_of_mem _ hy)) hzs)

/-! ### A family of series

The series of a family come sorted by their labels.  The order does not matter to what is read,
as the samples are those of a permutation.
-/

/-- The lines of a family: two comments and its samples, if there are any values. -/
def familyLines {υ : Type} (name helpText kind : String) (values : Dict Labels υ)
    (samples : Labels → υ → List Sample) : List Line :=
  if values.entries = [] then []
  else .help name helpText :: .type name kind ::
    (sortedItems values).flatMap fun p => (samples p.1 p.2).map .sample

theorem perm_sortedItems {υ : Type} (d : Dict Labels υ) : (sortedItems d).Perm d.entries :=
  List.perm_insertionSort _ _

theorem mem_sortedItems {υ : Type} {d : Dict Labels υ} {p : Labels × υ} :
    p ∈ sortedItems d ↔ p ∈ d.entries :=
  (perm_sortedItems d).mem_iff

/-- The names of a family are names, and its description is one line. -/
structure WellNamed {υ : Type} (name helpText : String) (values : Dict Labels υ) : Prop where
  name : isName true name.toList = true
  help : helpText.toList.head?.any isBlank = false ∧ '\n' ∉ helpText.toList
  labels : ∀ p ∈ values.entries, ∀ l ∈ p.1, isName false l.1.toList = true

section

variable {υ : Type} {name helpText kind : String} {values : Dict Labels υ}
  {series : Labels → υ → Except Exc (List (List Char))}

theorem renderWith_ok_iff : (∃ out, renderWith name helpText kind values series = .ok out) ↔
    ∀ p ∈ values.entries, ∃ texts, series p.1 p.2 = .ok texts := by
  rw [renderWith]
  split_ifs with hnil
  · simp [hnil]
  · have hall : (∃ out, (sortedItems values).mapM (fun p => series p.1 p.2) = .ok out) ↔
        ∀ p ∈ values.entries, ∃ texts, series p.1 p.2 = .ok texts := by
      rw [exists_mapM_eq_ok]
      simp only [mem_sortedItems]
    rw [← hall]
    constructor
    · rintro ⟨out, h⟩
      obtain ⟨texts, htexts, -⟩ := bind_eq_ok.mp h
      exact ⟨texts, htexts⟩
    · rintro ⟨texts, htexts⟩
      exact ⟨_, bind_eq_ok.mpr ⟨texts, htexts, rfl⟩⟩

theorem reads_renderWith (hnamed : WellNamed name helpText values) (hkind : kind ∈ kinds)
    {samples : Labels → υ → List Sample}
    (hseries : ∀ p ∈ values.entries, ∀ texts, series p.1 p.2 = .ok texts →
      List.Forall₂ Reads texts ((samples p.1 p.2).map .sample))
    {out : List (List Char)} (h : renderWith name helpText kind values series = .ok out) :
    List.Forall₂ Reads out (familyLines name helpText kind values samples) := by
  rw [renderWith] at h
  rw [familyLines]
  split_ifs at h ⊢ with hnil
  · injection h with h
    rw [← h]
    exact .nil
  · obtain ⟨texts, htexts, h⟩ := bind_eq_ok.mp h
    injection h with h
    rw [← h]
    have hhelp := reads_help hnamed.name hnamed.help.1 hnamed.help.2
    rw [String.ofList_toList] at hhelp
    exact .cons hhelp (.cons (reads_type hnamed.name hkind)
      (reads_flatten_mapM (fun p hp => hseries p (mem_sortedItems.mp hp)) htexts))

end

/-- The sample of a counter. -/
def Counter.samples (name : String) (labels : Labels) (n : Nat) : List Sample :=
  [⟨name, labels, .finite n, none⟩]

/-- The sample of a gauge. -/
def Gauge.samples (name : String) (labels : Labels) (v : Number) : List Sample :=
  [⟨name, labels, v.shown, none⟩]

/-- What stands for the bound of a bucket. -/
def leText (b : Flt) : String := ((formatNumber (.float b)).toOption).getD ""

theorem leText_of_formatNumber {b : Flt} {le : String} (h : formatNumber (.float b) = .ok le) :
    leText b = le := by
  rw [leText, h]
  rfl

theorem prints_of_mem_defaultBuckets : ∀ b ∈ defaultBuckets, (Number.float b).prints = true := by
  decide +kernel

/-- The samples of a histogram for a label set. -/
def Series.samples (name : String) (labels : Labels) (s : Series) : List Sample :=
  (defaultBuckets.zip s.buckets).map (fun p =>
    ⟨name ++ "_bucket", labels ++ [("le", leText p.1)], .finite p.2, none⟩) ++
  [⟨name ++ "_bucket", labels ++ [("le", "+Inf")], .finite s.count, none⟩,
    ⟨name ++ "_sum", labels, (Number.float s.sum).shown, none⟩,
    ⟨name ++ "_count", labels, .finite s.count, none⟩]

theorem isName_append {name suffix : String} (hname : isName true name.toList = true)
    (hsuffix : suffix.toList.all (nameChar true) = true) :
    isName true (name ++ suffix).toList = true := by
  obtain ⟨hne, hall, hfirst⟩ := isName_iff.mp hname
  rw [String.toList_append, isName_iff]
  refine ⟨by simp [hne], ?_, ?_⟩
  · intro c hc
    rcases List.mem_append.mp hc with hc | hc
    · exact hall c hc
    · exact List.all_eq_true.mp hsuffix c hc
  · rwa [List.head?_append_of_ne_nil _ hne]

/-- A family with one sample for each label set. -/
theorem reads_single {υ : Type} {name helpText kind : String} {values : Dict Labels υ}
    (hnamed : WellNamed name helpText values) (hkind : kind ∈ kinds)
    {print : υ → Except Exc String} {x : υ → Flt}
    (hread : ∀ v s, print v = .ok s → ReadsAs s (x v)) {out : List (List Char)}
    (h : renderWith name helpText kind values (fun labels v => do
      let value ← print v
      pure [sampleLine name labels value]) = .ok out) :
    List.Forall₂ Reads out (familyLines name helpText kind values fun labels v =>
      [⟨name, labels, x v, none⟩]) := by
  refine reads_renderWith hnamed hkind ?_ h
  intro p hp texts htexts
  obtain ⟨value, hvalue, htexts⟩ := bind_eq_ok.mp htexts
  injection htexts with htexts
  rw [← htexts]
  exact .cons (reads_sampleLine hnamed.name (hnamed.labels p hp) (hread p.2 value hvalue)) .nil

theorem reads_counter {c : Counter} (hnamed : WellNamed c.name c.helpText c.values)
    {out : List (List Char)} (h : c.render = .ok out) : List.Forall₂ Reads out
      (familyLines c.name c.helpText "counter" c.values (Counter.samples c.name)) :=
  reads_single hnamed (by decide) (fun _ _ => readsAs_strInt) h

theorem reads_gauge {g : Gauge} (hnamed : WellNamed g.name g.helpText g.values)
    {out : List (List Char)} (h : g.render = .ok out) : List.Forall₂ Reads out
      (familyLines g.name g.helpText "gauge" g.values (Gauge.samples g.name)) :=
  reads_single hnamed (by decide) (fun _ _ => readsAs_formatNumber) h

theorem reads_renderSeries {name : String} (hname : isName true name.toList = true)
    {labels : Labels} (hlabels : ∀ l ∈ labels, isName false l.1.toList = true) {s : Series}
    {texts : List (List Char)} (h : Histogram.renderSeries name labels s = .ok texts) :
    List.Forall₂ Reads texts ((Series.samples name labels s).map .sample) := by
  obtain ⟨buckets, hbuckets, h⟩ := bind_eq_ok.mp h
  obtain ⟨count, hcount, h⟩ := bind_eq_ok.mp h
  obtain ⟨sum, hsum, h⟩ := bind_eq_ok.mp h
  injection h with h
  have hle : ∀ le : String, ∀ l ∈ labels ++ [("le", le)], isName false l.1.toList = true := by
    intro le l hl
    rcases List.mem_append.mp hl with hl | hl
    · exact hlabels l hl
    · rw [List.mem_singleton.mp hl]
      show isName false "le".toList = true
      decide
  have hbucket : isName true (name ++ "_bucket").toList = true :=
    isName_append hname (by decide)
  have hread : List.Forall₂ (fun p text => Reads text (.sample
      ⟨name ++ "_bucket", labels ++ [("le", leText p.1)], .finite p.2, none⟩))
      (defaultBuckets.zip s.buckets) buckets := by
    refine forall₂_of_mapM ?_ hbuckets
    intro p text htext
    obtain ⟨le, hle', htext⟩ := bind_eq_ok.mp htext
    obtain ⟨value, hvalue, htext⟩ := bind_eq_ok.mp htext
    injection htext with htext
    rw [← htext, leText_of_formatNumber hle']
    exact reads_sampleLine hbucket (hle le) (readsAs_strInt hvalue)
  rw [← h, Series.samples, List.map_append, List.map_map]
  refine List.rel_append ?_ (.cons ?_ (.cons ?_ (.cons ?_ .nil)))
  · rw [List.forall₂_map_right_iff]
    exact hread.flip
  · exact reads_sampleLine hbucket (hle "+Inf") (readsAs_strInt hcount)
  · exact reads_sampleLine (isName_append hname (by decide)) hlabels (readsAs_formatNumber hsum)
  · exact reads_sampleLine (isName_append hname (by decide)) hlabels (readsAs_strInt hcount)

theorem reads_histogram {t : Histogram} (hnamed : WellNamed t.name t.helpText t.series)
    {out : List (List Char)} (h : t.render = .ok out) : List.Forall₂ Reads out
      (familyLines t.name t.helpText "histogram" t.series (Series.samples t.name)) :=
  reads_renderWith hnamed (by decide)
    (fun p hp _ htexts => reads_renderSeries hnamed.name (hnamed.labels p hp) htexts) h

/-! ### What is printed at all

Which of the families raise is said by their numbers alone.
-/

theorem counter_ok_iff {c : Counter} :
    (∃ out, c.render = .ok out) ↔ ∀ p ∈ c.values.entries, strFits p.2 = true := by
  rw [Counter.render, renderWith_ok_iff]
  simp only [exists_bind_eq_ok, exists_pure_eq_ok, and_true, strInt_ok_iff]

theorem gauge_ok_iff {g : Gauge} :
    (∃ out, g.render = .ok out) ↔ ∀ p ∈ g.values.entries, p.2.prints = true := by
  rw [Gauge.render, renderWith_ok_iff]
  simp only [exists_bind_eq_ok, exists_pure_eq_ok, and_true, formatNumber_ok_iff]

theorem renderSeries_ok_iff {name : String} {labels : Labels} {s : Series} :
    (∃ texts, Histogram.renderSeries name labels s = .ok texts) ↔
      (∀ n ∈ (defaultBuckets.zip s.buckets).map Prod.snd, strFits n = true) ∧
        strFits s.count = true ∧ (Number.float s.sum).prints = true := by
  have hbucket : ∀ p ∈ defaultBuckets.zip s.buckets, (Number.float p.1).prints = true :=
    fun p hp => prints_of_mem_defaultBuckets p.1 (List.of_mem_zip hp).1
  rw [Histogram.renderSeries]
  simp only [exists_bind_eq_ok, exists_pure_eq_ok, and_true, exists_and_right, exists_mapM_eq_ok,
    strInt_ok_iff, formatNumber_ok_iff, List.forall_mem_map]
  refine and_congr_left fun _ => forall₂_congr fun p hp => ?_
  rw [hbucket p hp, eq_self, true_and]

end ExecRestApi
