/-
What the exposition says of the calls before it.

Each sample belongs to one family by its name, and within the family to one label set, so the
samples are those of the dictionaries, and these hold what the calls come to.

The condition of `exposed_iff` is about what was recorded and not about the text: that the sums
are finite and the numbers can be printed.  Where it does not hold, there is no text at all or
it has a value that is no number.
-/
import ExecRestApi.Proofs.MetricsRun

namespace ExecRestApi

open Py Exposition Tally

namespace Metrics

/-! ### Families and their samples

A counter or a gauge has one sample for each label set, a histogram one for each bucket and two
more.  The names of a family are told from those of another by their ends.
-/

/-- The names of the samples of a family. -/
def Family.names : Family → List String
  | .counter k => [k.name]
  | .histogram t => [t.name ++ "_bucket", t.name ++ "_sum", t.name ++ "_count"]
  | .gauge g => [g.name]

/-- No name belongs to two families. -/
theorem Family.eq_of_names {f f' : Family} {name : String} (h : name ∈ f.names)
    (h' : name ∈ f'.names) : f = f' := by
  have hall : ∀ f ∈ Family.all, ∀ f' ∈ Family.all, ∀ name ∈ f.names, name ∈ f'.names → f = f' := by
    decide +kernel
  exact hall f f.mem_all f' f'.mem_all name h h'

/-- The three names of a histogram are different. -/
theorem histogram_names (t : HistogramId) : t.name ++ "_bucket" ≠ t.name ++ "_sum" ∧
    t.name ++ "_bucket" ≠ t.name ++ "_count" ∧ t.name ++ "_sum" ≠ t.name ++ "_count" := by
  cases t <;> decide +kernel

/-- The bounds of the buckets, with what stands for them. -/
def bounds : List (String × Flt) :=
  defaultBuckets.map (fun b => (leText b, b)) ++ [("+Inf", .inf false)]

theorem bucket_mem_bounds {b : Flt} (hb : b ∈ defaultBuckets) : (leText b, b) ∈ bounds := by
  rw [bounds, List.mem_append]
  exact .inl (List.mem_map_of_mem hb)

theorem inf_mem_bounds : ("+Inf", .inf false) ∈ bounds := by
  rw [bounds, List.mem_append]
  exact .inr (List.mem_singleton_self _)

/-- **The text of a bound is read as the bound**, rounded as every number is. -/
theorem float?_bound {le : String} {b : Flt} (h : (le, b) ∈ bounds) :
    float? le.toList = some b := by
  have hall : ∀ p ∈ bounds, float? p.1.toList = some p.2 := by decide +kernel
  exact hall (le, b) h

theorem nodup_bounds : (bounds.map Prod.fst).Nodup := by decide +kernel

/-- A bucket. -/
def bucketSample (t : HistogramId) (labels : Labels) (xs : List Flt) (p : String × Flt) : Sample :=
  ⟨t.name ++ "_bucket", labels ++ [("le", p.1)], .finite (xs.countP fun x => x.le p.2), none⟩

/-- The samples of some observations. -/
def seriesSamples (t : HistogramId) (labels : Labels) (xs : List Flt) : List Sample :=
  bounds.map (bucketSample t labels xs) ++
    [⟨t.name ++ "_sum", labels, (Number.float (seriesOf xs).sum).shown, none⟩,
      ⟨t.name ++ "_count", labels, .finite xs.length, none⟩]

/-- The last bucket holds every observation that is a number. -/
theorem countP_inf {xs : List Flt} (hfinite : ∀ x ∈ xs, x.isFinite = true) :
    (xs.countP fun x => x.le (.inf false)) = xs.length :=
  List.countP_eq_length.mpr fun x hx => Flt.le_inf (hfinite x hx)

theorem samples_seriesOf {t : HistogramId} {labels : Labels} {xs : List Flt}
    (hfinite : ∀ x ∈ xs, x.isFinite = true) :
    Series.samples t.name labels (seriesOf xs) = seriesSamples t labels xs := by
  have hzip : defaultBuckets.zip (seriesOf xs).buckets
      = defaultBuckets.map fun b => (b, xs.countP fun x => x.le b) := by
    rw [List.map_prod_left_eq_zip, seriesOf]
  rw [Series.samples, seriesSamples, bounds, hzip, List.map_map, List.map_append, List.map_map,
    List.append_assoc]
  simp only [bucketSample, List.map_singleton, countP_inf hfinite]
  rfl

theorem mem_seriesSamples {t : HistogramId} {labels : Labels} {xs : List Flt} {s : Sample} :
    s ∈ seriesSamples t labels xs ↔ (∃ p ∈ bounds, s = bucketSample t labels xs p) ∨
      s = ⟨t.name ++ "_sum", labels, (Number.float (seriesOf xs).sum).shown, none⟩ ∨
      s = ⟨t.name ++ "_count", labels, .finite xs.length, none⟩ := by
  simp [seriesSamples, eq_comm]

/-! ### The samples of the registry

The text is read back as lists of samples, and `mem_samples` says which there are: one for each
entry of each dictionary of the registry.
-/

/-- The lines that the text is read as. -/
def lines (m : Metrics) : List Line := Family.all.flatMap m.linesOf

/-- The samples of a family. -/
def samplesOf (m : Metrics) : Family → List Sample
  | .counter k => (sortedItems (m.counter k).values).flatMap fun p =>
      Counter.samples (m.counter k).name p.1 p.2
  | .histogram t => (sortedItems (m.histogram t).series).flatMap fun p =>
      Series.samples (m.histogram t).name p.1 p.2
  | .gauge g => (sortedItems (m.gauge g).values).flatMap fun p =>
      Gauge.samples (m.gauge g).name p.1 p.2

theorem samples_familyLines {υ : Type} {name helpText kind : String} {values : Dict Labels υ}
    {g : Labels → υ → List Sample} : samples (familyLines name helpText kind values g)
      = (sortedItems values).flatMap fun p => g p.1 p.2 := by
  rw [familyLines]
  split_ifs with hnil
  · have hperm := perm_sortedItems values
    rw [hnil] at hperm
    rw [hperm.eq_nil]
    rfl
  · show samples ((sortedItems values).flatMap _) = _
    rw [samples_flatMap]
    simp only [samples_map]

theorem samples_lines (m : Metrics) : samples m.lines = Family.all.flatMap m.samplesOf := by
  rw [lines, samples_flatMap]
  refine List.flatMap_congr fun f _ => ?_
  cases f <;> exact samples_familyLines

theorem mem_samples {m : Metrics} {s : Sample} :
    s ∈ samples m.lines ↔ ∃ f, s ∈ m.samplesOf f := by
  rw [samples_lines, List.mem_flatMap]
  exact ⟨fun ⟨f, _, hs⟩ => ⟨f, hs⟩, fun ⟨f, hs⟩ => ⟨f, f.mem_all, hs⟩⟩

/-- Every observation is a number if the sum of all of them is one. -/
theorem Printable.isFinite {ops : List Op} (hp : Printable ops) (t : HistogramId)
    (labels : Labels) : ∀ x ∈ observed t labels ops, x.isFinite = true :=
  (Flt.isFinite_of_foldl_add (hp.sum t labels)).2

section

variable {m : Metrics} {ops : List Op}

theorem Reflects.mem_counter (h : Reflects m ops) {k : CounterId} {s : Sample} :
    s ∈ m.samplesOf (.counter k) ↔ ∃ labels, 0 < total k labels ops ∧
      s = ⟨k.name, labels, .finite (total k labels ops), none⟩ := by
  simp only [samplesOf, List.mem_flatMap, mem_sortedItems, Counter.samples, List.mem_singleton,
    (h.counterNames k).1]
  constructor
  · rintro ⟨⟨labels, n⟩, hmem, rfl⟩
    obtain ⟨hne, rfl⟩ := (h.counter k).mem_entries.mp hmem
    exact ⟨labels, List.length_pos_iff.mpr hne, rfl⟩
  · rintro ⟨labels, hpos, rfl⟩
    exact ⟨(labels, _), (h.counter k).mem_entries.mpr ⟨List.length_pos_iff.mp hpos, rfl⟩, rfl⟩

theorem Reflects.mem_histogram (h : Reflects m ops) (hp : Printable ops) {t : HistogramId}
    {s : Sample} : s ∈ m.samplesOf (.histogram t) ↔ ∃ labels, observed t labels ops ≠ [] ∧
      s ∈ seriesSamples t labels (observed t labels ops) := by
  simp only [samplesOf, List.mem_flatMap, mem_sortedItems, (h.histogramNames t).1]
  constructor
  · rintro ⟨⟨labels, series⟩, hmem, hs⟩
    obtain ⟨hne, rfl⟩ := (h.histogram t).mem_entries.mp hmem
    refine ⟨labels, hne, ?_⟩
    rw [← samples_seriesOf (hp.isFinite t labels)]
    exact hs
  · rintro ⟨labels, hne, hs⟩
    rw [← samples_seriesOf (hp.isFinite t labels)] at hs
    exact ⟨(labels, _), (h.histogram t).mem_entries.mpr ⟨hne, rfl⟩, hs⟩

theorem Reflects.mem_gauge (h : Reflects m ops) {g : GaugeId} {s : Sample} :
    s ∈ m.samplesOf (.gauge g) ↔ ∃ labels, settings g labels ops ≠ [] ∧
      s = ⟨g.name, labels, .finite ((settings g labels ops).getLastD 0 : Int), none⟩ := by
  simp only [samplesOf, List.mem_flatMap, mem_sortedItems, Gauge.samples, List.mem_singleton,
    (h.gaugeNames g).1]
  constructor
  · rintro ⟨⟨labels, v⟩, hmem, rfl⟩
    obtain ⟨hne, rfl⟩ := (h.gauge g).mem_entries.mp hmem
    exact ⟨labels, hne, rfl⟩
  · rintro ⟨labels, hne, rfl⟩
    exact ⟨(labels, _), (h.gauge g).mem_entries.mpr ⟨hne, rfl⟩, rfl⟩

end

/-- The label sets that were recorded for a family. -/
def Family.labelSets (ops : List Op) : Family → List Labels
  | .counter k => (ops.filterMap (Op.increment k)).map Prod.fst
  | .histogram t => (ops.filterMap (Op.observation t)).map Prod.fst
  | .gauge g => (ops.filterMap (Op.setting g)).map Prod.fst

/-- The names of the labels of a sample. -/
def Family.labelNames : Family → String → List String
  | .counter k, _ => k.labelNames
  | .histogram t, name =>
      if name = t.name ++ "_bucket" then t.labelNames ++ ["le"] else t.labelNames
  | .gauge g, _ => g.labelNames

theorem Family.nodup_labelNames (f : Family) (name : String) : (f.labelNames name).Nodup := by
  cases f with
  | counter k =>
      rw [labelNames]
      cases k <;> decide
  | histogram t =>
      rw [labelNames]
      split_ifs <;> cases t <;> decide
  | gauge g =>
      rw [labelNames]
      cases g <;> decide

/-- A sample is a bucket with its bound, or it has the labels alone. -/
theorem labels_of_mem_seriesSamples {t : HistogramId} {labels : Labels} {xs : List Flt}
    {s : Sample} (h : s ∈ seriesSamples t labels xs) :
    (s.name = t.name ++ "_bucket" ∧ ∃ le, s.labels = labels ++ [("le", le)]) ∨
      (s.name ≠ t.name ++ "_bucket" ∧ s.labels = labels) := by
  obtain ⟨hsum, hcount, -⟩ := histogram_names t
  rcases mem_seriesSamples.mp h with ⟨p, -, rfl⟩ | rfl | rfl
  · exact .inl ⟨rfl, p.1, rfl⟩
  · exact .inr ⟨hsum.symm, rfl⟩
  · exact .inr ⟨hcount.symm, rfl⟩

/-- What a sample of a family looks like. -/
structure Shape (ops : List Op) (f : Family) (s : Sample) : Prop where
  name : s.name ∈ f.names
  labels : ∃ labels ∈ f.labelSets ops,
    s.labels = labels ∨ ∃ le, s.labels = labels ++ [("le", le)]
  labelNames : s.labels.map Prod.fst = f.labelNames s.name
  timestamp : s.timestamp = none

/-- **Every sample has the labels of a call**, and perhaps the bound of a bucket. -/
theorem Reflects.shape {m : Metrics} {ops : List Op} (h : Reflects m ops) (hp : Printable ops)
    {f : Family} {s : Sample} (hs : s ∈ m.samplesOf f) : Shape ops f s := by
  cases f with
  | counter k =>
      obtain ⟨labels, hpos, rfl⟩ := h.mem_counter.mp hs
      have hne := List.length_pos_iff.mp hpos
      exact ⟨List.mem_singleton_self _, ⟨labels, under_ne_nil.mp hne, .inl rfl⟩,
        map_fst_of_under labelNames_of_increment hne, rfl⟩
  | histogram t =>
      obtain ⟨labels, hne, hs⟩ := (h.mem_histogram hp).mp hs
      have hnames := map_fst_of_under labelNames_of_observation hne
      have hname : s.name ∈ (Family.histogram t).names ∧ s.timestamp = none := by
        rcases mem_seriesSamples.mp hs with ⟨p, -, rfl⟩ | rfl | rfl <;>
          simp [Family.names, bucketSample]
      refine ⟨hname.1, ⟨labels, under_ne_nil.mp hne, ?_⟩, ?_, hname.2⟩
      · rcases labels_of_mem_seriesSamples hs with ⟨-, hle⟩ | ⟨-, hl⟩
        · exact .inr hle
        · exact .inl hl
      · rw [Family.labelNames]
        rcases labels_of_mem_seriesSamples hs with ⟨hbucket, le, hle⟩ | ⟨hbucket, hl⟩
        · rw [if_pos hbucket, hle, List.map_append, hnames]
          rfl
        · rw [if_neg hbucket, hl, hnames]
  | gauge g =>
      obtain ⟨labels, hne, rfl⟩ := h.mem_gauge.mp hs
      exact ⟨List.mem_singleton_self _, ⟨labels, under_ne_nil.mp hne, .inl rfl⟩,
        map_fst_of_under labelNames_of_setting hne, rfl⟩

/-! ### No two samples are of one series

Two samples are apart by name or by labels.  Entries of one dictionary have different keys, and
the buckets of one histogram different bounds.
-/

/-- Two samples are of different series. -/
def Apart (s s' : Sample) : Prop := ¬ s.SameSeries s'

theorem pairwise_sortedItems {υ : Type} (d : Dict Labels υ) :
    (sortedItems d).Pairwise fun p q => p.1 ≠ q.1 := by
  have hnodup : ((sortedItems d).map Prod.fst).Nodup :=
    ((perm_sortedItems d).map Prod.fst).nodup_iff.mpr d.nodup
  exact List.pairwise_map.mp hnodup

/-- Series are apart if those of a label set are, and if each says which label set it is of. -/
theorem pairwise_flatMap {υ : Type} {d : Dict Labels υ} {g : Labels → υ → List Sample}
    (hin : ∀ p ∈ d.entries, (g p.1 p.2).Pairwise Apart)
    (hout : ∀ p ∈ d.entries, ∀ q ∈ d.entries, ∀ s ∈ g p.1 p.2, ∀ s' ∈ g q.1 q.2,
      s.SameSeries s' → p.1 = q.1) :
    ((sortedItems d).flatMap fun p => g p.1 p.2).Pairwise Apart := by
  rw [List.pairwise_flatMap]
  refine ⟨fun p hp => hin p (mem_sortedItems.mp hp), ?_⟩
  refine (pairwise_sortedItems d).imp_of_mem fun hp hq hne s hs s' hs' hsame => ?_
  exact hne (hout _ (mem_sortedItems.mp hp) _ (mem_sortedItems.mp hq) s hs s' hs' hsame)

section

variable {m : Metrics} {ops : List Op}

/-- Within a family the names of the labels are settled by the name of the sample. -/
theorem Reflects.labels_eq (h : Reflects m ops) (hp : Printable ops) {f : Family} {s s' : Sample}
    (hs : s ∈ m.samplesOf f) (hs' : s' ∈ m.samplesOf f) (hsame : s.SameSeries s') :
    s.labels = s'.labels := by
  have hnames := (h.shape hp hs).labelNames
  have hnames' := (h.shape hp hs').labelNames
  refine eq_of_perm ?_ ?_ hsame.2
  · rw [hnames, hnames', hsame.1]
  · rw [hnames]
    exact f.nodup_labelNames s.name

/-- The samples of a family with one for each label set are apart. -/
theorem Reflects.pairwise_single (h : Reflects m ops) (hp : Printable ops) {υ : Type}
    (d : Dict Labels υ) (name : String) (x : υ → Flt) {f : Family}
    (hf : m.samplesOf f = (sortedItems d).flatMap fun p => [⟨name, p.1, x p.2, none⟩]) :
    (m.samplesOf f).Pairwise Apart := by
  have hmem : ∀ p ∈ d.entries, ⟨name, p.1, x p.2, none⟩ ∈ m.samplesOf f := by
    intro p hpm
    rw [hf]
    exact List.mem_flatMap.mpr ⟨p, mem_sortedItems.mpr hpm, List.mem_singleton_self _⟩
  rw [hf]
  refine pairwise_flatMap (g := fun labels v => [⟨name, labels, x v, none⟩])
    (fun p _ => List.pairwise_singleton _ _) ?_
  intro p hpm q hqm s hs s' hs' hsame
  rw [List.mem_singleton.mp hs, List.mem_singleton.mp hs'] at hsame
  exact h.labels_eq hp (hmem p hpm) (hmem q hqm) hsame

/-- Two buckets of a label set have different bounds. -/
theorem Reflects.pairwise_series (h : Reflects m ops) (hp : Printable ops) {t : HistogramId}
    {labels : Labels} (hne : observed t labels ops ≠ []) :
    (seriesSamples t labels (observed t labels ops)).Pairwise Apart := by
  obtain ⟨hsum, hcount, hboth⟩ := histogram_names t
  have hbounds : bounds.Pairwise fun p q => p.1 ≠ q.1 := List.pairwise_map.mp nodup_bounds
  have hmem : ∀ p ∈ bounds,
      bucketSample t labels (observed t labels ops) p ∈ m.samplesOf (.histogram t) :=
    fun p hb => (h.mem_histogram hp).mpr ⟨labels, hne, mem_seriesSamples.mpr (.inl ⟨p, hb, rfl⟩)⟩
  rw [seriesSamples, List.pairwise_append, List.pairwise_map]
  refine ⟨?_, ?_, ?_⟩
  · refine hbounds.imp_of_mem fun hb hb' hle hsame => ?_
    have hlabels := h.labels_eq hp (hmem _ hb) (hmem _ hb') hsame
    have hlast := List.append_cancel_left hlabels
    injection hlast with hlast
    exact hle (Prod.ext_iff.mp hlast).2
  · exact List.pairwise_pair.mpr fun hsame => hboth hsame.1
  · intro s hs s' hs' hsame
    obtain ⟨p, -, rfl⟩ := List.mem_map.mp hs
    rcases List.mem_pair.mp hs' with rfl | rfl
    · exact hsum hsame.1
    · exact hcount hsame.1

theorem Reflects.pairwise_histogram (h : Reflects m ops) (hp : Printable ops) (t : HistogramId) :
    (m.samplesOf (.histogram t)).Pairwise Apart := by
  have hsamples : ∀ p ∈ (m.histogram t).series.entries, observed t p.1 ops ≠ [] ∧
      Series.samples (m.histogram t).name p.1 p.2
        = seriesSamples t p.1 (observed t p.1 ops) := by
    intro p hmem
    obtain ⟨hne, hseries⟩ := (h.histogram t).mem_entries.mp hmem
    rw [(h.histogramNames t).1, hseries, ← samples_seriesOf (hp.isFinite t p.1)]
    exact ⟨hne, rfl⟩
  refine pairwise_flatMap ?_ ?_
  · intro p hpm
    rw [(hsamples p hpm).2]
    exact h.pairwise_series hp (hsamples p hpm).1
  · intro p hpm q hqm s hs s' hs' hsame
    have hmem : s ∈ m.samplesOf (.histogram t) :=
      List.mem_flatMap.mpr ⟨p, mem_sortedItems.mpr hpm, hs⟩
    have hmem' : s' ∈ m.samplesOf (.histogram t) :=
      List.mem_flatMap.mpr ⟨q, mem_sortedItems.mpr hqm, hs'⟩
    have hlabels := h.labels_eq hp hmem hmem' hsame
    rw [(hsamples p hpm).2] at hs
    rw [(hsamples q hqm).2] at hs'
    rcases labels_of_mem_seriesSamples hs with ⟨hb, le, hle⟩ | ⟨hb, hl⟩
    · rcases labels_of_mem_seriesSamples hs' with ⟨-, le', hle'⟩ | ⟨hb', -⟩
      · rw [hle, hle'] at hlabels
        exact List.append_inj_left' hlabels rfl
      · exact absurd (hsame.1.symm.trans hb) hb'
    · rcases labels_of_mem_seriesSamples hs' with ⟨hb', -⟩ | ⟨-, hl'⟩
      · exact absurd (hsame.1.trans hb') hb
      · rwa [hl, hl'] at hlabels

/-- **No series is exposed twice.** -/
theorem Reflects.pairwise_samples (h : Reflects m ops) (hp : Printable ops) :
    (samples m.lines).Pairwise Apart := by
  rw [samples_lines, List.pairwise_flatMap]
  refine ⟨?_, ?_⟩
  · intro f _
    cases f with
    | counter k =>
        exact h.pairwise_single hp (m.counter k).values (m.counter k).name (fun n => .finite n) rfl
    | histogram t => exact h.pairwise_histogram hp t
    | gauge g => exact h.pairwise_single hp (m.gauge g).values (m.gauge g).name Number.shown rfl
  · have hnodup : Family.all.Nodup := by decide
    refine hnodup.imp fun hne s hs s' hs' hsame => hne ?_
    have hname := (h.shape hp hs).name
    rw [hsame.1] at hname
    exact Family.eq_of_names hname (h.shape hp hs').name

end

/-! ### How many lines there are

Every sample has its own line, so counting lines counts samples.
-/

/-- How many samples a family has for a label set. -/
def Family.samplesEach : Family → Nat
  | .histogram _ => defaultBuckets.length + 3
  | _ => 1

/-- How many lines a family has: two comments and the samples of each label set. -/
def Family.lineCount (ops : List Op) (f : Family) : Nat :=
  let sets := (f.labelSets ops).dedup.length
  if sets = 0 then 0 else 2 + sets * f.samplesEach

theorem length_flatMap_of_forall {α β : Type} {l : List α} {f : α → List β} {n : Nat}
    (h : ∀ a ∈ l, (f a).length = n) : (l.flatMap f).length = l.length * n := by
  have hmap : l.map (fun a => (f a).length) = List.replicate l.length n :=
    List.map_eq_replicate_iff.mpr h
  rw [List.length_flatMap, hmap, List.sum_replicate_nat]

theorem length_familyLines {υ : Type} {name helpText kind : String} {values : Dict Labels υ}
    {g : Labels → υ → List Sample} {n : Nat}
    (hg : ∀ p ∈ values.entries, (g p.1 p.2).length = n) :
    (familyLines name helpText kind values g).length =
      if values.entries.length = 0 then 0 else 2 + values.entries.length * n := by
  rw [familyLines]
  simp only [List.length_eq_zero_iff]
  split_ifs with hnil
  · rfl
  · rw [List.length_cons, List.length_cons, length_flatMap_of_forall (n := n),
      (perm_sortedItems values).length_eq]
    · omega
    · intro p hp
      rw [List.length_map, hg p (mem_sortedItems.mp hp)]

theorem Reflects.length_linesOf {m : Metrics} {ops : List Op} (h : Reflects m ops) (f : Family) :
    (m.linesOf f).length = f.lineCount ops := by
  cases f with
  | counter k =>
      rw [linesOf, length_familyLines fun p _ => rfl, (h.counter k).length_entries]
      rfl
  | histogram t =>
      rw [linesOf, length_familyLines (n := defaultBuckets.length + 3),
        (h.histogram t).length_entries]
      · rfl
      · intro p hp
        rw [((h.histogram t).mem_entries.mp hp).2]
        simp [Series.samples, seriesOf]
  | gauge g =>
      rw [linesOf, length_familyLines fun p _ => rfl, (h.gauge g).length_entries]
      rfl

/-! ### The exposition is faithful

For each counter, bucket and gauge the sample that is there has the value that the calls come
to.  A bucket counts every observation up to its bound, so the counts rise from one to the
next, and the last is the count.
-/

/-- What an exposition says of some calls. -/
structure Faithful (ops : List Op) (lines : List Line) : Prop where
  /-- A counter has a sample for each label set it was incremented with, which is the total. -/
  counter : ∀ (k : CounterId) labels x, ⟨k.name, labels, x, none⟩ ∈ samples lines ↔
    0 < total k labels ops ∧ x = .finite (total k labels ops)
  /-- A bucket counts the observations up to its bound. -/
  bucket : ∀ (t : HistogramId) labels le x,
    ⟨t.name ++ "_bucket", labels ++ [("le", le)], x, none⟩ ∈ samples lines →
    ∃ b, float? le.toList = some b ∧
      x = .finite ((observed t labels ops).countP fun y => y.le b)
  /-- There is a bucket for each bound, the infinite one among them. -/
  bounded : ∀ (t : HistogramId) labels, observed t labels ops ≠ [] → ∀ b ∈ defaultBuckets ++ [.inf false],
    ∃ le x, float? le.toList = some b ∧
      ⟨t.name ++ "_bucket", labels ++ [("le", le)], x, none⟩ ∈ samples lines
  /-- The buckets do not fall. -/
  rising : ∀ (t : HistogramId) labels le le' x x' b b',
    ⟨t.name ++ "_bucket", labels ++ [("le", le)], x, none⟩ ∈ samples lines →
    ⟨t.name ++ "_bucket", labels ++ [("le", le')], x', none⟩ ∈ samples lines →
    float? le.toList = some b → float? le'.toList = some b' → b.le b' = true →
    x.le x' = true
  /-- The last bucket is the count. -/
  last : ∀ (t : HistogramId) labels x,
    ⟨t.name ++ "_bucket", labels ++ [("le", "+Inf")], x, none⟩ ∈ samples lines ↔
      ⟨t.name ++ "_count", labels, x, none⟩ ∈ samples lines
  /-- The count is that of the observations. -/
  count : ∀ (t : HistogramId) labels x, ⟨t.name ++ "_count", labels, x, none⟩ ∈ samples lines ↔
    observed t labels ops ≠ [] ∧ x = .finite (observed t labels ops).length
  /-- No two samples are of one series. -/
  apart : (samples lines).Pairwise fun s s' => ¬ s.SameSeries s'
  /-- Every sample is of a family and has the labels of a call. -/
  shape : ∀ s ∈ samples lines, ∃ f, Shape ops f s
  /-- There are no other lines than the comments and samples of what was recorded. -/
  size : lines.length = (Family.all.map fun f => f.lineCount ops).sum

section

variable {m : Metrics} {ops : List Op}

/-- A sample is one of the family its name belongs to. -/
theorem Reflects.mem_samples_iff (h : Reflects m ops) (hp : Printable ops) {f : Family}
    {s : Sample} (hname : s.name ∈ f.names) : s ∈ samples m.lines ↔ s ∈ m.samplesOf f := by
  rw [mem_samples]
  constructor
  · rintro ⟨f', hs⟩
    rwa [Family.eq_of_names hname (h.shape hp hs).name]
  · exact fun hs => ⟨f, hs⟩

theorem Reflects.counter_iff (h : Reflects m ops) (hp : Printable ops) (k : CounterId)
    (labels : Labels) (x : Flt) : ⟨k.name, labels, x, none⟩ ∈ samples m.lines ↔
      0 < total k labels ops ∧ x = .finite (total k labels ops) := by
  rw [h.mem_samples_iff hp (f := .counter k) (List.mem_singleton_self _), h.mem_counter]
  constructor
  · rintro ⟨labels', hpos, heq⟩
    injection heq with _ hlabels hx
    subst hlabels
    exact ⟨hpos, hx⟩
  · rintro ⟨hpos, rfl⟩
    exact ⟨labels, hpos, rfl⟩

theorem Reflects.bucket_iff (h : Reflects m ops) (hp : Printable ops) (t : HistogramId)
    (labels : Labels) (le : String) (x : Flt) :
    ⟨t.name ++ "_bucket", labels ++ [("le", le)], x, none⟩ ∈ samples m.lines ↔
      observed t labels ops ≠ [] ∧ ∃ b, (le, b) ∈ bounds ∧
        x = .finite ((observed t labels ops).countP fun y => y.le b) := by
  obtain ⟨hsum, hcount, -⟩ := histogram_names t
  rw [h.mem_samples_iff hp (f := .histogram t) (by simp [Family.names]), h.mem_histogram hp]
  constructor
  · rintro ⟨labels', hne, hs⟩
    rcases mem_seriesSamples.mp hs with ⟨⟨le', b⟩, hb, heq⟩ | heq | heq
    · injection heq with _ hlabels hx
      obtain ⟨rfl, hle⟩ := List.append_inj' hlabels rfl
      injection hle with hle
      injection hle with _ hle
      exact ⟨hne, b, by rwa [hle], hx⟩
    · injection heq with hname
      exact absurd hname hsum
    · injection heq with hname
      exact absurd hname hcount
  · rintro ⟨hne, b, hb, rfl⟩
    exact ⟨labels, hne, mem_seriesSamples.mpr (.inl ⟨(le, b), hb, rfl⟩)⟩

theorem Reflects.count_iff (h : Reflects m ops) (hp : Printable ops) (t : HistogramId)
    (labels : Labels) (x : Flt) : ⟨t.name ++ "_count", labels, x, none⟩ ∈ samples m.lines ↔
      observed t labels ops ≠ [] ∧ x = .finite (observed t labels ops).length := by
  obtain ⟨-, hbucket, hsum⟩ := histogram_names t
  rw [h.mem_samples_iff hp (f := .histogram t) (by simp [Family.names]), h.mem_histogram hp]
  constructor
  · rintro ⟨labels', hne, hs⟩
    rcases mem_seriesSamples.mp hs with ⟨p, hb, heq⟩ | heq | heq
    · injection heq with hname
      exact absurd hname.symm hbucket
    · injection heq with hname
      exact absurd hname.symm hsum
    · injection heq with _ hlabels hx
      subst hlabels
      exact ⟨hne, hx⟩
  · rintro ⟨hne, rfl⟩
    exact ⟨labels, hne, mem_seriesSamples.mpr (.inr (.inr rfl))⟩

theorem countP_le_of_le {xs : List Flt} {b b' : Flt} (hle : b.le b' = true) :
    (xs.countP fun y => y.le b) ≤ xs.countP fun y => y.le b' :=
  List.countP_mono_left fun _ _ hy => Flt.le_trans hy hle

theorem Reflects.bounded (h : Reflects m ops) (hp : Printable ops) {t : HistogramId}
    {labels : Labels} (hne : observed t labels ops ≠ []) {b : Flt}
    (hb : b ∈ defaultBuckets ++ [.inf false]) : ∃ le x, float? le.toList = some b ∧
      ⟨t.name ++ "_bucket", labels ++ [("le", le)], x, none⟩ ∈ samples m.lines := by
  have hmem : ∃ le, (le, b) ∈ bounds := by
    rcases List.mem_append.mp hb with hb | hb
    · exact ⟨leText b, bucket_mem_bounds hb⟩
    · rw [List.mem_singleton.mp hb]
      exact ⟨"+Inf", inf_mem_bounds⟩
  obtain ⟨le, hle⟩ := hmem
  exact ⟨le, _, float?_bound hle, (h.bucket_iff hp t labels le _).mpr ⟨hne, b, hle, rfl⟩⟩

theorem Reflects.rising (h : Reflects m ops) (hp : Printable ops) {t : HistogramId}
    {labels : Labels} {le le' : String} {x x' b b' : Flt}
    (hs : ⟨t.name ++ "_bucket", labels ++ [("le", le)], x, none⟩ ∈ samples m.lines)
    (hs' : ⟨t.name ++ "_bucket", labels ++ [("le", le')], x', none⟩ ∈ samples m.lines)
    (hb : float? le.toList = some b) (hb' : float? le'.toList = some b')
    (hle : b.le b' = true) : x.le x' = true := by
  obtain ⟨-, c, hc, rfl⟩ := (h.bucket_iff hp t labels le x).mp hs
  obtain ⟨-, c', hc', rfl⟩ := (h.bucket_iff hp t labels le' x').mp hs'
  have hbc : b = c := Option.some.inj (hb.symm.trans (float?_bound hc))
  have hbc' : b' = c' := Option.some.inj (hb'.symm.trans (float?_bound hc'))
  rw [← hbc, ← hbc']
  simpa [Flt.le] using countP_le_of_le hle

/-- The bucket without a bound holds every observation. -/
theorem Reflects.last_iff (h : Reflects m ops) (hp : Printable ops) (t : HistogramId)
    (labels : Labels) (x : Flt) :
    ⟨t.name ++ "_bucket", labels ++ [("le", "+Inf")], x, none⟩ ∈ samples m.lines ↔
      ⟨t.name ++ "_count", labels, x, none⟩ ∈ samples m.lines := by
  have hall := countP_inf (hp.isFinite t labels)
  have hinf := float?_bound inf_mem_bounds
  rw [h.bucket_iff hp, h.count_iff hp]
  refine and_congr_right fun _ => ?_
  constructor
  · rintro ⟨b, hb, rfl⟩
    rw [← Option.some.inj (hinf.symm.trans (float?_bound hb)), hall]
  · rintro rfl
    exact ⟨.inf false, inf_mem_bounds, by rw [hall]⟩

/-- **What reflects the calls is exposed faithfully.** -/
theorem Reflects.faithful (h : Reflects m ops) (hp : Printable ops) : Faithful ops m.lines where
  counter := h.counter_iff hp
  bucket t labels le x hs := by
    obtain ⟨-, b, hb, hx⟩ := (h.bucket_iff hp t labels le x).mp hs
    exact ⟨b, float?_bound hb, hx⟩
  bounded _ _ hne _ hb := h.bounded hp hne hb
  rising _ _ _ _ _ _ _ _ hs hs' hb hb' hle := h.rising hp hs hs' hb hb' hle
  last := h.last_iff hp
  count := h.count_iff hp
  apart := h.pairwise_samples hp
  shape s hs := by
    obtain ⟨f, hs⟩ := mem_samples.mp hs
    exact ⟨f, h.shape hp hs⟩
  size := by
    rw [lines, List.length_flatMap]
    exact congrArg List.sum (List.map_congr_left fun f _ => h.length_linesOf f)

end

/-- The calls are exposed: there is a text, the grammar accepts it, and what it says is faithful. -/
def Exposed (ops : List Op) : Prop :=
  ∃ text lines, (after ops).render = .ok text ∧ parse text = some lines ∧ Faithful ops lines

/-- **The exposition is faithful exactly if everything can be printed.** -/
theorem exposed_iff (ops : List Op) : Exposed ops ↔ Printable ops := by
  have hreflects := reflects_after ops
  constructor
  · rintro ⟨text, -, htext, -⟩
    exact hreflects.render_ok_iff.mp ⟨text, htext⟩
  · intro hp
    obtain ⟨text, htext⟩ := hreflects.render_ok_iff.mpr hp
    exact ⟨text, _, htext, hreflects.parse_render htext, hreflects.faithful hp⟩

/-- One infinite duration, or a chain head of too many digits, and nothing is exposed any more. -/
theorem not_exposed_infinite : ¬ Exposed [.observeRequestDuration (.inf false)] ∧
    ¬ Exposed [.setChainHeadBlock (10 ^ maxStrDigits : Nat)] := by
  refine ⟨?_, ?_⟩
  · rintro ⟨text, -, htext, -⟩
    have hp := (reflects_after _).render_ok_iff.mp ⟨text, htext⟩
    exact absurd (hp.sum .requestDuration []) (by decide)
  · rintro ⟨text, -, htext, -⟩
    have hp := (reflects_after _).render_ok_iff.mp ⟨text, htext⟩
    have hfits := strFits_iff.mp (hp.gauge .chainHeadBlock [])
    exact absurd hfits (by simp [settings, Op.setting, under])

end Metrics

end ExecRestApi
