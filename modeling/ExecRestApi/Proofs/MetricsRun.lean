/-
The registry reflects the calls.

Under each label set a counter holds how often it was incremented, a histogram what its
observations come to, and a gauge what it was last set to.  Every call keeps this.  So the names in
the text are names and it can be read, if there is a text: there is none where a sum is not a
number, or a number has too many digits.

A call is one of seven, and a family is known by an identifier: which counter, histogram or
gauge.  Everything here is said once for each kind of family and not once for each family.
-/
import ExecRestApi.Lib.Tally
import ExecRestApi.Proofs.MetricsText

namespace ExecRestApi

open Py Exposition Tally

inductive CounterId where
  | requests
  | upstreamRequests
  deriving DecidableEq

inductive HistogramId where
  | requestDuration
  | upstreamDuration
  deriving DecidableEq

inductive GaugeId where
  | sseConnections
  | upstreamSubscriptions
  | chainHeadBlock
  deriving DecidableEq

namespace Metrics

def counter (m : Metrics) : CounterId → Counter
  | .requests => m.requests
  | .upstreamRequests => m.upstreamRequests

def histogram (m : Metrics) : HistogramId → Histogram
  | .requestDuration => m.requestDuration
  | .upstreamDuration => m.upstreamDuration

def gauge (m : Metrics) : GaugeId → Gauge
  | .sseConnections => m.sseConnections
  | .upstreamSubscriptions => m.upstreamSubscriptions
  | .chainHeadBlock => m.chainHeadBlock

end Metrics

def CounterId.name (k : CounterId) : String := (Metrics.new.counter k).name
def HistogramId.name (t : HistogramId) : String := (Metrics.new.histogram t).name
def GaugeId.name (g : GaugeId) : String := (Metrics.new.gauge g).name

/-- The names of the labels of a counter. -/
def CounterId.labelNames : CounterId → List String
  | .requests => ["method", "path_template", "status"]
  | .upstreamRequests => ["method", "status"]

/-- The names of the labels of a histogram. -/
def HistogramId.labelNames : HistogramId → List String
  | .requestDuration => []
  | .upstreamDuration => ["method"]

/-- The names of the labels of a gauge. -/
def GaugeId.labelNames : GaugeId → List String
  | .sseConnections => ["stream"]
  | .upstreamSubscriptions => ["stream"]
  | .chainHeadBlock => []

namespace Metrics

/-! ### What was recorded

The record of a run is a list of calls.  A total, the observations of a series and the last
setting are read off it by label set.
-/

/-- The label set a call increments a counter with.  A status of too many digits has no text. -/
def Op.increment : CounterId → Op → Option (Labels × Unit)
  | .requests, .incRequest method pathTemplate status =>
      if strFits status then
        some ([("method", method), ("path_template", pathTemplate),
          ("status", String.ofList (intText status))], ())
      else none
  | .upstreamRequests, .incUpstream method status =>
      some ([("method", method), ("status", status)], ())
  | _, _ => none

/-- What a call lets a histogram observe. -/
def Op.observation : HistogramId → Op → Option (Labels × Flt)
  | .requestDuration, .observeRequestDuration durationSeconds => some ([], durationSeconds)
  | .upstreamDuration, .observeUpstreamDuration method durationSeconds =>
      some ([("method", method)], durationSeconds)
  | _, _ => none

/-- What a call sets a gauge to. -/
def Op.setting : GaugeId → Op → Option (Labels × Int)
  | .sseConnections, .setSseConnections stream value => some ([("stream", stream)], value)
  | .upstreamSubscriptions, .setUpstreamSubscriptions stream value =>
      some ([("stream", stream)], value)
  | .chainHeadBlock, .setChainHeadBlock value => some ([], value)
  | _, _ => none

/-- How often a counter was incremented with a label set. -/
def total (k : CounterId) (labels : Labels) (ops : List Op) : Nat :=
  (under labels (ops.filterMap (Op.increment k))).length

/-- What a histogram has observed for a label set, in order. -/
def observed (t : HistogramId) (labels : Labels) (ops : List Op) : List Flt :=
  under labels (ops.filterMap (Op.observation t))

/-- What a gauge was set to for a label set, in order. -/
def settings (g : GaugeId) (labels : Labels) (ops : List Op) : List Int :=
  under labels (ops.filterMap (Op.setting g))

/-- What a histogram holds after some observations. -/
def seriesOf (xs : List Flt) : Series where
  buckets := defaultBuckets.map fun b => xs.countP fun x => x.le b
  sum := xs.foldl Flt.add (.finite 0)
  count := xs.length

/-- What a gauge holds after it has been set. -/
def lastOf (xs : List Int) : Number := .int (xs.getLastD 0)

theorem seriesOf_concat (xs : List Flt) (x : Flt) :
    seriesOf (xs ++ [x]) = (seriesOf xs).observe x := by
  have hbuckets : ∀ bounds : List Flt,
      bounds.map (fun b => (xs ++ [x]).countP fun x => x.le b) = List.zipWith
        (fun b n => if x.le b then n + 1 else n) bounds
        (bounds.map fun b => xs.countP fun x => x.le b) := by
    intro bounds
    induction bounds with
    | nil => rfl
    | cons b bounds ih =>
        rw [List.map_cons, List.map_cons, List.zipWith_cons_cons, ih]
        split_ifs with h <;> simp [h]
  simp only [seriesOf, Series.observe, hbuckets, List.foldl_append, List.foldl_cons, List.foldl_nil,
    List.length_append, List.length_singleton]

/-! ### The registry reflects the calls

`Reflects` says of each family that its dictionary holds what the record comes to, for exactly
the label sets that occur in it.  A call adds one entry to one family.
-/

/-- The registry holds what the calls come to, under the names it was made with. -/
structure Reflects (m : Metrics) (ops : List Op) : Prop where
  counter : ∀ k, Holds List.length (m.counter k).values (ops.filterMap (Op.increment k))
  histogram : ∀ t, Holds seriesOf (m.histogram t).series (ops.filterMap (Op.observation t))
  gauge : ∀ g, Holds lastOf (m.gauge g).values (ops.filterMap (Op.setting g))
  counterNames : ∀ k, (m.counter k).name = k.name ∧
    (m.counter k).helpText = (new.counter k).helpText
  histogramNames : ∀ t, (m.histogram t).name = t.name ∧
    (m.histogram t).helpText = (new.histogram t).helpText
  gaugeNames : ∀ g, (m.gauge g).name = g.name ∧ (m.gauge g).helpText = (new.gauge g).helpText

theorem counter_step (m : Metrics) (op : Op) (k : CounterId) : (m.step op).counter k =
    (op.increment k).elim (m.counter k) fun p => (m.counter k).inc p.1 := by
  cases op with
  | incRequest method pathTemplate status =>
      rw [step, incRequest, strInt, Op.increment.eq_def]
      split_ifs with hfits
      · cases k <;> simp [hfits] <;> rfl
      · cases k <;> simp [hfits]
  | _ => cases k <;> rfl

theorem histogram_step (m : Metrics) (op : Op) (t : HistogramId) : (m.step op).histogram t =
    (op.observation t).elim (m.histogram t) fun p => (m.histogram t).observe p.1 p.2 := by
  cases op with
  | incRequest method pathTemplate status =>
      rw [step, incRequest, strInt]
      split_ifs <;> cases t <;> rfl
  | _ => cases t <;> rfl

theorem gauge_step (m : Metrics) (op : Op) (g : GaugeId) : (m.step op).gauge g =
    (op.setting g).elim (m.gauge g) fun p => (m.gauge g).set p.1 (.int p.2) := by
  cases op with
  | incRequest method pathTemplate status =>
      rw [step, incRequest, strInt]
      split_ifs <;> cases g <;> rfl
  | _ => cases g <;> rfl

section

variable {m : Metrics} {ops : List Op}

theorem filterMap_concat {α β : Type} (f : α → Option β) (xs : List α) (x : α) :
    (xs ++ [x]).filterMap f = xs.filterMap f ++ (f x).toList := by
  rw [List.filterMap_append]
  cases h : f x <;> simp [h]

theorem holds_increment (h : Reflects m ops) (op : Op) (k : CounterId) :
    Holds List.length ((m.step op).counter k).values
      ((ops ++ [op]).filterMap (Op.increment k)) := by
  rw [counter_step, filterMap_concat]
  cases op.increment k with
  | none => simpa using h.counter k
  | some p =>
      refine (h.counter k).set ?_
      rw [List.length_append, ← (h.counter k).getD p.1]
      rfl

theorem holds_observation (h : Reflects m ops) (op : Op) (t : HistogramId) :
    Holds seriesOf ((m.step op).histogram t).series
      ((ops ++ [op]).filterMap (Op.observation t)) := by
  rw [histogram_step, filterMap_concat]
  cases op.observation t with
  | none => simpa using h.histogram t
  | some p =>
      refine (h.histogram t).set ?_
      rw [seriesOf_concat, ← (h.histogram t).getD p.1]
      rfl

theorem holds_setting (h : Reflects m ops) (op : Op) (g : GaugeId) :
    Holds lastOf ((m.step op).gauge g).values ((ops ++ [op]).filterMap (Op.setting g)) := by
  rw [gauge_step, filterMap_concat]
  cases op.setting g with
  | none => simpa using h.gauge g
  | some p =>
      refine (h.gauge g).set ?_
      rw [lastOf, List.getLastD_concat]

/-- **Every call keeps it.** -/
theorem Reflects.step (h : Reflects m ops) (op : Op) : Reflects (m.step op) (ops ++ [op]) where
  counter := holds_increment h op
  histogram := holds_observation h op
  gauge := holds_setting h op
  counterNames k := by
    rw [counter_step]
    cases op.increment k <;> exact h.counterNames k
  histogramNames t := by
    rw [histogram_step]
    cases op.observation t <;> exact h.histogramNames t
  gaugeNames g := by
    rw [gauge_step]
    cases op.setting g <;> exact h.gaugeNames g

theorem reflects_new : Reflects new [] where
  counter k := by cases k <;> exact holds_empty
  histogram t := by cases t <;> exact holds_empty
  gauge g := by cases g <;> exact holds_empty
  counterNames _ := ⟨rfl, rfl⟩
  histogramNames _ := ⟨rfl, rfl⟩
  gaugeNames _ := ⟨rfl, rfl⟩

end

/-- **After any calls the registry reflects them.** -/
theorem reflects_after (ops : List Op) : Reflects (after ops) ops := by
  induction ops using List.reverseRecOn with
  | nil => exact reflects_new
  | append_singleton ops op ih =>
      rw [after, List.foldl_append]
      exact ih.step op

/-! ### The text is read back

Names come from the table of families and label names from the calls, so both are names in the
sense of the format.  The values of labels can be anything.
-/

/-- A label set that was recorded has the names that every call uses. -/
theorem map_fst_of_under {α : Type} {f : Op → Option (Labels × α)} {names : List String}
    (hf : ∀ op p, f op = some p → p.1.map Prod.fst = names) {ops : List Op} {labels : Labels}
    (h : under labels (ops.filterMap f) ≠ []) : labels.map Prod.fst = names := by
  obtain ⟨p, hp, rfl⟩ := List.mem_map.mp (under_ne_nil.mp h)
  obtain ⟨op, -, hop⟩ := List.mem_filterMap.mp hp
  exact hf op p hop

theorem labelNames_of_increment {k : CounterId} :
    ∀ op p, Op.increment k op = some p → p.1.map Prod.fst = k.labelNames := by
  intro op p h
  cases op <;> cases k <;> simp [Op.increment] at h
  · rw [← h.2]
    rfl
  · rw [← h]
    rfl

theorem labelNames_of_observation {t : HistogramId} :
    ∀ op p, Op.observation t op = some p → p.1.map Prod.fst = t.labelNames := by
  intro op p h
  cases op <;> cases t <;> simp [Op.observation] at h
  all_goals
    rw [← h]
    rfl

theorem labelNames_of_setting {g : GaugeId} :
    ∀ op p, Op.setting g op = some p → p.1.map Prod.fst = g.labelNames := by
  intro op p h
  cases op <;> cases g <;> simp [Op.setting] at h
  all_goals
    rw [← h]
    rfl

/-- A family whose labels come from the calls is well named. -/
theorem wellNamed_of_holds {α υ : Type} {name helpText : String} {values : Dict Labels υ}
    {f : List α → υ} {g : Op → Option (Labels × α)} {ops : List Op} {names : List String}
    (hname : isName true name.toList = true)
    (hhelp : helpText.toList.head?.any isBlank = false ∧ '\n' ∉ helpText.toList)
    (hholds : Holds f values (ops.filterMap g))
    (hg : ∀ op p, g op = some p → p.1.map Prod.fst = names)
    (hnames : ∀ n ∈ names, isName false n.toList = true) : WellNamed name helpText values where
  name := hname
  help := hhelp
  labels p hp l hl := by
    refine hnames l.1 ?_
    rw [← map_fst_of_under hg (hholds.mem_entries.mp hp).1]
    exact List.mem_map_of_mem hl

section

variable {m : Metrics} {ops : List Op}

theorem Reflects.wellNamed_counter (h : Reflects m ops) (k : CounterId) :
    WellNamed (m.counter k).name (m.counter k).helpText (m.counter k).values := by
  rw [(h.counterNames k).1, (h.counterNames k).2]
  refine wellNamed_of_holds ?_ ?_ (h.counter k) labelNames_of_increment ?_ <;> cases k <;> decide

theorem Reflects.wellNamed_histogram (h : Reflects m ops) (t : HistogramId) :
    WellNamed (m.histogram t).name (m.histogram t).helpText (m.histogram t).series := by
  rw [(h.histogramNames t).1, (h.histogramNames t).2]
  refine wellNamed_of_holds ?_ ?_ (h.histogram t) labelNames_of_observation ?_ <;>
    cases t <;> decide

theorem Reflects.wellNamed_gauge (h : Reflects m ops) (g : GaugeId) :
    WellNamed (m.gauge g).name (m.gauge g).helpText (m.gauge g).values := by
  rw [(h.gaugeNames g).1, (h.gaugeNames g).2]
  refine wellNamed_of_holds ?_ ?_ (h.gauge g) labelNames_of_setting ?_ <;> cases g <;> decide

end

/-- One of the metrics of the registry. -/
inductive Family where
  | counter (k : CounterId)
  | histogram (t : HistogramId)
  | gauge (g : GaugeId)
  deriving DecidableEq

/-- The families in the order in which they are rendered. -/
def Family.all : List Family :=
  [.counter .requests, .histogram .requestDuration, .counter .upstreamRequests,
    .histogram .upstreamDuration, .gauge .sseConnections, .gauge .upstreamSubscriptions,
    .gauge .chainHeadBlock]

theorem Family.mem_all (f : Family) : f ∈ Family.all := by
  cases f with
  | counter k => cases k <;> decide
  | histogram t => cases t <;> decide
  | gauge g => cases g <;> decide

/-- What a family is rendered as. -/
def renderFamily (m : Metrics) : Family → Except Exc (List (List Char))
  | .counter k => (m.counter k).render
  | .histogram t => (m.histogram t).render
  | .gauge g => (m.gauge g).render

/-- What its text is read as. -/
def linesOf (m : Metrics) : Family → List Line
  | .counter k => familyLines (m.counter k).name (m.counter k).helpText "counter"
      (m.counter k).values (Counter.samples (m.counter k).name)
  | .histogram t => familyLines (m.histogram t).name (m.histogram t).helpText "histogram"
      (m.histogram t).series (Series.samples (m.histogram t).name)
  | .gauge g => familyLines (m.gauge g).name (m.gauge g).helpText "gauge"
      (m.gauge g).values (Gauge.samples (m.gauge g).name)

theorem render_eq (m : Metrics) : m.render =
    Family.all.mapM m.renderFamily >>= fun sections => pure (unlines sections.flatten) := by
  have hlines : ∀ lines : List (List Char),
      (if lines = [] then [] else ['\n'].intercalate lines ++ ['\n']) = unlines lines := by
    intro lines
    split_ifs with hnil
    · rw [hnil]
      rfl
    · rw [unlines_eq_intercalate hnil]
  rw [render]
  simp only [hlines]
  rfl

section

variable {m : Metrics} {ops : List Op}

theorem Reflects.reads_family (h : Reflects m ops) (f : Family) {out : List (List Char)}
    (hout : m.renderFamily f = .ok out) : List.Forall₂ Reads out (m.linesOf f) := by
  cases f with
  | counter k => exact reads_counter (h.wellNamed_counter k) hout
  | histogram t => exact reads_histogram (h.wellNamed_histogram t) hout
  | gauge g => exact reads_gauge (h.wellNamed_gauge g) hout

/-- **What is rendered is read as the families of the registry.** -/
theorem Reflects.parse_render (h : Reflects m ops) {text : List Char} (htext : m.render = .ok text) :
    parse text = some (Family.all.flatMap m.linesOf) := by
  rw [render_eq] at htext
  obtain ⟨sections, hsections, htext⟩ := bind_eq_ok.mp htext
  injection htext with htext
  rw [← htext]
  exact parse_unlines (reads_flatten_mapM (fun f _ _ => h.reads_family f) hsections)

end

/-! ### What can be printed

A count is printed if it has no more digits than the limit allows, and a sum if it is finite.
`Printable` is that all of them are.
-/

/-- No number has too many digits, and no sum is infinite or no number. -/
structure Printable (ops : List Op) : Prop where
  counter : ∀ k labels, strFits (total k labels ops) = true
  count : ∀ t labels, strFits (observed t labels ops).length = true
  sum : ∀ t labels, ((observed t labels ops).foldl Flt.add (.finite 0)).isFinite = true
  gauge : ∀ g labels, strFits ((settings g labels ops).getLastD 0) = true

theorem strFits_of_lt {n : Int} {k : Nat} (hk : k ≤ maxStrDigits) (h : n.natAbs < 2 ^ k) :
    strFits n = true := by
  rw [strFits_iff]
  calc n.natAbs < 2 ^ k := h
    _ ≤ 10 ^ k := Nat.pow_le_pow_left (by decide) k
    _ ≤ 10 ^ maxStrDigits := Nat.pow_le_pow_right (by decide) hk

theorem strFits_zero : strFits 0 = true := strFits_of_lt (Nat.zero_le _) (Nat.two_pow_pos 0)

/-- A sum that is a number is a double. -/
theorem lt_of_foldl_add {xs : List Flt} {x : ℚ} (h : xs.foldl Flt.add (.finite 0) = .finite x) :
    |x| < 2 ^ 1024 := by
  induction xs using List.reverseRecOn with
  | nil =>
      injection h with h
      rw [← h, abs_zero]
      positivity
  | append_singleton xs y _ =>
      rw [List.foldl_append, List.foldl_cons, List.foldl_nil] at h
      exact Flt.lt_of_add h

/-- **A sum is printed exactly if it is a number.** -/
theorem prints_sum_iff (xs : List Flt) :
    (Number.float (xs.foldl Flt.add (.finite 0))).prints = true ↔
      (xs.foldl Flt.add (.finite 0)).isFinite = true := by
  rcases hsum : xs.foldl Flt.add (.finite 0) with x | negative | _
  · have hlt := lt_of_foldl_add hsum
    rw [Number.prints, Flt.isFinite]
    split_ifs with hden
    · have hx : ((x.num : Int) : ℚ) = x := Rat.coe_int_num_of_den_eq_one hden
      have hdigits : 1024 ≤ maxStrDigits := by
        unfold maxStrDigits
        decide
      refine iff_of_true (strFits_of_lt hdigits ?_) rfl
      rw [← hx] at hlt
      have habs : ((x.num.natAbs : Nat) : ℚ) < 2 ^ 1024 := by
        rw [Nat.cast_natAbs, Int.cast_abs]
        exact hlt
      exact_mod_cast habs
    · rfl
  · exact iff_of_false (by simp [Number.prints]) (by simp [Flt.isFinite])
  · exact iff_of_false (by simp [Number.prints]) (by simp [Flt.isFinite])

section

variable {m : Metrics} {ops : List Op}

theorem Reflects.counter_ok_iff (h : Reflects m ops) (k : CounterId) :
    (∃ out, (m.counter k).render = .ok out) ↔ ∀ labels, strFits (total k labels ops) = true := by
  rw [ExecRestApi.counter_ok_iff,
    (h.counter k).forall_entries (P := fun n => strFits n = true) strFits_zero]
  rfl

theorem Reflects.gauge_ok_iff (h : Reflects m ops) (g : GaugeId) :
    (∃ out, (m.gauge g).render = .ok out) ↔
      ∀ labels, strFits ((settings g labels ops).getLastD 0) = true := by
  rw [ExecRestApi.gauge_ok_iff,
    (h.gauge g).forall_entries (P := fun v => v.prints = true) strFits_zero]
  rfl

/-- The buckets of a series are no higher than its count. -/
theorem seriesOf_ok_iff {name : String} {labels : Labels} (xs : List Flt) :
    (∃ texts, Histogram.renderSeries name labels (seriesOf xs) = .ok texts) ↔
      strFits xs.length = true ∧ (xs.foldl Flt.add (.finite 0)).isFinite = true := by
  rw [renderSeries_ok_iff, ← prints_sum_iff]
  constructor
  · exact fun ⟨_, hcount, hsum⟩ => ⟨hcount, hsum⟩
  · intro ⟨hcount, hsum⟩
    refine ⟨?_, hcount, hsum⟩
    intro n hn
    obtain ⟨p, hp, rfl⟩ := List.mem_map.mp hn
    obtain ⟨b, -, hb⟩ := List.mem_map.mp (List.of_mem_zip hp).2
    rw [← hb]
    exact strFits_of_le hcount (by omega) (by exact_mod_cast List.countP_le_length)

theorem Reflects.histogram_ok_iff (h : Reflects m ops) (t : HistogramId) :
    (∃ out, (m.histogram t).render = .ok out) ↔ ∀ labels,
      strFits (observed t labels ops).length = true ∧
        ((observed t labels ops).foldl Flt.add (.finite 0)).isFinite = true := by
  rw [Histogram.render, renderWith_ok_iff]
  constructor
  · intro hall labels
    by_cases hnil : under labels (ops.filterMap (Op.observation t)) = []
    · rw [observed, hnil]
      exact ⟨strFits_zero, rfl⟩
    · exact (seriesOf_ok_iff _).mp
        (hall (labels, _) ((h.histogram t).mem_entries.mpr ⟨hnil, rfl⟩))
  · intro hall p hp
    rw [((h.histogram t).mem_entries.mp hp).2]
    exact (seriesOf_ok_iff _).mpr (hall p.1)

/-- **There is a text exactly if everything can be printed.** -/
theorem Reflects.render_ok_iff (h : Reflects m ops) :
    (∃ text, m.render = .ok text) ↔ Printable ops := by
  rw [render_eq, exists_bind_eq_ok]
  simp only [exists_pure_eq_ok, and_true, exists_mapM_eq_ok]
  constructor
  · intro hall
    have hhistogram := fun t => (h.histogram_ok_iff t).mp (hall (.histogram t) (Family.mem_all _))
    exact {
      counter := fun k => (h.counter_ok_iff k).mp (hall (.counter k) (Family.mem_all _))
      count := fun t labels => (hhistogram t labels).1
      sum := fun t labels => (hhistogram t labels).2
      gauge := fun g => (h.gauge_ok_iff g).mp (hall (.gauge g) (Family.mem_all _)) }
  · intro hp f _
    cases f with
    | counter k => exact (h.counter_ok_iff k).mpr (hp.counter k)
    | histogram t =>
        exact (h.histogram_ok_iff t).mpr fun labels => ⟨hp.count t labels, hp.sum t labels⟩
    | gauge g => exact (h.gauge_ok_iff g).mpr (hp.gauge g)

end

end Metrics

end ExecRestApi
