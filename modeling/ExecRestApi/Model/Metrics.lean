/-
The registry of metrics and its exporter (`metrics.py`).

The three dictionaries of a histogram always have the same keys, so they are one dictionary of
records here.  `label_keys` is read by nothing.
-/
import Mathlib.Data.List.Sort
import ExecRestApi.Lib.Double
import ExecRestApi.Model.Errors

namespace ExecRestApi

open Py

/-- `tuple[tuple[str, str], ...]` -/
abbrev Labels := List (String × String)

/-- A number, which where a `float` is expected may also be an `int`. -/
inductive Number where
  | int (n : Int)
  | float (x : Flt)
  deriving DecidableEq

/-- `_DEFAULT_BUCKETS` -/
def defaultBuckets : List Flt :=
  [5 / 1000, 1 / 100, 25 / 1000, 5 / 100, 1 / 10, 1 / 4, 1 / 2, 1, 5 / 2, 5, 10].map toDouble

/-- `_format_number` -/
def formatNumber : Number → Except Exc String
  | .int n => strInt n
  -- `int(v)` raises `ValueError` for no number, and `OverflowError` for the infinities
  | .float .nan => .error .valueError
  | .float (.inf _) => .error .other
  | .float (.finite x) =>
      if x.den = 1 then strInt x.num else .ok (String.ofList (roundedText x))

/-- `_escape_label_value` -/
def escapeLabelValue (v : List Char) : List Char :=
  replace '"' ['\\', '"'] (replace '\n' ['\\', 'n'] (replace '\\' ['\\', '\\'] v))

/-- `_format_labels` -/
def formatLabels (labels : Labels) : List Char :=
  if labels = [] then []
  else
    let parts := labels.map fun l =>
      l.1.toList ++ '=' :: '"' :: (escapeLabelValue l.2.toList ++ ['"'])
    '{' :: ([','].intercalate parts ++ ['}'])

example : formatLabels [("path_template", "a\"b\\c\nd")]
    = "\x7bpath_template=\"a\\\"b\\\\c\\nd\"\x7d".toList := by
  decide

/-- `labels <= labels'` -/
def labelsLe : Labels → Labels → Bool
  | [], _ => true
  | _ :: _, [] => false
  | (k, v) :: labels, (k', v') :: labels' =>
      decide (k < k') || (decide (k = k')
        && (decide (v < v') || (decide (v = v') && labelsLe labels labels')))

/-- The entries of a dictionary in the order of `sorted(d)`. -/
def sortedItems {υ : Type} (d : Dict Labels υ) : List (Labels × υ) :=
  d.entries.insertionSort fun p q => labelsLe p.1 q.1 = true

/-- A line with a value. -/
def sampleLine (name : String) (labels : Labels) (value : String) : List Char :=
  name.toList ++ (formatLabels labels ++ ' ' :: value.toList)

/-- What the three `render` methods share: nothing without values, and otherwise two comments and
what there is to say of each label set. -/
def renderWith {υ : Type} (name helpText kind : String) (values : Dict Labels υ)
    (series : Labels → υ → Except Exc (List (List Char))) : Except Exc (List (List Char)) :=
  if values.entries = [] then .ok []
  else do
    let out ← (sortedItems values).mapM fun p => series p.1 p.2
    pure (("# HELP ".toList ++ (name.toList ++ ' ' :: helpText.toList))
      :: ("# TYPE ".toList ++ (name.toList ++ ' ' :: kind.toList)) :: out.flatten)

/-- `_Counter` -/
structure Counter where
  name : String
  helpText : String
  values : Dict Labels Nat

namespace Counter

/-- `_Counter(name, help_text)` -/
def new (name helpText : String) : Counter := ⟨name, helpText, .empty⟩

/-- `_Counter.inc` -/
def inc (c : Counter) (labels : Labels) (amount : Nat := 1) : Counter :=
  { c with values := c.values.set labels ((c.values.get? labels).getD 0 + amount) }

/-- `_Counter.render` -/
def render (c : Counter) : Except Exc (List (List Char)) :=
  renderWith c.name c.helpText "counter" c.values fun labels n => do
    let value ← strInt n
    pure [sampleLine c.name labels value]

end Counter

/-- `_Gauge` -/
structure Gauge where
  name : String
  helpText : String
  values : Dict Labels Number

namespace Gauge

/-- `_Gauge(name, help_text)` -/
def new (name helpText : String) : Gauge := ⟨name, helpText, .empty⟩

/-- `_Gauge.set` -/
def set (g : Gauge) (labels : Labels) (value : Number) : Gauge :=
  { g with values := g.values.set labels value }

/-- `_Gauge.render` -/
def render (g : Gauge) : Except Exc (List (List Char)) :=
  renderWith g.name g.helpText "gauge" g.values fun labels v => do
    let value ← formatNumber v
    pure [sampleLine g.name labels value]

end Gauge

/-- What a histogram holds for a label set: the entries of `_buckets`, `_sums` and `_counts`. -/
structure Series where
  buckets : List Nat
  sum : Flt
  count : Nat

/-- What `observe` begins a label set with. -/
def Series.empty : Series := ⟨defaultBuckets.map fun _ => 0, .finite 0, 0⟩

/-- What `observe` does with a value. -/
def Series.observe (s : Series) (value : Flt) : Series where
  buckets := List.zipWith (fun b n => if value.le b then n + 1 else n) defaultBuckets s.buckets
  sum := s.sum.add value
  count := s.count + 1

/-- `_Histogram` -/
structure Histogram where
  name : String
  helpText : String
  series : Dict Labels Series

namespace Histogram

/-- `_Histogram(name, help_text)` -/
def new (name helpText : String) : Histogram := ⟨name, helpText, .empty⟩

/-- `_Histogram.observe` -/
def observe (h : Histogram) (labels : Labels) (value : Flt) : Histogram :=
  { h with series := h.series.set labels (((h.series.get? labels).getD .empty).observe value) }

/-- The lines of a label set. -/
def renderSeries (name : String) (labels : Labels) (s : Series) :
    Except Exc (List (List Char)) := do
  let buckets ← (defaultBuckets.zip s.buckets).mapM fun p => do
    let le ← formatNumber (.float p.1)
    let value ← strInt p.2
    pure (sampleLine (name ++ "_bucket") (labels ++ [("le", le)]) value)
  let count ← strInt s.count
  let sum ← formatNumber (.float s.sum)
  pure (buckets ++ [sampleLine (name ++ "_bucket") (labels ++ [("le", "+Inf")]) count,
    sampleLine (name ++ "_sum") labels sum, sampleLine (name ++ "_count") labels count])

/-- `_Histogram.render` -/
def render (h : Histogram) : Except Exc (List (List Char)) :=
  renderWith h.name h.helpText "histogram" h.series (renderSeries h.name)

end Histogram

/-- `Metrics` -/
structure Metrics where
  requests : Counter
  requestDuration : Histogram
  upstreamRequests : Counter
  upstreamDuration : Histogram
  sseConnections : Gauge
  upstreamSubscriptions : Gauge
  chainHeadBlock : Gauge

namespace Metrics

/-- `Metrics()` -/
def new : Metrics where
  requests := .new "exec_rest_api_requests_total" "Total HTTP requests handled by the proxy"
  requestDuration :=
    .new "exec_rest_api_request_duration_seconds" "HTTP request duration in seconds"
  upstreamRequests :=
    .new "exec_rest_api_upstream_requests_total" "Total JSON-RPC calls made to the upstream"
  upstreamDuration :=
    .new "exec_rest_api_upstream_duration_seconds" "Upstream JSON-RPC call duration in seconds"
  sseConnections :=
    .new "exec_rest_api_sse_connections" "Live SSE client connections per stream"
  upstreamSubscriptions :=
    .new "exec_rest_api_upstream_subscriptions"
      "Active upstream eth_subscribe subscriptions per stream kind"
  chainHeadBlock := .new "exec_rest_api_chain_head_block" "Latest known chain head block number"

/-- `inc_request` -/
def incRequest (m : Metrics) (method pathTemplate : String) (status : Int) : Except Exc Metrics := do
  let status ← strInt status
  let labels := [("method", method), ("path_template", pathTemplate), ("status", status)]
  pure { m with requests := m.requests.inc labels }

/-- `observe_request_duration` -/
def observeRequestDuration (m : Metrics) (durationSeconds : Flt) : Metrics :=
  { m with requestDuration := m.requestDuration.observe [] durationSeconds }

/-- `inc_upstream` -/
def incUpstream (m : Metrics) (method status : String) : Metrics :=
  { m with upstreamRequests := m.upstreamRequests.inc [("method", method), ("status", status)] }

/-- `observe_upstream_duration` -/
def observeUpstreamDuration (m : Metrics) (method : String) (durationSeconds : Flt) : Metrics :=
  { m with upstreamDuration := m.upstreamDuration.observe [("method", method)] durationSeconds }

/-- `set_sse_connections` -/
def setSseConnections (m : Metrics) (stream : String) (value : Int) : Metrics :=
  { m with sseConnections := m.sseConnections.set [("stream", stream)] (.int value) }

/-- `set_upstream_subscriptions` -/
def setUpstreamSubscriptions (m : Metrics) (stream : String) (value : Int) : Metrics :=
  { m with upstreamSubscriptions := m.upstreamSubscriptions.set [("stream", stream)] (.int value) }

/-- `set_chain_head_block` -/
def setChainHeadBlock (m : Metrics) (value : Int) : Metrics :=
  { m with chainHeadBlock := m.chainHeadBlock.set [] (.int value) }

/-- `render` -/
def render (m : Metrics) : Except Exc (List Char) := do
  let sections ← List.mapM id [m.requests.render, m.requestDuration.render,
    m.upstreamRequests.render, m.upstreamDuration.render, m.sseConnections.render,
    m.upstreamSubscriptions.render, m.chainHeadBlock.render]
  let lines := sections.flatten
  pure (if lines = [] then [] else ['\n'].intercalate lines ++ ['\n'])

/-- A call of one of the methods. -/
inductive Op where
  | incRequest (method pathTemplate : String) (status : Int)
  | observeRequestDuration (durationSeconds : Flt)
  | incUpstream (method status : String)
  | observeUpstreamDuration (method : String) (durationSeconds : Flt)
  | setSseConnections (stream : String) (value : Int)
  | setUpstreamSubscriptions (stream : String) (value : Int)
  | setChainHeadBlock (value : Int)
  deriving DecidableEq

/-- What a call leaves behind.  One that raises changes nothing. -/
def step (m : Metrics) : Op → Metrics
  | .incRequest method pathTemplate status =>
      match m.incRequest method pathTemplate status with
      | .ok m' => m'
      | .error _ => m
  | .observeRequestDuration durationSeconds => m.observeRequestDuration durationSeconds
  | .incUpstream method status => m.incUpstream method status
  | .observeUpstreamDuration method durationSeconds =>
      m.observeUpstreamDuration method durationSeconds
  | .setSseConnections stream value => m.setSseConnections stream value
  | .setUpstreamSubscriptions stream value => m.setUpstreamSubscriptions stream value
  | .setChainHeadBlock value => m.setChainHeadBlock value

/-- The registry after some calls. -/
def after (ops : List Op) : Metrics := ops.foldl step new

end Metrics

end ExecRestApi
