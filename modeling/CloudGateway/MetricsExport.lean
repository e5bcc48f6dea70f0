import Mathlib.Data.Nat.Cast.Defs
import Mathlib.Tactic.Linarith

/-!
# The metrics registry

A `MetricsRegistry` holds named metrics, each with a value for every label set that was
written to, and renders them as text.  Both maps are ordered (`BTreeMap`).

What an operation does to the kind of a metric and to a stored value is said once
(`kind_register`, `stored_register`, `kind_write`, `stored_write`): all four mutators write one
value of a registered metric (`Op.write`).

The values are `f64`.  They are a parameter `F`, of which the definitions use the operations
only; those that the text needs are the fields of `F64`.
-/

universe u

namespace CloudGateway

variable {F : Type u}

/-- The kind of a metric. -/
inductive MetricType
  /-- A running total, which only grows. -/
  | counter
  /-- Any value. -/
  | gauge
deriving DecidableEq, Repr

/-- A single metric. -/
structure MetricEntry (F : Type u) where
  /-- The name of the metric. -/
  name : String
  /-- A description. -/
  help : String
  /-- The kind of the metric. -/
  metric_type : MetricType
  /-- The values by label set; the empty one stands for no labels. -/
  values : Std.TreeMap String F

namespace MetricEntry

/-- Create a new metric. -/
def new (name help : String) (metric_type : MetricType) : MetricEntry F where
  name := name
  help := help
  metric_type := metric_type
  values := ∅

/-- Set the value without labels. -/
def set (self : MetricEntry F) (value : F) : MetricEntry F :=
  { self with values := self.values.insert "" value }

/-- Add to the value without labels (for counters). -/
def increment [Zero F] [Add F] (self : MetricEntry F) (delta : F) : MetricEntry F :=
  { self with values := self.values.insert "" (self.values[""]?.getD 0 + delta) }

/-- Set the value with labels. -/
def setWithLabels (self : MetricEntry F) (labels : String) (value : F) : MetricEntry F :=
  { self with values := self.values.insert labels value }

/-- Add to the value with labels. -/
def incrementWithLabels [Zero F] [Add F] (self : MetricEntry F) (labels : String) (delta : F) :
    MetricEntry F :=
  { self with values := self.values.insert labels (self.values[labels]?.getD 0 + delta) }

/-- The value with some labels. -/
def get (self : MetricEntry F) (labels : String) : Option F := self.values[labels]?

end MetricEntry

/-- The metrics registry. -/
structure MetricsRegistry (F : Type u) where
  /-- The metrics by name. -/
  metrics : Std.TreeMap String (MetricEntry F)

namespace MetricsRegistry

/-- Create an empty registry. -/
def new : MetricsRegistry F := ⟨∅⟩

/-- Register a metric, unless there is one of that name. -/
def register (self : MetricsRegistry F) (name help : String) (metric_type : MetricType) :
    MetricsRegistry F :=
  ⟨self.metrics.insertIfNew name (.new name help metric_type)⟩

/-- Add to a counter. -/
def counterInc [Zero F] [Add F] (self : MetricsRegistry F) (name : String) (delta : F) :
    MetricsRegistry F :=
  ⟨self.metrics.modify name fun entry ↦ entry.increment delta⟩

/-- Set a gauge. -/
def gaugeSet (self : MetricsRegistry F) (name : String) (value : F) : MetricsRegistry F :=
  ⟨self.metrics.modify name fun entry ↦ entry.set value⟩

/-- Add to a counter with labels. -/
def counterIncLabels [Zero F] [Add F] (self : MetricsRegistry F) (name labels : String)
    (delta : F) : MetricsRegistry F :=
  ⟨self.metrics.modify name fun entry ↦ entry.incrementWithLabels labels delta⟩

/-- Set a gauge with labels. -/
def gaugeSetLabels (self : MetricsRegistry F) (name labels : String) (value : F) :
    MetricsRegistry F :=
  ⟨self.metrics.modify name fun entry ↦ entry.setWithLabels labels value⟩

/-- The value of a metric without labels. -/
def get (self : MetricsRegistry F) (name : String) : Option F :=
  self.metrics[name]?.bind fun entry ↦ entry.get ""

/-! ## Text -/

/-- What the text needs of `f64`. -/
class F64 (F : Type u) where
  fract : F → F
  abs : F → F
  /-- `as i64`. -/
  toI64 : F → Int64
  /-- The formatted value (`{value}`). -/
  display : F → String

/-- The end of a TYPE line. -/
def typeSuffix : MetricType → String
  | .counter => " counter\n"
  | .gauge => " gauge\n"

section

variable [F64 F] [Zero F] [NatCast F] [BEq F] [LT F] [DecidableLT F]

/-- A value, as it is printed: without a fraction as an integer, if it is not too large. -/
def formatValue (value : F) : String :=
  if F64.fract value == 0 && decide (F64.abs value < ((10 ^ 15 : ℕ) : F)) then
    toString (F64.toI64 value).toInt
  else F64.display value

/-- The text of the value with some labels, added to `out`. -/
def renderValue (entry : MetricEntry F) (out : String) : String × F → String
  | (labels, value) =>
      let out := out ++ entry.name
      let out := if labels ≠ "" then out ++ "\x7b" ++ labels ++ "\x7d" else out
      out ++ " " ++ formatValue value ++ "\n"

/-- The text of a metric, added to `out`. -/
def renderEntry (out : String) (entry : MetricEntry F) : String :=
  let out := out ++ "# HELP " ++ entry.name ++ " " ++ entry.help ++ "\n"
  let out := out ++ "# TYPE " ++ entry.name ++ typeSuffix entry.metric_type
  entry.values.toList.foldl (renderValue entry) out

/-- The text of the registry, in the Prometheus format. -/
def renderPrometheus (self : MetricsRegistry F) : String :=
  (self.metrics.toList.map Prod.snd).foldl renderEntry ""

end

/-! ## Operations -/

/-- An operation on a registry. -/
inductive Op (F : Type u)
  | register (name help : String) (metric_type : MetricType)
  | counterInc (name : String) (delta : F)
  | gaugeSet (name : String) (value : F)
  | counterIncLabels (name labels : String) (delta : F)
  | gaugeSetLabels (name labels : String) (value : F)

/-- The kind of a registered metric. -/
def kind (self : MetricsRegistry F) (name : String) : Option MetricType :=
  self.metrics[name]?.map MetricEntry.metric_type

/-- The stored value of a metric with some labels. -/
def stored (self : MetricsRegistry F) (name labels : String) : Option F :=
  self.metrics[name]?.bind fun entry ↦ entry.get labels

theorem getElem?_register (self : MetricsRegistry F) (name help name' : String)
    (metric_type : MetricType) :
    (self.register name help metric_type).metrics[name']? =
      if name = name' ∧ self.metrics[name]? = none then some (.new name help metric_type)
      else self.metrics[name']? := by
  rw [register, Std.TreeMap.getElem?_insertIfNew]
  simp only [Std.compare_eq_iff_eq, Std.TreeMap.mem_iff_isSome_getElem?,
    Option.not_isSome_iff_eq_none]

theorem kind_register (self : MetricsRegistry F) (name help name' : String)
    (metric_type : MetricType) :
    (self.register name help metric_type).kind name' =
      if name = name' ∧ self.kind name = none then some metric_type else self.kind name' := by
  rw [kind, getElem?_register]
  simp only [kind, Option.map_eq_none_iff]
  split <;> rfl

theorem stored_register (self : MetricsRegistry F) (name help name' labels : String)
    (metric_type : MetricType) :
    (self.register name help metric_type).stored name' labels = self.stored name' labels := by
  rw [stored, stored, getElem?_register]
  split
  · rename_i h
    obtain ⟨rfl, hnone⟩ := h
    rw [hnone]
    exact Std.TreeMap.getElem?_emptyc
  · rfl

/-- What a mutator writes: the metric, the labels, and the value that replaces the one stored. -/
structure Write (F : Type u) where
  name : String
  labels : String
  value : Option F → F

/-- A metric, written to. -/
def Write.entry (w : Write F) (entry : MetricEntry F) : MetricEntry F :=
  { entry with values := entry.values.insert w.labels (w.value entry.values[w.labels]?) }

theorem get_entry (w : Write F) (entry : MetricEntry F) (labels : String) :
    (w.entry entry).get labels =
      if w.labels = labels then some (w.value (entry.get labels)) else entry.get labels := by
  rw [Write.entry, MetricEntry.get, Std.TreeMap.getElem?_insert]
  simp only [Std.compare_eq_iff_eq]
  split
  · rename_i h
    rw [h]
    rfl
  · rfl

variable [Zero F] [Add F]

/-- An operation, done. -/
def apply (self : MetricsRegistry F) : Op F → MetricsRegistry F
  | .register name help metric_type => self.register name help metric_type
  | .counterInc name delta => self.counterInc name delta
  | .gaugeSet name value => self.gaugeSet name value
  | .counterIncLabels name labels delta => self.counterIncLabels name labels delta
  | .gaugeSetLabels name labels value => self.gaugeSetLabels name labels value

/-- The registry after some operations. -/
def run (self : MetricsRegistry F) (ops : List (Op F)) : MetricsRegistry F :=
  ops.foldl apply self

theorem run_append (self : MetricsRegistry F) (ops ops' : List (Op F)) :
    self.run (ops ++ ops') = (self.run ops).run ops' := List.foldl_append

/-- The write of an operation, if it is a mutator. -/
def Op.write : Op F → Option (Write F)
  | .register _ _ _ => none
  | .counterInc name delta => some ⟨name, "", fun stored ↦ stored.getD 0 + delta⟩
  | .gaugeSet name value => some ⟨name, "", fun _ ↦ value⟩
  | .counterIncLabels name labels delta =>
      some ⟨name, labels, fun stored ↦ stored.getD 0 + delta⟩
  | .gaugeSetLabels name labels value => some ⟨name, labels, fun _ ↦ value⟩

/-- Every mutator writes to a metric, if it is registered. -/
theorem apply_of_write (self : MetricsRegistry F) {op : Op F} {w : Write F}
    (h : op.write = some w) : self.apply op = ⟨self.metrics.modify w.name w.entry⟩ := by
  cases op with
  | register => cases h
  | _ => cases h; rfl

theorem getElem?_write (self : MetricsRegistry F) {op : Op F} {w : Write F}
    (h : op.write = some w) (name : String) :
    (self.apply op).metrics[name]? =
      if w.name = name then self.metrics[name]?.map w.entry else self.metrics[name]? := by
  rw [apply_of_write self h, Std.TreeMap.getElem?_modify]
  simp only [Std.compare_eq_iff_eq]
  split
  · rename_i hname
    rw [hname]
  · rfl

theorem kind_write (self : MetricsRegistry F) {op : Op F} {w : Write F} (h : op.write = some w)
    (name : String) : (self.apply op).kind name = self.kind name := by
  rw [kind, kind, getElem?_write self h]
  split
  · rw [Option.map_map]
    rfl
  · rfl

theorem stored_write (self : MetricsRegistry F) {op : Op F} {w : Write F}
    (h : op.write = some w) (name labels : String) :
    (self.apply op).stored name labels =
      if w.name = name ∧ w.labels = labels ∧ self.kind name ≠ none then
        some (w.value (self.stored name labels))
      else self.stored name labels := by
  rw [stored, stored, getElem?_write self h, kind]
  cases self.metrics[name]? with
  | none => simp
  | some entry =>
      by_cases hname : w.name = name
      · by_cases hlabels : w.labels = labels
        · simp [hname, hlabels, get_entry]
        · simp [hname, hlabels, get_entry]
      · simp [hname]

end MetricsRegistry

end CloudGateway
