import Mathlib.Data.List.Basic
import Mathlib.Data.List.Induction
import Mathlib.Data.List.TakeWhile
import CloudGateway.MetricsExport

/-!
# The registry and its history

What a registry holds is a function of the calls that were made of it (`registry_history`):

- the value of a metric with some labels is the fold of the calls on exactly that metric and
  these labels, from the first registration of the metric on;
- its description and its kind are those of that first registration.

So calls on different pairs of a metric and labels do not see each other, and their order is
not in the text.
-/

universe u

namespace CloudGateway

namespace MetricsRegistry

variable {F : Type u}

/-! ## Histories -/

/-- What a call does to a value. -/
inductive Change (F : Type u)
  | add (delta : F)
  | replace (value : F)

/-- A value, changed. -/
def Change.apply [Add F] (value : F) : Change F → F
  | .add delta => value + delta
  | .replace value' => value'

/-- The value that some changes make of nothing. -/
def total [Zero F] [Add F] : List (Change F) → Option F
  | [] => none
  | changes => some (changes.foldl Change.apply 0)

namespace Op

/-- What a call registers under a name: a description and a kind. -/
def registers (name : String) : Op F → Option (String × MetricType)
  | .register name' help metric_type => if name' = name then some (help, metric_type) else none
  | _ => none

/-- The metric and the labels that a call writes to.  Without labels, they are empty. -/
def target : Op F → Option (String × String)
  | .register _ _ _ => none
  | .counterInc name _ | .gaugeSet name _ => some (name, "")
  | .counterIncLabels name labels _ | .gaugeSetLabels name labels _ => some (name, labels)

/-- What a call does to the value that it writes to. -/
def change : Op F → Option (Change F)
  | .register _ _ _ => none
  | .counterInc _ delta | .counterIncLabels _ _ delta => some (.add delta)
  | .gaugeSet _ value | .gaugeSetLabels _ _ value => some (.replace value)

/-- What a call does to the value of a metric with some labels. -/
def changeOf (name labels : String) (op : Op F) : Option (Change F) :=
  if op.target = some (name, labels) then op.change else none

end Op

/-- The first registration of a name. -/
def firstRegister (name : String) (ops : List (Op F)) : Option (String × MetricType) :=
  ops.findSome? (Op.registers name)

/-- The changes of a value, from the first registration of its metric on. -/
def history (name labels : String) (ops : List (Op F)) : List (Change F) :=
  (ops.dropWhile fun op ↦ (op.registers name).isNone).filterMap (Op.changeOf name labels)

theorem firstRegister_append_singleton (name : String) (ops : List (Op F)) (op : Op F) :
    firstRegister name (ops ++ [op]) = (firstRegister name ops).or (op.registers name) := by
  rw [firstRegister, List.findSome?_append, List.findSome?_singleton]
  rfl

/-- A call leaves a trace, if the metric is registered. -/
theorem history_append_singleton (name labels : String) (ops : List (Op F)) (op : Op F) :
    history name labels (ops ++ [op]) =
      if firstRegister name ops = none then [] else
        history name labels ops ++ (op.changeOf name labels).toList := by
  rw [history]
  split
  · rename_i hnone
    rw [firstRegister, List.findSome?_eq_none_iff] at hnone
    rw [List.dropWhile_append_of_pos fun op hop ↦ Option.isNone_iff_eq_none.mpr (hnone op hop)]
    -- Not even the registration itself is one.
    cases op with
    | register name' help metric_type =>
        rw [List.dropWhile_cons]
        split <;> rfl
    | _ => rfl
  · rename_i hsome
    have hdrop : (ops.dropWhile fun op ↦ (op.registers name).isNone) ≠ [] := by
      rw [Ne, List.dropWhile_eq_nil_iff]
      refine fun h ↦ hsome (List.findSome?_eq_none_iff.mpr fun op hop ↦ ?_)
      exact Option.isNone_iff_eq_none.mp (h op hop)
    rw [List.dropWhile_append, if_neg (by simpa using hdrop), List.filterMap_append,
      List.filterMap_eq_flatMap_toList _ [op], List.flatMap_singleton, history]

theorem history_of_unregistered {name : String} {ops : List (Op F)}
    (h : firstRegister name ops = none) (labels : String) : history name labels ops = [] := by
  rw [firstRegister, List.findSome?_eq_none_iff] at h
  rw [history, List.dropWhile_eq_nil_iff.mpr fun op hop ↦ Option.isNone_iff_eq_none.mpr (h op hop)]
  rfl

section

variable [Zero F] [Add F]

theorem total_append_singleton (changes : List (Change F)) (change : Change F) :
    total (changes ++ [change]) = some (Change.apply ((total changes).getD 0) change) := by
  cases changes with
  | nil => rfl
  | cons first rest =>
      show some ((first :: rest ++ [change]).foldl Change.apply 0) = _
      rw [List.foldl_append]
      rfl

/-- A mutator makes its change. -/
theorem Op.value_of_write {op : Op F} {w : Write F} (h : op.write = some w) :
    op.target = some (w.name, w.labels) ∧
      ∃ change, op.change = some change ∧
        ∀ stored, w.value stored = Change.apply (stored.getD 0) change := by
  cases op with
  | register => cases h
  | _ => cases h; exact ⟨rfl, _, rfl, fun _ ↦ rfl⟩

/-! ## The refinement -/

/-- A registry holds what the calls of its history have made. -/
structure Records (reg : MetricsRegistry F) (ops : List (Op F)) : Prop where
  /-- The name, the description and the kind of each metric. -/
  described : ∀ name, (reg.metrics[name]?.map fun entry ↦
    (entry.name, entry.help, entry.metric_type)) =
      (firstRegister name ops).map fun (help, metric_type) ↦ (name, help, metric_type)
  /-- The values. -/
  stored : ∀ name labels, reg.stored name labels = total (history name labels ops)

theorem Records.kind {reg : MetricsRegistry F} {ops : List (Op F)} (h : Records reg ops)
    (name : String) : reg.kind name = (firstRegister name ops).map Prod.snd := by
  have hmap := congrArg (Option.map fun x ↦ x.2.2) (h.described name)
  rw [Option.map_map, Option.map_map] at hmap
  exact hmap

theorem Records.registered_iff {reg : MetricsRegistry F} {ops : List (Op F)}
    (h : Records reg ops) (name : String) :
    reg.metrics[name]? = none ↔ firstRegister name ops = none := by
  rw [← Option.map_eq_none_iff, h.described, Option.map_eq_none_iff]

theorem records_new : Records (new : MetricsRegistry F) [] where
  described _ := by rw [new, Std.TreeMap.getElem?_emptyc]; rfl
  stored _ _ := by rw [MetricsRegistry.stored, new, Std.TreeMap.getElem?_emptyc]; rfl

/-- One more call. -/
theorem Records.apply {reg : MetricsRegistry F} {ops : List (Op F)} (h : Records reg ops)
    (op : Op F) : Records (reg.apply op) (ops ++ [op]) := by
  cases hwrite : op.write with
  | none =>
      cases op with
      | register name help metric_type =>
          constructor
          · intro name'
            rw [MetricsRegistry.apply, getElem?_register, firstRegister_append_singleton,
              Op.registers]
            by_cases hname : name = name'
            · subst hname
              by_cases hnone : firstRegister name ops = none
              · rw [if_pos ⟨rfl, (h.registered_iff name).mpr hnone⟩, hnone, if_pos rfl]
                rfl
              · rw [if_neg fun hand ↦ hnone ((h.registered_iff name).mp hand.2), h.described,
                  Option.or_of_isSome (Option.isSome_iff_ne_none.mpr hnone)]
            · rw [if_neg fun hand ↦ hname hand.1, if_neg hname, Option.or_none, h.described]
          · intro name' labels
            rw [MetricsRegistry.apply, stored_register, h.stored, history_append_singleton]
            split
            · rename_i hnone
              rw [history_of_unregistered hnone]
            · exact congrArg total (List.append_nil _).symm
      | _ => cases hwrite
  | some w =>
      obtain ⟨htarget, change, hchange, hvalue⟩ := Op.value_of_write hwrite
      constructor
      · intro name
        have hregisters : op.registers name = none := by
          cases op with
          | register => cases hwrite
          | _ => rfl
        rw [getElem?_write reg hwrite, firstRegister_append_singleton, hregisters, Option.or_none,
          ← h.described]
        split
        · rw [Option.map_map]
          rfl
        · rfl
      · intro name labels
        have hkind : reg.kind name = none ↔ firstRegister name ops = none := by
          rw [h.kind, Option.map_eq_none_iff]
        rw [stored_write reg hwrite, history_append_singleton, h.stored, Op.changeOf, htarget,
          hchange]
        by_cases hnone : firstRegister name ops = none
        · rw [if_neg fun hand ↦ hand.2.2 (hkind.mpr hnone), if_pos hnone,
            history_of_unregistered hnone]
        · rw [if_neg hnone]
          by_cases hpair : (w.name, w.labels) = (name, labels)
          · obtain ⟨hname, hlabels⟩ := Prod.mk.inj hpair
            rw [if_pos ⟨hname, hlabels, hkind.not.mpr hnone⟩, if_pos (congrArg some hpair), hvalue,
              Option.toList_some, total_append_singleton]
          · rw [if_neg fun hand ↦ hpair (Prod.ext hand.1 hand.2.1),
              if_neg fun heq ↦ hpair (Option.some.inj heq), Option.toList_none, List.append_nil]

theorem records_run (ops : List (Op F)) : Records (new.run ops) ops := by
  induction ops using List.reverseRecOn with
  | nil => exact records_new
  | append_singleton ops op ih =>
      rw [run_append]
      exact ih.apply op

end

/-! ## Order -/

/-- Two sequences of calls with the same first registrations and the same histories. -/
structure SameHistories (ops ops' : List (Op F)) : Prop where
  firstRegister : ∀ name, firstRegister name ops = MetricsRegistry.firstRegister name ops'
  history : ∀ name labels, history name labels ops = MetricsRegistry.history name labels ops'

/-- Calls on different pairs of a metric and labels. -/
def OnDifferentPairs (op op' : Op F) : Prop :=
  ∃ pair pair', op.target = some pair ∧ op'.target = some pair' ∧ pair ≠ pair'

theorem registers_of_target {op : Op F} {pair : String × String} (h : op.target = some pair)
    (name : String) : op.registers name = none := by
  cases op with
  | register => cases h
  | _ => rfl

/-- Two calls on different pairs can change places. -/
theorem OnDifferentPairs.sameHistories {op op' : Op F} (h : OnDifferentPairs op op')
    (before after : List (Op F)) :
    SameHistories (before ++ op :: op' :: after) (before ++ op' :: op :: after) := by
  obtain ⟨pair, pair', hop, hop', hne⟩ := h
  constructor
  · intro name
    simp only [MetricsRegistry.firstRegister, List.findSome?_append, List.findSome?_cons,
      registers_of_target hop, registers_of_target hop']
  · intro name labels
    have hcomm : (op.changeOf name labels).toList ++ (op'.changeOf name labels).toList
        = (op'.changeOf name labels).toList ++ (op.changeOf name labels).toList := by
      rw [Op.changeOf, Op.changeOf, hop, hop']
      by_cases hpair : pair = (name, labels)
      · rw [if_neg fun heq ↦ hne (hpair.trans (Option.some.inj heq).symm)]
        simp
      · rw [if_neg fun heq ↦ hpair (Option.some.inj heq)]
        simp
    have hchanges : (op :: op' :: after).filterMap (Op.changeOf name labels)
        = (op' :: op :: after).filterMap (Op.changeOf name labels) := by
      simp only [List.filterMap_eq_flatMap_toList, List.flatMap_cons]
      rw [← List.append_assoc, hcomm, List.append_assoc]
    have hnone := registers_of_target hop name
    have hnone' := registers_of_target hop' name
    rw [MetricsRegistry.history, MetricsRegistry.history, List.dropWhile_append,
      List.dropWhile_append]
    split
    · -- The metric is not registered yet.
      simp only [List.dropWhile_cons, hnone, hnone', Option.isNone_none, if_true]
    · rw [List.filterMap_append, List.filterMap_append, hchanges]

/-! ## The text -/

/-- What the text of a metric is made of. -/
def shown (entry : MetricEntry F) : String × String × MetricType × List (String × F) :=
  (entry.name, entry.help, entry.metric_type, entry.values.toList)

theorem foldl_eq_of_map_eq {α : Type u} {γ : Type*} {f : String → α → String} {g : α → γ}
    (h : ∀ b a a', g a = g a' → f b a = f b a') {xs ys : List α} (hxs : xs.map g = ys.map g)
    (b : String) : xs.foldl f b = ys.foldl f b := by
  induction xs generalizing ys b with
  | nil => rw [List.map_eq_nil_iff.mp hxs.symm]
  | cons x xs ih =>
      obtain ⟨y, ys', rfl, hy, hys⟩ := List.map_eq_cons_iff.mp hxs.symm
      rw [List.foldl_cons, List.foldl_cons, h b x y hy.symm, ih hys.symm]

/-- Registries that hold the same values under the same descriptions show the same. -/
theorem map_shown_toList {reg reg' : MetricsRegistry F}
    (hdescribed : ∀ name : String,
      (reg.metrics[name]?.map fun entry ↦ (entry.name, entry.help, entry.metric_type)) =
        reg'.metrics[name]?.map fun entry ↦ (entry.name, entry.help, entry.metric_type))
    (hstored : ∀ name labels, reg.stored name labels = reg'.stored name labels) :
    (reg.metrics.toList.map Prod.snd).map shown = (reg'.metrics.toList.map Prod.snd).map shown := by
  have hmap : reg.metrics.map (fun _ entry ↦ shown entry)
      |>.Equiv (reg'.metrics.map fun _ entry ↦ shown entry) := by
    refine .of_forall_constGet?_eq fun name ↦ ?_
    rw [Std.TreeMap.getElem?_map, Std.TreeMap.getElem?_map]
    have hdescribed := hdescribed name
    have hvalues : ∀ labels, (reg.metrics[name]?.bind fun entry ↦ entry.get labels)
        = reg'.metrics[name]?.bind fun entry ↦ entry.get labels := hstored name
    cases hentry : reg.metrics[name]? with
    | none =>
        rw [hentry] at hdescribed
        rw [Option.map_eq_none_iff.mp hdescribed.symm]
    | some entry =>
        rw [hentry] at hdescribed hvalues
        obtain ⟨entry', hentry', heq⟩ := Option.map_eq_some_iff.mp hdescribed.symm
        rw [hentry'] at hvalues ⊢
        have htoList : entry.values.toList = entry'.values.toList :=
          Std.TreeMap.equiv_iff_toList_eq.mp (.of_forall_constGet?_eq hvalues)
        simp only [Prod.mk.injEq] at heq
        simp only [Option.map_some, shown, htoList, heq]
  have hlist := Std.TreeMap.equiv_iff_toList_eq.mp hmap
  rw [Std.TreeMap.toList_map, Std.TreeMap.toList_map] at hlist
  have hsnd := congrArg (List.map Prod.snd) hlist
  rw [List.map_map, List.map_map] at hsnd
  rw [List.map_map, List.map_map]
  exact hsnd

section

variable [F64 F] [Zero F] [NatCast F] [BEq F] [LT F] [DecidableLT F]

theorem renderEntry_congr (out : String) (entry entry' : MetricEntry F)
    (h : shown entry = shown entry') : renderEntry out entry = renderEntry out entry' := by
  obtain ⟨hname, h⟩ := Prod.mk.inj h
  obtain ⟨hhelp, h⟩ := Prod.mk.inj h
  obtain ⟨htype, hvalues⟩ := Prod.mk.inj h
  have hvalue : renderValue entry = renderValue entry' := by
    funext out x
    simp only [renderValue, hname]
  simp only [renderEntry, hvalue, hname, hhelp, htype, hvalues]

variable [Add F]

/-- **The registry is its history.**  Whatever is called, and in whatever order:

- a stored value is what the calls on its metric and labels make of nothing, from the first
  registration of the metric on, and is missing if there are none;
- the description and the kind of a metric are those of its first registration;
- the text does not depend on more than these histories;
- so two calls on different pairs of a metric and labels can change places. -/
theorem registry_history (ops : List (Op F)) :
    (∀ name labels, (new.run ops).stored name labels = total (history name labels ops)) ∧
    (∀ name, (new.run ops).get name = total (history name "" ops)) ∧
    (∀ name : String, ((new.run ops).metrics[name]?.map fun entry ↦
      (entry.name, entry.help, entry.metric_type)) =
        (firstRegister name ops).map fun (help, metric_type) ↦ (name, help, metric_type)) ∧
    (∀ ops', SameHistories ops ops' →
      (new.run ops).renderPrometheus = (new.run ops').renderPrometheus) ∧
    ∀ before op op' after, ops = before ++ op :: op' :: after → OnDifferentPairs op op' →
      (∀ name labels, (new.run ops).stored name labels
        = (new.run (before ++ op' :: op :: after)).stored name labels) ∧
      (new.run ops).renderPrometheus
        = (new.run (before ++ op' :: op :: after)).renderPrometheus := by
  have hrecords (ops : List (Op F)) : Records (new.run ops) ops := records_run ops
  have hrender (ops ops' : List (Op F)) (h : SameHistories ops ops') :
      (new.run ops).renderPrometheus = (new.run ops').renderPrometheus := by
    refine foldl_eq_of_map_eq (renderEntry_congr (F := F)) (map_shown_toList (fun name ↦ ?_) ?_) ""
    · rw [(hrecords ops).described, (hrecords ops').described, h.firstRegister]
    · intro name labels
      rw [(hrecords ops).stored, (hrecords ops').stored, h.history]
  refine ⟨(hrecords ops).stored, fun name ↦ (hrecords ops).stored name "",
    (hrecords ops).described, hrender ops, ?_⟩
  rintro before op op' after rfl hpairs
  have hsame := hpairs.sameHistories before after
  refine ⟨fun name labels ↦ ?_, hrender _ _ hsame⟩
  rw [(hrecords _).stored, (hrecords _).stored, hsame.history]

end

end MetricsRegistry

end CloudGateway
