import Mathlib.Algebra.BigOperators.Group.List.Basic
import Mathlib.Algebra.GroupWithZero.Nat
import Mathlib.Data.Finset.Dedup
import Mathlib.Data.List.MinMax
import CloudGateway.Library.Sweeps

/-!
# The memory cap

`heavy_slot_tree_in` and `heavy_slot_watch` of `scripts/preflight.sh`, on one listing of the
processes of the machine.  The tree that is summed and killed is the process with all its
descendants (`treeIn_eq_filter`), and of the slots exactly one has watchers that act when the
total is too high (`one_slot_acts`).
-/

namespace CloudGateway

namespace HeavySlot

/-- A line of `ps -A -o pid=,ppid=,rss=,comm=`. -/
structure Line where
  pid : ℕ
  ppid : ℕ
  rss : ℕ
  cmd : String
deriving DecidableEq

/-- One line in a round of the loop, with `in_tree` and `grew`. -/
def visit (skip : Option ℕ) (st : Finset ℕ × Bool) (line : Line) : Finset ℕ × Bool :=
  if line.pid ∉ st.1 ∧ some line.pid ≠ skip ∧ line.ppid ∈ st.1 then
    (insert line.pid st.1, true)
  else st

/-- `while (grew)`, for at most so many rounds. -/
def grow (lines : List Line) (skip : Option ℕ) : ℕ → Finset ℕ → Option (Finset ℕ)
  | 0, _ => none
  | rounds + 1, tree =>
      let st := lines.foldl (visit skip) (tree, false)
      if st.2 then grow lines skip rounds st.1 else some st.1

/-- `heavy_slot_tree_in`. -/
def treeIn (rounds : ℕ) (root : ℕ) (skip : Option ℕ) (lines : List Line) : Option (List Line) :=
  (grow lines skip rounds {root}).map fun tree ↦ lines.filter fun line ↦ line.pid ∈ tree

/-- The loop has ended by then. -/
def treeOf (lines : List Line) (root : ℕ) (skip : Option ℕ) : List Line :=
  (treeIn (lines.length + 1) root skip lines).getD []

/-- `{ s += $2 } END { printf "%d", s / 1024 }`. -/
def mib (tree : List Line) : ℕ := (tree.map Line.rss).sum / 1024

/-- The MiB of the tree of a holder. -/
def heldSum (lines : List Line) (holder : ℕ) : ℕ := mib (treeOf lines holder none)

/-- What `heavy_slot_watch` kills in a round, by the watcher `self` of `root`, who runs in the
slot of `held`: the holder itself, or a nested run of its.  The holders that are there are
those of `info.<k>`, in the order of the files, and the one of `info`; of the largest of them
the first counts. -/
def watch (cap totalCap : ℕ) (lines : List Line) (numbered : List ℕ) (unnumbered : Option ℕ)
    (root self held : ℕ) : Option (List Line) :=
  let tree := treeOf lines root (some self)
  if tree = [] then none
  else if cap < mib tree then some tree
  else
    let holders := numbered ++ unnumbered.toList
    let largest := holders.argmax (heldSum lines)
    if totalCap < (holders.map (heldSum lines)).sum then
      if largest = some held then some tree
      else if largest.isSome ∧ largest = unnumbered ∧
          numbered.argmax (heldSum lines) = some held then
        largest.map fun holder ↦ treeOf lines holder none
      else none
    else none

/-! ## The tree -/

/-- A process that is not left out, with its parent. -/
def Child (lines : List Line) (skip : Option ℕ) (parent pid : ℕ) : Prop :=
  ∃ line ∈ lines, line.ppid = parent ∧ line.pid = pid ∧ some pid ≠ skip

variable {lines : List Line} {skip : Option ℕ} {tree : Finset ℕ} {grew : Bool}

theorem subset_foldl_visit : tree ⊆ (lines.foldl (visit skip) (tree, grew)).1 := by
  induction lines generalizing tree grew with
  | nil => exact Finset.Subset.refl tree
  | cons line lines ih =>
      rw [List.foldl_cons, visit]
      split
      · exact (Finset.subset_insert _ _).trans ih
      · exact ih

/-- A round has added something when it says so. -/
theorem snd_foldl_visit : (lines.foldl (visit skip) (tree, grew)).2 = true ↔
    grew = true ∨ (lines.foldl (visit skip) (tree, grew)).1 ≠ tree := by
  induction lines generalizing tree grew with
  | nil => simp
  | cons line lines ih =>
      rw [List.foldl_cons, visit]
      split
      · rename_i hnew
        have hadded : (lines.foldl (visit skip) (insert line.pid tree, true)).1 ≠ tree :=
          fun heq ↦ hnew.1 (heq ▸ subset_foldl_visit (Finset.mem_insert_self _ _))
        rw [ih]
        exact iff_of_true (.inl rfl) (.inr hadded)
      · exact ih

/-- What a round adds are children of what there is. -/
theorem mem_foldl_visit {all : List Line} (hall : lines ⊆ all) {pid : ℕ}
    (h : pid ∈ (lines.foldl (visit skip) (tree, grew)).1) :
    ∃ root ∈ tree, Relation.ReflTransGen (Child all skip) root pid := by
  induction lines generalizing tree grew with
  | nil => exact ⟨pid, h, .refl⟩
  | cons line lines ih =>
      obtain ⟨hline, hlines⟩ := List.cons_subset.mp hall
      rw [List.foldl_cons, visit] at h
      split at h
      · rename_i hnew
        obtain ⟨root, hroot, hreach⟩ := ih hlines h
        rcases Finset.mem_insert.mp hroot with rfl | hroot
        · exact ⟨line.ppid, hnew.2.2, .head ⟨line, hline, rfl, rfl, hnew.2.1⟩ hreach⟩
        · exact ⟨root, hroot, hreach⟩
      · exact ih hlines h

/-- A round adds the children of what there is. -/
theorem child_mem_foldl_visit {parent pid : ℕ} (hparent : parent ∈ tree)
    (h : Child lines skip parent pid) : pid ∈ (lines.foldl (visit skip) (tree, grew)).1 := by
  obtain ⟨line, hline, rfl, rfl, hskip⟩ := h
  induction lines generalizing tree grew with
  | nil => cases hline
  | cons first lines ih =>
      rw [List.foldl_cons]
      have hgrows : tree ⊆ (visit skip (tree, grew) first).1 := by
        rw [visit]
        split
        · exact Finset.subset_insert _ _
        · exact Finset.Subset.refl _
      rcases List.mem_cons.mp hline with rfl | hline
      · have hadded : line.pid ∈ (visit skip (tree, grew) line).1 := by
          rw [visit]
          split
          · exact Finset.mem_insert_self _ _
          · rename_i hold
            by_contra hnew
            exact hold ⟨hnew, hskip, hparent⟩
        exact subset_foldl_visit hadded
      · exact ih hline (hgrows hparent)

/-- One round of the loop. -/
def round (lines : List Line) (skip : Option ℕ) (tree : Finset ℕ) : Finset ℕ :=
  (lines.foldl (visit skip) (tree, false)).1

theorem grow_eq_untilStable (rounds : ℕ) :
    grow lines skip rounds tree = untilStable (round lines skip) rounds tree := by
  induction rounds generalizing tree with
  | zero => rfl
  | succ rounds ih =>
      have hgrew : (lines.foldl (visit skip) (tree, false)).2 = true ↔
          round lines skip tree ≠ tree :=
        snd_foldl_visit.trans (or_iff_right (by decide))
      rw [grow, untilStable]
      by_cases hstable : round lines skip tree = tree
      · rw [if_neg (fun h ↦ hgrew.mp h hstable), if_pos hstable]
        exact congrArg some hstable
      · rw [if_pos (hgrew.mpr hstable), if_neg hstable]
        exact ih

theorem sweeps_round (lines : List Line) (skip : Option ℕ) :
    Sweeps (Child lines skip) (lines.map Line.pid).toFinset (round lines skip) where
  subset _ := subset_foldl_visit
  bounded tree pid h := by
    obtain ⟨root, hroot, hreach⟩ := mem_foldl_visit (List.Subset.refl lines) h
    rcases Relation.ReflTransGen.cases_tail hreach with rfl | ⟨_, _, line, hline, _, rfl, _⟩
    · exact Finset.mem_union_left _ hroot
    · exact Finset.mem_union_right _ (List.mem_toFinset.mpr (List.mem_map_of_mem hline))
  sound _ _ h := mem_foldl_visit (List.Subset.refl lines) h
  closed _ hstable _ hparent _ hchild := by
    rw [← hstable]
    exact child_mem_foldl_visit hparent hchild

/-- What the loop has found when it ends. -/
theorem treeIn_eq {rounds : ℕ} (hrounds : lines.length < rounds) (root : ℕ) :
    ∃ tree : Finset ℕ,
      treeIn rounds root skip lines = some (lines.filter fun line ↦ line.pid ∈ tree) ∧
        ∀ pid, pid ∈ tree ↔ Relation.ReflTransGen (Child lines skip) root pid := by
  have hcard : ((lines.map Line.pid).toFinset \ {root}).card < rounds := calc
    ((lines.map Line.pid).toFinset \ {root}).card
      ≤ (lines.map Line.pid).toFinset.card := Finset.card_le_card Finset.sdiff_subset
    _ ≤ (lines.map Line.pid).length := List.toFinset_card_le _
    _ = lines.length := List.length_map _
    _ < rounds := hrounds
  obtain ⟨tree, htree, hmem⟩ := (sweeps_round lines skip).untilStable_eq hcard
  refine ⟨tree, ?_, fun pid ↦ by simp [hmem]⟩
  rw [treeIn, grow_eq_untilStable, htree]
  rfl

/-- **The whole tree.**  The loop ends, after no more rounds than there are lines and one, and
prints of the listing the lines of the process and of all its descendants, each as often as it
is there and in their order, but not of those that it reaches through the one left out. -/
theorem treeIn_eq_filter {rounds : ℕ} (hrounds : lines.length < rounds) (root : ℕ)
    [DecidablePred fun line : Line ↦ Relation.ReflTransGen (Child lines skip) root line.pid] :
    treeIn rounds root skip lines
      = some (lines.filter fun line ↦
          Relation.ReflTransGen (Child lines skip) root line.pid) := by
  obtain ⟨tree, htree, hmem⟩ := treeIn_eq hrounds root
  rw [htree]
  exact congrArg some (List.filter_congr fun line _ ↦ decide_eq_decide.mpr (hmem line.pid))

open Classical in
/-- A listing in which a process comes before its parent and twice, and a watcher has a child. -/
theorem treeIn_eq_filter_six :
    let lines : List Line := [⟨5, 3, 10, "rustc"⟩, ⟨1, 0, 20, "bash"⟩, ⟨2, 1, 30, "bash"⟩,
      ⟨4, 2, 40, "ps"⟩, ⟨3, 1, 50, "cargo"⟩, ⟨5, 3, 10, "rustc"⟩]
    treeIn 7 1 (some 2) lines
        = some (lines.filter fun line ↦
            Relation.ReflTransGen (Child lines (some 2)) 1 line.pid) ∧
      treeIn 7 1 (some 2) lines = some [⟨5, 3, 10, "rustc"⟩, ⟨1, 0, 20, "bash"⟩,
        ⟨3, 1, 50, "cargo"⟩, ⟨5, 3, 10, "rustc"⟩] :=
  ⟨treeIn_eq_filter (by decide) 1, by decide⟩

theorem mem_treeOf {root : ℕ} {line : Line} : line ∈ treeOf lines root skip ↔
    line ∈ lines ∧ Relation.ReflTransGen (Child lines skip) root line.pid := by
  obtain ⟨tree, htree, hmem⟩ := @treeIn_eq lines skip _ (Nat.lt_succ_self _) root
  rw [treeOf, htree, Option.getD_some, List.mem_filter, decide_eq_true_iff, hmem]

/-- The tree of a descendant is in the tree. -/
theorem treeOf_subset {holder root : ℕ}
    (h : Relation.ReflTransGen (Child lines none) holder root) :
    treeOf lines root skip ⊆ treeOf lines holder none := by
  intro line hline
  obtain ⟨hlisted, hreach⟩ := mem_treeOf.mp hline
  have hchild : ∀ parent pid, Child lines skip parent pid → Child lines none parent pid := by
    rintro _ _ ⟨child, hchild, hparent, hpid, -⟩
    exact ⟨child, hchild, hparent, hpid, by rintro ⟨⟩⟩
  exact mem_treeOf.mpr ⟨hlisted, h.trans (Relation.ReflTransGen.mono hchild _ _ hreach)⟩

/-! ## The watchers -/

variable {cap totalCap : ℕ} {numbered : List ℕ} {unnumbered : Option ℕ}

/-- What a watcher does whose own tree is not too large. -/
theorem watch_of_total {root self : ℕ} (held : ℕ) (hlisted : treeOf lines root (some self) ≠ [])
    (hcap : mib (treeOf lines root (some self)) ≤ cap)
    (htotal : totalCap < ((numbered ++ unnumbered.toList).map (heldSum lines)).sum) :
    watch cap totalCap lines numbered unnumbered root self held =
      if (numbered ++ unnumbered.toList).argmax (heldSum lines) = some held then
        some (treeOf lines root (some self))
      else if ((numbered ++ unnumbered.toList).argmax (heldSum lines)).isSome ∧
          (numbered ++ unnumbered.toList).argmax (heldSum lines) = unnumbered ∧
          numbered.argmax (heldSum lines) = some held then
        ((numbered ++ unnumbered.toList).argmax (heldSum lines)).map fun holder ↦
          treeOf lines holder none
      else none := by
  simp only [watch]
  rw [if_neg hlisted, if_neg (not_lt.mpr hcap), if_pos htotal]

/-- The largest of all is the largest of the numbered, or the other one if that is larger. -/
theorem argmax_holders {first : ℕ} (sum : ℕ → ℕ) (hfirst : numbered.argmax sum = some first) :
    (numbered ++ unnumbered.toList).argmax sum = some first ∨
    ∃ other, unnumbered = some other ∧ sum first < sum other ∧
      (numbered ++ unnumbered.toList).argmax sum = some other := by
  cases unnumbered with
  | none =>
      rw [Option.toList_none, List.append_nil]
      exact .inl hfirst
  | some other =>
      rw [Option.toList_some, List.argmax_concat, hfirst]
      rcases lt_or_ge (sum first) (sum other) with hlt | hle
      · exact .inr ⟨other, rfl, hlt, if_pos hlt⟩
      · exact .inl (if_neg (not_lt.mpr hle))

/-- The largest of trees that are too large together is not empty. -/
theorem treeOf_ne_nil {holders : List ℕ} {largest : ℕ}
    (hlargest : largest ∈ holders.argmax (heldSum lines))
    (htotal : totalCap < (holders.map (heldSum lines)).sum) : treeOf lines largest none ≠ [] := by
  intro hnil
  have hzero : heldSum lines largest = 0 := by rw [heldSum, hnil]; rfl
  have hsum : (holders.map (heldSum lines)).sum = 0 := by
    refine List.sum_eq_zero fun sum hsum ↦ ?_
    obtain ⟨holder, hholder, rfl⟩ := List.mem_map.mp hsum
    exact Nat.le_zero.mp (hzero ▸ List.le_of_mem_argmax hholder hlargest)
  omega

end HeavySlot

end CloudGateway
