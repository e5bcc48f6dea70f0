import Mathlib.Data.List.Perm.Basic
import Mathlib.Data.List.Nodup
import CloudGateway.ContainerBridge

/-!
# Whose container an id is

A `Fleet` is an orchestrator with the current ids of each of its deployments, and with a record
of what has been issued and dropped.  The ids issued are the numbers from one on, and each of
them is in one current list, or was dropped (`Fleet.Accounts`).  So no two deployments share a
container, and a dropped id does not come back (`identity_of_run`), as long as the next id has
not wrapped.
-/

namespace CloudGateway

open ContainerOrchestrator

/-- An orchestrator and its deployments. -/
structure Fleet where
  orchestrator : ContainerOrchestrator
  /-- The current ids of each deployment. -/
  deployments : List (List UInt64)
  /-- The ids issued so far. -/
  issued : List UInt64
  /-- The ids dropped so far. -/
  dropped : List UInt64
deriving DecidableEq

namespace Fleet

/-- A new orchestrator has no deployments. -/
def new : Fleet := ⟨.new, [], [], []⟩

/-- A call: a new deployment, or a new number of replicas for one. -/
inductive Op
  | deploy (req : DeployRequest)
  | scale (deployment : ℕ) (target_replicas : UInt32)

/-- A call, made; `none` if there is no such deployment, or if the call faults. -/
def apply (self : Fleet) : Op → Option Fleet
  | .deploy req =>
      let (result, orchestrator) := self.orchestrator.deploy req
      some {
        orchestrator := orchestrator
        deployments := self.deployments ++ [result.container_ids]
        issued := self.issued ++ result.container_ids
        dropped := self.dropped }
  | .scale deployment target_replicas => do
      let current_ids ← self.deployments[deployment]?
      let (ids, orchestrator) ← self.orchestrator.scale current_ids target_replicas
      some {
        orchestrator := orchestrator
        deployments := self.deployments.set deployment ids
        issued := self.issued ++ ids.drop current_ids.length
        dropped := self.dropped ++ current_ids.drop ids.length }

/-- The fleet after some calls. -/
def run (self : Fleet) (ops : List Op) : Option Fleet := ops.foldlM apply self

/-- Each id that was issued is in one current list, or was dropped. -/
structure Accounts (w : Fleet) : Prop where
  issued_eq : w.issued = idsFrom 1 w.issued.length
  next_eq : w.orchestrator.next_container_id = 1 + UInt64.ofNat w.issued.length
  partition : (w.deployments.flatten ++ w.dropped).Perm w.issued
  short : ∀ ids ∈ w.deployments, ids.length < 2 ^ 32

theorem accounts_new : Accounts new where
  issued_eq := rfl
  next_eq := rfl
  partition := .refl []
  short := List.forall_mem_nil _

/-- What a call does to a fleet `w` when it issues `n` ids. -/
inductive Issues (w : Fleet) (n : ℕ) : Fleet → Prop
  | deploys {o : ContainerOrchestrator} (hn : n < 2 ^ 32)
      (hnext : o.next_container_id = w.orchestrator.next_container_id + UInt64.ofNat n) :
      Issues w n
        { orchestrator := o
          deployments := w.deployments ++ [idsFrom w.orchestrator.next_container_id n]
          issued := w.issued ++ idsFrom w.orchestrator.next_container_id n
          dropped := w.dropped }
  | scales {o : ContainerOrchestrator} {before after : List (List UInt64)} {ids : List UInt64}
      {target : ℕ} (htarget : target < 2 ^ 32) (hn : n = target - ids.length)
      (hnext : o.next_container_id = w.orchestrator.next_container_id + UInt64.ofNat n)
      (hids : w.deployments = before ++ ids :: after) :
      Issues w n
        { orchestrator := o
          deployments := before ++
            (ids.take target ++ idsFrom w.orchestrator.next_container_id n) :: after
          issued := w.issued ++ idsFrom w.orchestrator.next_container_id n
          dropped := w.dropped ++ ids.drop target }

/-- Scaling makes a list as long as it should be. -/
theorem length_take_append_idsFrom (ids : List UInt64) (target : ℕ) (next : UInt64) :
    (ids.take target ++ idsFrom next (target - ids.length)).length = target := by
  rw [List.length_append, List.length_take, length_idsFrom]
  omega

/-- What is behind the old ids is new. -/
theorem drop_take_append_idsFrom (ids : List UInt64) (target : ℕ) (next : UInt64) :
    (ids.take target ++ idsFrom next (target - ids.length)).drop ids.length
      = idsFrom next (target - ids.length) := by
  rcases Nat.le_total target ids.length with hdown | hup
  · rw [Nat.sub_eq_zero_of_le hdown, idsFrom_zero, List.append_nil, List.drop_eq_nil_iff]
    exact List.length_take_le' target ids
  · rw [List.take_of_length_le hup, List.drop_left]

/-- A call does one of these. -/
theorem Accounts.issues {w w' : Fleet} (h : w.Accounts) {op : Op} (hop : w.apply op = some w') :
    ∃ n, Issues w n w' := by
  cases op with
  | deploy req =>
      rw [apply, deploy, issue_eq] at hop
      obtain rfl := Option.some.inj hop
      exact ⟨_, .deploys req.replicas.toNat_lt rfl⟩
  | scale i target =>
      obtain ⟨ids, hids, hop⟩ := Option.bind_eq_some_iff.mp hop
      obtain ⟨hi, rfl⟩ := List.getElem?_eq_some_iff.mp hids
      rw [scale_eq _ (h.short _ (List.getElem_mem hi))] at hop
      obtain rfl := Option.some.inj hop
      have hlength := length_take_append_idsFrom w.deployments[i] target.toNat
        w.orchestrator.next_container_id
      have hnew := drop_take_append_idsFrom w.deployments[i] target.toNat
        w.orchestrator.next_container_id
      have hsplit : w.deployments
          = w.deployments.take i ++ w.deployments[i] :: w.deployments.drop (i + 1) := by
        rw [List.getElem_cons_drop, List.take_append_drop]
      rw [hlength, hnew, List.set_eq_take_append_cons_drop, if_pos hi]
      exact ⟨_, .scales target.toNat_lt rfl rfl hsplit⟩

/-- What is issued next goes on from what was issued. -/
theorem Accounts.issue {w : Fleet} (h : w.Accounts) (n : ℕ) :
    w.issued ++ idsFrom w.orchestrator.next_container_id n = idsFrom 1 (w.issued.length + n) := by
  rw [idsFrom_add, ← h.issued_eq, h.next_eq]

theorem Accounts.next {w w' : Fleet} (h : w.Accounts) {n : ℕ} (hissues : Issues w n w') :
    w'.Accounts := by
  have hissue := h.issue n
  have hlength : (w.issued ++ idsFrom w.orchestrator.next_container_id n).length
      = w.issued.length + n := by rw [List.length_append, length_idsFrom]
  cases hissues with
  | deploys hn hnext =>
      refine ⟨?_, ?_, ?_, ?_⟩
      · rw [hlength, hissue]
      · rw [hlength, hnext, h.next_eq, UInt64.ofNat_add, UInt64.add_assoc]
      · refine List.perm_iff_count.mpr fun id ↦ ?_
        have hcount := h.partition.count_eq id
        simp only [List.flatten_append, List.flatten_singleton, List.count_append] at hcount ⊢
        omega
      · intro ids hmem
        rcases List.mem_append.mp hmem with hmem | hmem
        · exact h.short ids hmem
        · rw [List.mem_singleton.mp hmem, length_idsFrom]
          exact hn
  | @scales o before after ids target htarget hn hnext hids =>
      refine ⟨?_, ?_, ?_, ?_⟩
      · rw [hlength, hissue]
      · rw [hlength, hnext, h.next_eq, UInt64.ofNat_add, UInt64.add_assoc]
      · refine List.perm_iff_count.mpr fun id ↦ ?_
        have hcount := h.partition.count_eq id
        have hids' := congrArg (List.count id) (List.take_append_drop target ids)
        rw [hids] at hcount
        simp only [List.flatten_append, List.flatten_cons, List.count_append] at hcount hids' ⊢
        omega
      · have hshort := h.short
        rw [hids] at hshort
        intro ids' hmem
        rcases List.mem_append.mp hmem with hmem | hmem
        · exact hshort ids' (List.mem_append_left _ hmem)
        · rcases List.mem_cons.mp hmem with rfl | hmem
          · rw [hn, length_take_append_idsFrom]
            exact htarget
          · exact hshort ids' (List.mem_append_right _ (List.mem_cons_of_mem ids hmem))

/-- Over a run, what was issued is kept, and the fleet accounts for it. -/
theorem Accounts.run {w w' : Fleet} (h : w.Accounts) {ops : List Op} (hops : w.run ops = some w') :
    w'.Accounts ∧ w.issued <+: w'.issued := by
  induction ops generalizing w with
  | nil =>
      obtain rfl := Option.some.inj hops
      exact ⟨h, List.prefix_rfl⟩
  | cons op ops ih =>
      rw [Fleet.run, List.foldlM_cons] at hops
      obtain ⟨v, hop, hops⟩ := Option.bind_eq_some_iff.mp hops
      obtain ⟨n, hissues⟩ := h.issues hop
      obtain ⟨hw', hissued⟩ := ih (h.next hissues) hops
      refine ⟨hw', List.IsPrefix.trans ?_ hissued⟩
      cases hissues <;> exact List.prefix_append _ _

theorem toNat_one_add {n : ℕ} (hn : n < 2 ^ 64 - 1) : (1 + UInt64.ofNat n).toNat = n + 1 := by
  rw [UInt64.toNat_add, UInt64.toNat_ofNat_of_lt' (by rw [UInt64.size]; omega),
    show (1 : UInt64).toNat = 1 from rfl, Nat.mod_eq_of_lt (by omega), Nat.add_comm]

/-- Before the next id wraps, no id was issued twice. -/
theorem nodup_idsFrom {n : ℕ} (hn : n < 2 ^ 64 - 1) : (idsFrom 1 n).Nodup := by
  refine List.nodup_range.map_on fun i hi j hj heq ↦ ?_
  have hnat := congrArg UInt64.toNat heq
  rw [toNat_one_add ((List.mem_range.mp hi).trans hn),
    toNat_one_add ((List.mem_range.mp hj).trans hn)] at hnat
  exact Nat.succ.inj hnat

/-- Before the next id wraps, it is above every id that was issued. -/
theorem lt_of_mem_idsFrom {n : ℕ} (hn : n < 2 ^ 64 - 1) {id : UInt64} (hid : id ∈ idsFrom 1 n) :
    id < 1 + UInt64.ofNat n := by
  obtain ⟨i, hi, rfl⟩ := List.mem_map.mp hid
  have hlt := List.mem_range.mp hi
  rw [UInt64.lt_iff_toNat_lt, toNat_one_add (hlt.trans hn), toNat_one_add hn]
  exact Nat.succ_lt_succ hlt

/-- **Whose container an id is.**  In every run of a new orchestrator, as long as fewer than
`2 ^ 64 - 1` ids are issued:

- the current lists of the deployments have no duplicates, and no id in common;
- their ids are below the next one;
- an id that was dropped is not issued again;
- every deployment can be scaled to any number of replicas, which is how many ids it gets, and
  keeps as many of the old ones as it can, in order. -/
theorem identity_of_run {ops : List Op} {w : Fleet} (h : new.run ops = some w)
    (hissued : w.issued.length < 2 ^ 64 - 1) :
    (∀ ids ∈ w.deployments, ids.Nodup) ∧
    w.deployments.Pairwise List.Disjoint ∧
    (∀ ids ∈ w.deployments, ∀ id ∈ ids, id < w.orchestrator.next_container_id) ∧
    (∀ ops' w', w.run ops' = some w' → w'.issued.length < 2 ^ 64 - 1 →
      ∃ later, w'.issued = w.issued ++ later ∧ ∀ id ∈ w.dropped, id ∉ later) ∧
    ∀ ids ∈ w.deployments, ∀ target, ∃ ids' orchestrator,
      w.orchestrator.scale ids target = some (ids', orchestrator) ∧
      ids'.length = target.toNat ∧
      ids'.take (min ids.length target.toNat) = ids.take (min ids.length target.toNat) := by
  obtain ⟨haccounts, -⟩ := accounts_new.run h
  have hnodup : (w.deployments.flatten ++ w.dropped).Nodup := by
    rw [haccounts.partition.nodup_iff, haccounts.issued_eq]
    exact nodup_idsFrom hissued
  obtain ⟨hlists, hdisjoint⟩ := List.nodup_flatten.mp hnodup.of_append_left
  refine ⟨hlists, hdisjoint, fun ids hids id hid ↦ ?_, fun ops' w' hrun hissued' ↦ ?_,
    fun ids hids target ↦ ?_⟩
  · have hmem : id ∈ w.issued := haccounts.partition.subset
      (List.mem_append_left _ (List.mem_flatten_of_mem hids hid))
    rw [haccounts.issued_eq] at hmem
    rw [haccounts.next_eq]
    exact lt_of_mem_idsFrom hissued hmem
  · obtain ⟨haccounts', later, hlater⟩ := haccounts.run hrun
    refine ⟨later, hlater.symm, fun id hid ↦ ?_⟩
    have hnodup' : w'.issued.Nodup := haccounts'.issued_eq ▸ nodup_idsFrom hissued'
    rw [← hlater, List.nodup_append] at hnodup'
    have hmem : id ∈ w.issued := haccounts.partition.subset (List.mem_append_right _ hid)
    exact fun hid' ↦ hnodup'.2.2 id hmem id hid' rfl
  · refine ⟨_, _, scale_eq _ (haccounts.short ids hids) target,
      length_take_append_idsFrom ids target.toNat _, ?_⟩
    rw [List.take_append_of_le_length (by rw [List.length_take, min_comm]), List.take_take,
      min_eq_left (min_le_right _ _)]

/-- Two deployments: the first grows to five replicas and shrinks to two, and the second grows
after that. -/
theorem identity_of_run_two :
    ∃ w : Fleet, w.deployments = [[1, 2], [6, 7, 8]] ∧ w.dropped = [3, 4, 5] ∧
      w.deployments.Pairwise List.Disjoint := by
  have hrun : new.run [.deploy ⟨.replicate 32 0, 100000, 268435456, 3, 1⟩, .scale 0 5,
      .deploy ⟨.replicate 32 1, 100000, 268435456, 1, 1⟩, .scale 0 2, .scale 1 3]
      = some ⟨⟨9, 2, 3, 0⟩, [[1, 2], [6, 7, 8]], [1, 2, 3, 4, 5, 6, 7, 8], [3, 4, 5]⟩ := by
    decide +kernel
  exact ⟨_, rfl, rfl, (identity_of_run hrun (by decide)).2.1⟩

end Fleet

end CloudGateway
