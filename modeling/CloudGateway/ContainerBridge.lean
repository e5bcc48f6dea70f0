import Mathlib.Data.Nat.Cast.Defs
import CloudGateway.Library.LittleEndian

/-!
# Containers

`ContainerOrchestrator` deploys containers and scales their number up and down.  It knows a
container by its id only, and gives out the ids in ascending order (`issue`).  The ids are
`u64`, so the next one wraps, as in a release build.

The loads of a health check are `f32`.  They are a parameter `F`, of which the definition uses
the comparison only.
-/

namespace CloudGateway

open LittleEndian

/-- Container deployment request. -/
structure DeployRequest where
  image_hash : Vector UInt8 32
  cpu_limit_us : UInt64
  memory_limit : UInt64
  replicas : UInt32
  region : UInt8

/-- Container health status. -/
inductive HealthStatus
  | healthy
  | degraded
  | unhealthy
  | unknown
deriving DecidableEq, Repr

/-- Deployment result. -/
structure DeployResult where
  container_ids : List UInt64
  status : HealthStatus
deriving DecidableEq

/-- Container orchestrator. -/
structure ContainerOrchestrator where
  next_container_id : UInt64
  deployments : UInt64
  scale_events : UInt64
  health_checks : UInt64
deriving DecidableEq

namespace ContainerOrchestrator

/-- A new orchestrator. -/
def new : ContainerOrchestrator where
  next_container_id := 1
  deployments := 0
  scale_events := 0
  health_checks := 0

/-- Push so many new ids onto a list. -/
def issue : ℕ → List UInt64 × ContainerOrchestrator → List UInt64 × ContainerOrchestrator
  | 0, w => w
  | n + 1, (ids, self) =>
      issue n (ids ++ [self.next_container_id],
        { self with next_container_id := self.next_container_id + 1 })

/-- Deploy containers. -/
def deploy (self : ContainerOrchestrator) (req : DeployRequest) :
    DeployResult × ContainerOrchestrator :=
  let (ids, self) := issue req.replicas.toNat ([], self)
  (⟨ids, .healthy⟩, { self with deployments := self.deployments + 1 })

/-- Scale replicas up or down; `none` is a slice out of range. -/
def scale (self : ContainerOrchestrator) (current_ids : List UInt64) (target_replicas : UInt32) :
    Option (List UInt64 × ContainerOrchestrator) :=
  let self := { self with scale_events := self.scale_events + 1 }
  -- `len() as u32` keeps the low 32 bits.
  let current := UInt32.ofNat current_ids.length
  if target_replicas > current then
    some (issue (target_replicas.toNat - current.toNat) (current_ids, self))
  else
    (slice current_ids 0 target_replicas.toNat).map fun ids ↦ (ids, self)

/-- Health check: the status follows from the loads. -/
def healthCheck {F : Type} [NatCast F] [LT F] [DecidableLT F] (self : ContainerOrchestrator)
    (_container_id : UInt64) (cpu_usage_pct mem_usage_pct : F) :
    HealthStatus × ContainerOrchestrator :=
  let self := { self with health_checks := self.health_checks + 1 }
  if cpu_usage_pct > ((95 : ℕ) : F) ∨ mem_usage_pct > ((95 : ℕ) : F) then (.unhealthy, self)
  else if cpu_usage_pct > ((80 : ℕ) : F) ∨ mem_usage_pct > ((80 : ℕ) : F) then (.degraded, self)
  else (.healthy, self)

/-- A health check counts itself and changes nothing else. -/
theorem healthCheck_snd {F : Type} [NatCast F] [LT F] [DecidableLT F]
    (self : ContainerOrchestrator) (container_id : UInt64) (cpu_usage_pct mem_usage_pct : F) :
    (self.healthCheck container_id cpu_usage_pct mem_usage_pct).2
      = { self with health_checks := self.health_checks + 1 } := by
  rw [healthCheck]
  split
  · rfl
  · split <;> rfl

/-! ## What is issued -/

/-- So many ids, from `next` on. -/
def idsFrom (next : UInt64) (n : ℕ) : List UInt64 :=
  (List.range n).map fun i ↦ next + UInt64.ofNat i

theorem length_idsFrom (next : UInt64) (n : ℕ) : (idsFrom next n).length = n := by
  rw [idsFrom, List.length_map, List.length_range]

@[simp] theorem idsFrom_zero (next : UInt64) : idsFrom next 0 = [] := rfl

theorem idsFrom_succ (next : UInt64) (n : ℕ) :
    idsFrom next (n + 1) = next :: idsFrom (next + 1) n := by
  rw [idsFrom, List.range_succ_eq_map, List.map_cons, List.map_map, idsFrom]
  congr 1
  · exact UInt64.add_zero next
  · refine List.map_congr_left fun i _ ↦ ?_
    show next + UInt64.ofNat (i + 1) = next + 1 + UInt64.ofNat i
    rw [UInt64.ofNat_add, UInt64.add_assoc, UInt64.add_comm 1]
    rfl

theorem idsFrom_add (next : UInt64) (m n : ℕ) :
    idsFrom next (m + n) = idsFrom next m ++ idsFrom (next + UInt64.ofNat m) n := by
  rw [idsFrom, List.range_add, List.map_append, List.map_map, idsFrom, idsFrom]
  refine congrArg _ (List.map_congr_left fun i _ ↦ ?_)
  rw [Function.comp, UInt64.ofNat_add, ← UInt64.add_assoc]

/-- The ids are pushed in order, and the next one moves behind them. -/
theorem issue_eq (n : ℕ) (ids : List UInt64) (self : ContainerOrchestrator) :
    issue n (ids, self) = (ids ++ idsFrom self.next_container_id n,
      { self with next_container_id := self.next_container_id + UInt64.ofNat n }) := by
  induction n generalizing ids self with
  | zero =>
      show (ids, self) = (ids ++ [], { self with next_container_id := self.next_container_id + 0 })
      rw [List.append_nil, UInt64.add_zero]
  | succ n ih =>
      rw [issue, ih, idsFrom_succ, List.append_assoc, List.singleton_append, UInt64.ofNat_add,
        UInt64.add_comm (UInt64.ofNat n), ← UInt64.add_assoc]
      rfl

/-- A list that is short enough is scaled to as many ids as asked for, without a fault: what is
kept comes first, and what is new behind it. -/
theorem scale_eq (self : ContainerOrchestrator) {ids : List UInt64} (hshort : ids.length < 2 ^ 32)
    (target : UInt32) :
    self.scale ids target = some (ids.take target.toNat
        ++ idsFrom self.next_container_id (target.toNat - ids.length),
      { self with
        next_container_id :=
          self.next_container_id + UInt64.ofNat (target.toNat - ids.length)
        scale_events := self.scale_events + 1 }) := by
  have hcurrent : (UInt32.ofNat ids.length).toNat = ids.length := UInt32.toNat_ofNat_of_lt' hshort
  rw [scale]
  split
  · rename_i hup
    rw [gt_iff_lt, UInt32.lt_iff_toNat_lt, hcurrent] at hup
    rw [issue_eq, hcurrent, List.take_of_length_le hup.le]
  · rename_i hdown
    rw [gt_iff_lt, UInt32.lt_iff_toNat_lt, hcurrent, not_lt] at hdown
    rw [slice_of_le (Nat.zero_le _) hdown, Nat.sub_eq_zero_of_le hdown, idsFrom_zero,
      List.append_nil, show UInt64.ofNat 0 = 0 from rfl, UInt64.add_zero]
    rfl

end ContainerOrchestrator

end CloudGateway
