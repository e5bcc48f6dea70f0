import CloudGateway.Containers.Identity

/-!
# What an orchestrator issues

The orchestrator does not know which ids are in use: `scale` takes the current ids from the
caller, who may hand in any list, an old one, one with duplicates, or ids that were never
issued.  Whatever is handed in, no call faults, what is returned is a part of it with new ids
behind, and the new ids of a run are the numbers from one on, each issued once
(`issued_of_makeAll`).
-/

namespace CloudGateway

open LittleEndian

namespace ContainerOrchestrator

variable {F : Type} [NatCast F] [LT F] [DecidableLT F]

/-! ## Calls -/

/-- A call of an orchestrator. -/
inductive Call (F : Type)
  | deploy (req : DeployRequest)
  | scale (current_ids : List UInt64) (target_replicas : UInt32)
  | healthCheck (container_id : UInt64) (cpu_usage_pct mem_usage_pct : F)

/-- What a call returns. -/
inductive Returned
  | deployed (result : DeployResult)
  | scaled (ids : List UInt64)
  | checked (status : HealthStatus)
deriving DecidableEq

/-- A call, made; `none` if it faults. -/
def make (self : ContainerOrchestrator) : Call F → Option (Returned × ContainerOrchestrator)
  | .deploy req => some (.deployed (self.deploy req).1, (self.deploy req).2)
  | .scale current_ids target_replicas =>
      (self.scale current_ids target_replicas).map fun r ↦ (.scaled r.1, r.2)
  | .healthCheck container_id cpu_usage_pct mem_usage_pct =>
      let r := self.healthCheck container_id cpu_usage_pct mem_usage_pct
      some (.checked r.1, r.2)

/-- Some calls, made one after the other. -/
def makeAll (self : ContainerOrchestrator) :
    List (Call F) → Option (List Returned × ContainerOrchestrator)
  | [] => some ([], self)
  | call :: calls => do
      let (returned, self) ← self.make call
      let (rest, self) ← self.makeAll calls
      some (returned :: rest, self)

/-! ## New ids -/

/-- The ids that a call returns and was not given: the list is longer by them. -/
def fresh : Call F → Returned → List UInt64
  | .deploy _, .deployed result => result.container_ids
  | .scale current_ids _, .scaled ids => ids.drop current_ids.length
  | _, _ => []

/-- What a call returns, beside the new ids, it was given. -/
def Keeps : Call F → Returned → Prop
  | .scale current_ids _, .scaled ids => ids.take current_ids.length <+: current_ids
  | _, _ => True

/-- The call is one of `deploy`. -/
def Call.isDeploy : Call F → Bool
  | .deploy _ => true
  | _ => false

/-- The call is one of `scale`. -/
def Call.isScale : Call F → Bool
  | .scale _ _ => true
  | _ => false

/-- The call is one of `health_check`. -/
def Call.isHealthCheck : Call F → Bool
  | .healthCheck _ _ _ => true
  | _ => false

/-- What a call does. -/
structure Makes (w : ContainerOrchestrator) (call : Call F) (returned : Returned)
    (w' : ContainerOrchestrator) : Prop where
  fresh_eq : fresh call returned = idsFrom w.next_container_id (fresh call returned).length
  next_eq : w'.next_container_id
    = w.next_container_id + UInt64.ofNat (fresh call returned).length
  keeps : Keeps call returned
  deployments : w'.deployments = w.deployments + UInt64.ofNat call.isDeploy.toNat
  scale_events : w'.scale_events = w.scale_events + UInt64.ofNat call.isScale.toNat
  health_checks : w'.health_checks = w.health_checks + UInt64.ofNat call.isHealthCheck.toNat

omit [NatCast F] [LT F] [DecidableLT F] in
/-- Whatever is handed in, scaling does not fault.  With `2 ^ 32` ids or more, it takes their
number to be less than it is, so it never drops what is not there. -/
theorem scale_makes (self : ContainerOrchestrator) (ids : List UInt64) (target : UInt32) :
    ∃ ids' self', self.scale ids target = some (ids', self') ∧
      Makes (F := F) self (.scale ids target) (.scaled ids') self' := by
  rw [scale]
  split
  · rename_i hup
    rw [issue_eq]
    have hfresh : fresh (F := F) (.scale ids target) (.scaled (ids ++ idsFrom
        self.next_container_id (target.toNat - (UInt32.ofNat ids.length).toNat)))
          = idsFrom self.next_container_id
            (target.toNat - (UInt32.ofNat ids.length).toNat) := List.drop_left
    refine ⟨_, _, rfl, ?_, ?_, ?_, (UInt64.add_zero _).symm, rfl, (UInt64.add_zero _).symm⟩
    · rw [hfresh, length_idsFrom]
    · rw [hfresh, length_idsFrom]
    · exact ⟨[], (List.append_nil _).trans List.take_left⟩
  · rename_i hdown
    have hle : target.toNat ≤ ids.length := by
      rw [gt_iff_lt, UInt32.lt_iff_toNat_lt, not_lt, UInt32.toNat_ofNat'] at hdown
      exact hdown.trans (Nat.mod_le _ _)
    rw [slice_of_le (Nat.zero_le _) hle]
    have hfresh : fresh (F := F) (.scale ids target) (.scaled (ids.take target.toNat)) = [] := by
      rw [fresh, List.drop_eq_nil_iff]
      exact List.length_take_le' _ _
    refine ⟨ids.take target.toNat, _, rfl, ?_, ?_, ?_, (UInt64.add_zero _).symm, rfl,
      (UInt64.add_zero _).symm⟩
    · rw [hfresh]
      rfl
    · rw [hfresh]
      exact (UInt64.add_zero _).symm
    · exact (List.take_prefix _ _).trans (List.take_prefix _ _)

/-- No call faults. -/
theorem exists_makes (self : ContainerOrchestrator) (call : Call F) :
    ∃ returned self', self.make call = some (returned, self') ∧
      Makes self call returned self' := by
  cases call with
  | deploy req =>
      refine ⟨_, _, rfl, ?_⟩
      rw [deploy, issue_eq]
      have hlength := length_idsFrom self.next_container_id req.replicas.toNat
      refine ⟨?_, ?_, trivial, rfl, (UInt64.add_zero _).symm, (UInt64.add_zero _).symm⟩
      · simp only [fresh, List.nil_append, hlength]
      · simp only [fresh, List.nil_append, hlength]
  | scale ids target =>
      obtain ⟨ids', self', hscale, hmakes⟩ := scale_makes (F := F) self ids target
      exact ⟨.scaled ids', self', by rw [make, hscale]; rfl, hmakes⟩
  | healthCheck id cpu mem =>
      refine ⟨_, _, rfl, ?_⟩
      rw [healthCheck_snd]
      exact ⟨rfl, (UInt64.add_zero _).symm, trivial, (UInt64.add_zero _).symm,
        (UInt64.add_zero _).symm, rfl⟩

/-! ## Runs -/

/-- The new ids of a run. -/
def freshIds (calls : List (Call F)) (returned : List Returned) : List UInt64 :=
  (List.zipWith fresh calls returned).flatten

omit [NatCast F] [LT F] [DecidableLT F] in
/-- A counter moves by the calls that it counts. -/
theorem add_ofNat_countP (x : UInt64) (p : Call F → Bool) (call : Call F)
    (calls : List (Call F)) : x + UInt64.ofNat (p call).toNat + UInt64.ofNat (calls.countP p)
      = x + UInt64.ofNat ((call :: calls).countP p) := by
  rw [UInt64.add_assoc, ← UInt64.ofNat_add, List.countP_cons, Nat.add_comm]
  cases p call <;> rfl

/-- What a run does. -/
structure MakesAll (w : ContainerOrchestrator) (calls : List (Call F))
    (returned : List Returned) (w' : ContainerOrchestrator) : Prop where
  fresh_eq : freshIds calls returned
    = idsFrom w.next_container_id (freshIds calls returned).length
  next_eq : w'.next_container_id
    = w.next_container_id + UInt64.ofNat (freshIds calls returned).length
  keeps : List.Forall₂ Keeps calls returned
  deployments : w'.deployments = w.deployments + UInt64.ofNat (calls.countP Call.isDeploy)
  scale_events : w'.scale_events = w.scale_events + UInt64.ofNat (calls.countP Call.isScale)
  health_checks :
    w'.health_checks = w.health_checks + UInt64.ofNat (calls.countP Call.isHealthCheck)

theorem exists_makesAll (self : ContainerOrchestrator) (calls : List (Call F)) :
    ∃ returned self', self.makeAll calls = some (returned, self') ∧
      MakesAll self calls returned self' := by
  induction calls generalizing self with
  | nil =>
      exact ⟨[], self, rfl, rfl, (UInt64.add_zero _).symm, .nil, (UInt64.add_zero _).symm,
        (UInt64.add_zero _).symm, (UInt64.add_zero _).symm⟩
  | cons call calls ih =>
      obtain ⟨returned, self', hmake, hmakes⟩ := exists_makes self call
      obtain ⟨rest, self'', hrest, hall⟩ := ih self'
      refine ⟨returned :: rest, self'', ?_, ?_⟩
      · rw [makeAll, hmake]
        show (self'.makeAll calls).bind _ = _
        rw [hrest]
        rfl
      · have hfresh : freshIds (call :: calls) (returned :: rest)
            = fresh call returned ++ freshIds calls rest := rfl
        have hnext := hall.fresh_eq
        rw [hmakes.next_eq] at hnext
        refine ⟨?_, ?_, .cons hmakes.keeps hall.keeps, ?_, ?_, ?_⟩
        · rw [hfresh, List.length_append, idsFrom_add, ← hmakes.fresh_eq, ← hnext]
        · rw [hall.next_eq, hmakes.next_eq, hfresh, List.length_append, UInt64.ofNat_add,
            UInt64.add_assoc]
        · rw [hall.deployments, hmakes.deployments, add_ofNat_countP]
        · rw [hall.scale_events, hmakes.scale_events, add_ofNat_countP]
        · rw [hall.health_checks, hmakes.health_checks, add_ofNat_countP]

/-- **What an orchestrator issues.**  Whatever a new orchestrator is asked, and whatever lists
it is handed, no call faults, and

- what each call returns is a part of what it was given, with new ids behind;
- the new ids of the run are the numbers from one on, in order, up to the next one;
- as long as there are fewer than `2 ^ 64 - 1` of them, none is issued twice, and the next one
  is above all of them;
- the counters are the numbers of the calls of each kind. -/
theorem issued_of_makeAll (calls : List (Call F)) :
    ∃ returned self, makeAll new calls = some (returned, self) ∧
      List.Forall₂ Keeps calls returned ∧
      freshIds calls returned = idsFrom 1 (freshIds calls returned).length ∧
      self.next_container_id = 1 + UInt64.ofNat (freshIds calls returned).length ∧
      ((freshIds calls returned).length < 2 ^ 64 - 1 → (freshIds calls returned).Nodup ∧
        ∀ id ∈ freshIds calls returned, id < self.next_container_id) ∧
      self.deployments = UInt64.ofNat (calls.countP Call.isDeploy) ∧
      self.scale_events = UInt64.ofNat (calls.countP Call.isScale) ∧
      self.health_checks = UInt64.ofNat (calls.countP Call.isHealthCheck) := by
  obtain ⟨returned, self, hrun, hall⟩ := exists_makesAll new calls
  refine ⟨returned, self, hrun, hall.keeps, hall.fresh_eq, hall.next_eq, fun hfew ↦ ⟨?_, ?_⟩,
    hall.deployments.trans (UInt64.zero_add _), hall.scale_events.trans (UInt64.zero_add _),
    hall.health_checks.trans (UInt64.zero_add _)⟩
  · rw [hall.fresh_eq]
    exact Fleet.nodup_idsFrom hfew
  · intro id hid
    have hnext : self.next_container_id = 1 + UInt64.ofNat (freshIds calls returned).length :=
      hall.next_eq
    have hmem : id ∈ idsFrom 1 (freshIds calls returned).length := by
      have hfresh : freshIds calls returned = idsFrom 1 (freshIds calls returned).length :=
        hall.fresh_eq
      rwa [← hfresh]
    rw [hnext]
    exact Fleet.lt_of_mem_idsFrom hfew hmem

end ContainerOrchestrator

end CloudGateway
