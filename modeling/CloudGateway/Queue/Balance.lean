import CloudGateway.QueueBridge
import CloudGateway.Library.Loads

/-!
# The load of the queues

A queue is chosen by the remainder of the routing key, so messages with consecutive keys are
spread over the queues as evenly as they can be, whatever the first key is and in whatever
order they arrive (`queues_balanced`).  `route` and `route_with_priority` agree on what is not
critical.
-/

namespace CloudGateway

namespace GatewayRouter

open Loads

/-- A message, and the method of a router that it is given to. -/
inductive Call
  | route (msg : GatewayMessage)
  | routeWithPriority (msg : GatewayMessage)
deriving DecidableEq

namespace Call

/-- The message of a call. -/
def msg : Call → GatewayMessage
  | .route msg | .routeWithPriority msg => msg

/-- The call routes by priority, and the message is critical. -/
def Overrides : Call → Prop
  | .route _ => False
  | .routeWithPriority msg => msg.priority = .critical

instance (call : Call) : Decidable call.Overrides := by
  cases call <;> unfold Overrides <;> infer_instance

/-- The call, made. -/
def apply (router : GatewayRouter) : Call → UInt32 × GatewayRouter
  | .route msg => router.route msg
  | .routeWithPriority msg => router.routeWithPriority msg

@[simp] theorem queue_count_apply (router : GatewayRouter) (call : Call) :
    (call.apply router).2.queue_count = router.queue_count := by
  cases call <;> rfl

@[simp] theorem messages_routed_apply (router : GatewayRouter) (call : Call) :
    (call.apply router).2.messages_routed = router.messages_routed + 1 := by
  cases call <;> rfl

@[simp] theorem bytes_routed_apply (router : GatewayRouter) (call : Call) :
    (call.apply router).2.bytes_routed
      = router.bytes_routed + UInt64.ofNat call.msg.payload.length := by
  cases call <;> rfl

/-- Unless the priority overrides it, both methods choose the queue by the key. -/
theorem index_apply (router : GatewayRouter) {call : Call} (h : ¬ call.Overrides) :
    (call.apply router).1 = call.msg.routing_key % router.queue_count := by
  cases call with
  | route msg => rfl
  | routeWithPriority msg => exact if_neg h

end Call

/-- The queues some messages are assigned to, one after the other, and the router after them. -/
def deal (self : GatewayRouter) : List Call → List UInt32 × GatewayRouter
  | [] => ([], self)
  | call :: calls =>
      let (index, self) := call.apply self
      let (indices, self) := self.deal calls
      (index :: indices, self)

theorem deal_cons (self : GatewayRouter) (call : Call) (calls : List Call) :
    self.deal (call :: calls) = ((call.apply self).1 :: ((call.apply self).2.deal calls).1,
      ((call.apply self).2.deal calls).2) := rfl

/-- The queues, by the keys. -/
theorem indices_deal (self : GatewayRouter) {calls : List Call}
    (h : ∀ call ∈ calls, ¬ call.Overrides) :
    (self.deal calls).1 = calls.map fun call ↦ call.msg.routing_key % self.queue_count := by
  induction calls generalizing self with
  | nil => rfl
  | cons call calls ih =>
      have hcalls := ih (call.apply self).2 fun c hc ↦ h c (List.mem_cons_of_mem call hc)
      rw [deal_cons, hcalls, Call.index_apply self (h call List.mem_cons_self),
        Call.queue_count_apply, List.map_cons]

/-- Every message is counted. -/
theorem messages_routed_deal (self : GatewayRouter) (calls : List Call) :
    (self.deal calls).2.messages_routed = self.messages_routed + UInt64.ofNat calls.length := by
  induction calls generalizing self with
  | nil => exact (UInt64.add_zero _).symm
  | cons call calls ih =>
      rw [deal_cons, ih, Call.messages_routed_apply, List.length_cons, UInt64.add_assoc,
        UInt64.ofNat_add, UInt64.add_comm 1]
      rfl

/-- So are its bytes. -/
theorem bytes_routed_deal (self : GatewayRouter) (calls : List Call) :
    (self.deal calls).2.bytes_routed = self.bytes_routed
      + UInt64.ofNat (calls.map fun call ↦ call.msg.payload.length).sum := by
  induction calls generalizing self with
  | nil => exact (UInt64.add_zero _).symm
  | cons call calls ih =>
      rw [deal_cons, ih, Call.bytes_routed_apply, List.map_cons, List.sum_cons,
        UInt64.ofNat_add, UInt64.add_assoc]

/-- A new router has as many queues as asked for, but at least one. -/
theorem toNat_queue_count_new (queue_count : UInt32) :
    (new queue_count).queue_count.toNat = max 1 queue_count.toNat := by
  show (if queue_count ≤ 1 then 1 else queue_count).toNat = max 1 queue_count.toNat
  split
  · rename_i h
    exact (max_eq_left (UInt32.le_iff_toNat_le.mp h)).symm
  · rename_i h
    rw [UInt32.le_iff_toNat_le] at h
    exact (max_eq_right (not_le.mp h).le).symm

/-- The remainders of the keys, in another order. -/
theorem indices_deal_perm (self : GatewayRouter) {s n : ℕ} {calls : List Call}
    (hkeys : (calls.map fun call ↦ call.msg.routing_key.toNat).Perm (List.range' s n))
    (h : ∀ call ∈ calls, ¬ call.Overrides) :
    ((self.deal calls).1.map UInt32.toNat).Perm
      ((List.range' s n).map (· % self.queue_count.toNat)) := by
  rw [self.indices_deal h, List.map_map]
  have hperm := hkeys.map (· % self.queue_count.toNat)
  rw [List.map_map] at hperm
  have hmod : UInt32.toNat ∘ (fun call : Call ↦ call.msg.routing_key % self.queue_count)
      = (· % self.queue_count.toNat) ∘ fun call ↦ call.msg.routing_key.toNat := by
    funext call
    exact UInt32.toNat_mod _ _
  rwa [hmod]

/-- **The queues are balanced.**  A router that is built for any number of queues, with
whatever counts, is given messages with the keys `s`, …, `s + n - 1`, in any order and by
either method, but no critical one by priority.

- Each message is assigned to one of the queues.
- A queue is assigned the average number of messages, rounded down or up; `n % q` queues are
  assigned one more than the average rounded down.
- The `u64` counts of messages and of bytes grow by what was given. -/
theorem queues_balanced (queue_count : UInt32) (messages_routed bytes_routed : UInt64)
    {s n : ℕ} {calls : List Call}
    (hkeys : (calls.map fun call ↦ call.msg.routing_key.toNat).Perm (List.range' s n))
    (hcritical : ∀ call ∈ calls, ¬ call.Overrides) :
    let q := max 1 queue_count.toNat
    let router : GatewayRouter := { new queue_count with messages_routed, bytes_routed }
    (∀ index ∈ (router.deal calls).1, index.toNat < q) ∧
      Balanced q n (fun i ↦ ((router.deal calls).1.map UInt32.toNat).count i) ∧
      (router.deal calls).2.messages_routed.toNat = (messages_routed.toNat + n) % 2 ^ 64 ∧
      (router.deal calls).2.bytes_routed.toNat = (bytes_routed.toNat
        + (calls.map fun call ↦ call.msg.payload.length).sum) % 2 ^ 64 := by
  intro q router
  have hcount : router.queue_count.toNat = q := toNat_queue_count_new queue_count
  have hq : 0 < q := lt_max_of_lt_left Nat.one_pos
  have hlength : calls.length = n := by
    have hlen := hkeys.length_eq
    rwa [List.length_map, List.length_range'] at hlen
  refine ⟨fun index hindex ↦ ?_, ?_, ?_, ?_⟩
  · rw [router.indices_deal hcritical] at hindex
    obtain ⟨call, -, rfl⟩ := List.mem_map.mp hindex
    rw [UInt32.toNat_mod, hcount]
    exact Nat.mod_lt _ hq
  · have hbalanced := balanced_range' hq s n
    have hperm := router.indices_deal_perm hkeys hcritical
    rw [hcount] at hperm
    have hload : (fun i ↦ ((router.deal calls).1.map UInt32.toNat).count i)
        = fun i ↦ ((List.range' s n).map (· % q)).count i := by
      funext i
      exact hperm.count_eq i
    rwa [hload]
  · rw [messages_routed_deal, UInt64.toNat_add, UInt64.toNat_ofNat', Nat.add_mod_mod, hlength]
  · rw [bytes_routed_deal, UInt64.toNat_add, UInt64.toNat_ofNat', Nat.add_mod_mod]

/-- The last four keys there are, in three queues. -/
theorem queues_balanced_three :
    let message (key : UInt32) (priority : MessagePriority) : GatewayMessage :=
      ⟨1, 1000, priority, [0xAA, 0xBB], key⟩
    let calls : List Call :=
      [.routeWithPriority (message 4294967294 .low), .route (message 4294967292 .critical),
        .route (message 4294967295 .normal), .routeWithPriority (message 4294967293 .high)]
    (∀ index ∈ ((new 3).deal calls).1, index.toNat < 3) ∧
      Balanced 3 4 (fun i ↦ (((new 3).deal calls).1.map UInt32.toNat).count i) ∧
      ((new 3).deal calls).2.messages_routed.toNat = 4 ∧
      ((new 3).deal calls).2.bytes_routed.toNat = 8 := by
  intro message calls
  exact queues_balanced 3 0 0 (s := 4294967292) (by decide) (by decide)

end GatewayRouter

end CloudGateway
