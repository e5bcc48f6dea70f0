import CloudGateway.Library.LittleEndian

/-!
# Messages and the message router

A `GatewayMessage` travels as a header of 24 bytes and its payload (`toBytes`,
`fromBytes`).  `fromBytes` can fail in two ways: by its result `None`, and by an index
that is out of range, which is a fault.

`GatewayRouter` counts the messages it is given and assigns each to one of its
queues.  There is always a queue to assign to: `new` clamps the queue count to at
least one, which the structure carries as `queue_pos`.  Counters are `u64` and
wrap, as in a release build.

The router forgets a message once it is counted.  So that a run can be asked which
messages it routed, a pipeline is built over a `RouterApi`: the gateway's own is
`GatewayRouter.api`, and `RouterApi.logged` is the same with a log.
-/

namespace CloudGateway

/-- Message priority for queue routing. -/
inductive MessagePriority where
  | low
  | normal
  | high
  | critical
deriving DecidableEq, Repr

/-- Routable message envelope. -/
structure GatewayMessage where
  source_device_id : UInt64
  timestamp_ms : UInt64
  priority : MessagePriority
  payload : Bytes
  routing_key : UInt32
deriving DecidableEq

/-- `self as u8`. -/
def MessagePriority.toU8 : MessagePriority → UInt8
  | .low => 0
  | .normal => 1
  | .high => 2
  | .critical => 3

/-- The priority of a byte, if it is one. -/
def MessagePriority.ofU8 : UInt8 → Option MessagePriority
  | 0 => some .low
  | 1 => some .normal
  | 2 => some .high
  | 3 => some .critical
  | _ => none

namespace GatewayMessage

open LittleEndian

/-- Serialize header (24 bytes) + payload. -/
def toBytes (self : GatewayMessage) : Bytes :=
  u64ToLe self.source_device_id
    ++ u64ToLe self.timestamp_ms
    ++ [self.priority.toU8]
    ++ u32ToLe self.routing_key
    ++ u16ToLe (UInt16.ofNat self.payload.length)
    ++ [0] -- padding
    ++ self.payload

/-- A value that is read with an index: out of range is a fault. -/
def indexed {α : Type} (x : Option α) : OptionT Option α := OptionT.lift x

/-- A value that may be missing: then the result is `None`. -/
def tried {α : Type} (x : Option α) : OptionT Option α := OptionT.mk (some x)

/-- Deserialize; `none` is a fault, `some none` the result `None`. -/
def fromBytes (buf : Bytes) : Option (Option GatewayMessage) := OptionT.run do
  if buf.length < 24 then failure
  let source_device_id ← tried (u64FromLe (← indexed (slice buf 0 8)))
  let timestamp_ms ← tried (u64FromLe (← indexed (slice buf 8 16)))
  let priority ← tried (MessagePriority.ofU8 (← indexed buf[16]?))
  let routing_key ← tried (u32FromLe (← indexed (slice buf 17 21)))
  let payload_len ← tried (u16FromLe (← indexed (slice buf 21 23)))
  if buf.length < 24 + payload_len.toNat then failure
  let payload ← indexed (slice buf 24 (24 + payload_len.toNat))
  return { source_device_id, timestamp_ms, priority, payload, routing_key }

end GatewayMessage

/-- Gateway message router. -/
structure GatewayRouter where
  messages_routed : UInt64
  bytes_routed : UInt64
  queue_count : UInt32
  queue_pos : 0 < queue_count
deriving DecidableEq

namespace GatewayRouter

/-- Clamping a queue count to at least one makes it positive. -/
theorem max_one_pos (queue_count : UInt32) : 0 < max queue_count 1 := by
  show 0 < if queue_count ≤ 1 then 1 else queue_count
  split
  · decide
  · rename_i h
    rw [UInt32.le_iff_toNat_le] at h
    rw [UInt32.lt_iff_toNat_lt]
    have h0 : (0 : UInt32).toNat = 0 := rfl
    have h1 : (1 : UInt32).toNat = 1 := rfl
    omega

/-- A router with at least one queue. -/
def new (queue_count : UInt32) : GatewayRouter where
  messages_routed := 0
  bytes_routed := 0
  queue_count := max queue_count 1
  queue_pos := max_one_pos queue_count

/-- Determine target queue index for a message. -/
def route (self : GatewayRouter) (msg : GatewayMessage) : UInt32 × GatewayRouter :=
  (msg.routing_key % self.queue_count,
    { self with
      messages_routed := self.messages_routed + 1
      bytes_routed := self.bytes_routed + UInt64.ofNat msg.payload.length })

/-- Route with priority override (critical → queue 0). -/
def routeWithPriority (self : GatewayRouter) (msg : GatewayMessage) :
    UInt32 × GatewayRouter :=
  (if msg.priority = .critical then 0 else msg.routing_key % self.queue_count,
    { self with
      messages_routed := self.messages_routed + 1
      bytes_routed := self.bytes_routed + UInt64.ofNat msg.payload.length })

@[simp] theorem messages_routed_routeWithPriority (self : GatewayRouter)
    (msg : GatewayMessage) :
    (self.routeWithPriority msg).2.messages_routed = self.messages_routed + 1 := rfl

@[simp] theorem bytes_routed_routeWithPriority (self : GatewayRouter) (msg : GatewayMessage) :
    (self.routeWithPriority msg).2.bytes_routed
      = self.bytes_routed + UInt64.ofNat msg.payload.length := rfl

end GatewayRouter

/-- What the pipeline calls of its message router. -/
structure RouterApi where
  Router : Type
  routeWithPriority : Router → GatewayMessage → UInt32 × Router

/-- The router of the gateway. -/
abbrev GatewayRouter.api : RouterApi := ⟨GatewayRouter, GatewayRouter.routeWithPriority⟩

/-- A router with a log of the messages it is given. -/
abbrev RouterApi.logged (R : RouterApi) : RouterApi where
  Router := R.Router × List GatewayMessage
  routeWithPriority router msg :=
    let (queue_index, router') := R.routeWithPriority router.1 msg
    (queue_index, (router', router.2 ++ [msg]))

end CloudGateway
