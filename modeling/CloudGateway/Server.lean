import CloudGateway.Ingest.Interleaving

/-!
# The gateway server

`run_gateway` opens a pipeline, binds a socket and receives datagrams for ever, all into
one buffer.  Each datagram is copied out of the buffer and handed to a task of its own,
which calls `process_packet` and logs what came of it; the loop waits for none of them.

A `GatewayServer` is the state of this program between two of its steps: an iteration of
the loop (`receive`), or a step of a task (`Task.step`), which is a section of its call or
its last line.  `Runs s₀ rs s` is a run in which the loop received `rs`, with the steps of
the tasks in between in any order.
-/

namespace CloudGateway

open LittleEndian IngestPipeline

/-! ## Configuration -/

/-- A socket address, without the flow label and the scope of IPv6. -/
inductive SocketAddr where
  | v4 (ip : Vector UInt8 4) (port : UInt16)
  | v6 (ip : Vector UInt16 8) (port : UInt16)
deriving DecidableEq

/-- Gateway configuration. -/
structure GatewayConfig where
  /-- UDP listen address (QUIC/ASP). -/
  listen_addr : SocketAddr
  /-- Maximum packet size (bytes). -/
  max_packet_size : ℕ
  db_path : String
  cache_capacity : ℕ
  master_secret : Bytes32
  world_min : Vec3
  world_max : Vec3

/-- `100.0`. -/
def F32.hundred : F32 := ⟨0x42C80000⟩

/-- `-100.0`. -/
def F32.negHundred : F32 := ⟨0xC2C80000⟩

/-- The configuration `main` runs the gateway with. -/
def GatewayConfig.default : GatewayConfig where
  listen_addr := .v4 (.replicate 4 0) 4433
  max_packet_size := 65535
  db_path := "./alice-gateway-data"
  cache_capacity := 100000
  master_secret := .replicate 32 0
  world_min := ⟨.negHundred, .negHundred, .negHundred⟩
  world_max := ⟨.hundred, .hundred, .hundred⟩

/-! ## The log -/

/-- `Display` of an error. -/
def IngestError.display : IngestError → String
  | .unknownDevice id => "Unknown device: " ++ toString id
  | .decryptionFailed msg => "Decryption failed: " ++ msg
  | .malformedPacket msg => "Malformed packet: " ++ msg
  | .storageError msg => "Storage error: " ++ msg

/-- A line of the log: two at `info` before the loop, one at `info` or `warn` from a task,
one at `error` from the loop. -/
inductive LogLine where
  | starting (listen_addr : SocketAddr)
  | listening (listen_addr : SocketAddr)
  | keyframe (src : SocketAddr) (device_id : UInt64) (len : ℕ) (scene_version : UInt32)
  | rejected (src : SocketAddr) (e : IngestError)
  | recvError (e : String)
deriving DecidableEq

/-- The text of a line, given the `Display` of an address. -/
def LogLine.text (display : SocketAddr → String) : LogLine → String
  | .starting addr => "ALICE Cloud Gateway starting on " ++ display addr
  | .listening addr => "Listening on UDP " ++ display addr
  | .keyframe src device_id len scene_version => "Keyframe from " ++ display src
      ++ " (device " ++ toString device_id ++ "): " ++ toString len ++ " bytes, scene v"
      ++ toString scene_version
  | .rejected src e => "Packet from " ++ display src ++ " rejected: " ++ e.display
  | .recvError e => "UDP recv error: " ++ e

/-- What a task logs of its call. -/
def report (src : SocketAddr) (len : ℕ) : Except IngestError IngestResult → List LogLine
  | .ok stats =>
      if stats.is_keyframe then [.keyframe src stats.device_id len stats.scene_version] else []
  | .error e => [.rejected src e]

/-! ## The server -/

variable {S : Siblings}

/-- What the tasks share: the pipeline behind its `Arc`, and the log. -/
structure Shared (S : Siblings) where
  pipeline : IngestPipeline S
  log : List LogLine

/-- A task: a call on a copy of a datagram, and whether it has reported. -/
structure Task (S : Siblings) where
  src : SocketAddr
  len : ℕ
  call : Call S
  reported : Bool

/-- The next step of a task: a section of its call, or its report. -/
def Task.step (self : Task S) (shared : Shared S) : Option (Task S × Shared S) :=
  match self.call.phase with
  | .returned res =>
      if self.reported then none
      else some ({ self with reported := true },
        { shared with log := shared.log ++ report self.src self.len res })
  | _ => (self.call.step shared.pipeline).map fun r ↦
      ({ self with call := r.1 }, { shared with pipeline := r.2 })

/-- The gateway between two steps. -/
structure GatewayServer (S : Siblings) where
  shared : Shared S
  /-- The receive buffer. -/
  buf : Bytes
  tasks : List (Task S)

/-- What `recv_from` comes back with: a datagram and where it is from, or an error.  The
clock is that of the call that will be made. -/
inductive Received where
  | datagram (bytes : Bytes) (src : SocketAddr) (clock : CallClock)
  | error (e : String)

/-- `recv_from` writes a datagram to the front of a buffer and returns how many bytes it
has written; what does not fit is discarded. -/
def recvFrom (buf datagram : Bytes) : ℕ × Bytes :=
  let len := min datagram.length buf.length
  (len, datagram.take len ++ buf.drop len)

namespace GatewayServer

/-- `run_gateway` up to its loop. -/
def start (S : Siblings) (config : GatewayConfig)
    (bindSocket : SocketAddr → Except S.db.Error Unit) : Except S.db.Error (GatewayServer S) := do
  let pipeline ← IngestPipeline.new S config.db_path config.cache_capacity
    config.master_secret config.world_min config.world_max
  bindSocket config.listen_addr
  return {
    shared := ⟨pipeline, [.starting config.listen_addr, .listening config.listen_addr]⟩
    buf := .replicate config.max_packet_size 0
    tasks := [] }

/-- One iteration of the loop. -/
def receive (self : GatewayServer S) : Received → GatewayServer S
  | .datagram bytes src clock =>
      let (len, buf) := recvFrom self.buf bytes
      let data := buf.take len
      { self with
        buf := buf
        tasks := self.tasks ++ [⟨src, len, .arrive (clock, data), false⟩] }
  | .error e => { self with shared.log := self.shared.log ++ [.recvError e] }

/-- The pool of the tasks. -/
def pool (self : GatewayServer S) : Pool (Shared S) (Task S) := ⟨self.shared, self.tasks⟩

/-- The server after steps of its tasks. -/
def withPool (self : GatewayServer S) (w : Pool (Shared S) (Task S)) : GatewayServer S :=
  { self with shared := w.shared, tasks := w.threads }

/-- A run of the server. -/
inductive Runs (s₀ : GatewayServer S) : List Received → GatewayServer S → Prop
  /-- The loop has been entered. -/
  | start : Runs s₀ [] s₀
  /-- The loop receives. -/
  | receive {rs : List Received} {s : GatewayServer S} (h : Runs s₀ rs s) (r : Received) :
      Runs s₀ (rs ++ [r]) (s.receive r)
  /-- A task takes a step. -/
  | task {rs : List Received} {s : GatewayServer S} {w : Pool (Shared S) (Task S)}
      (h : Runs s₀ rs s) (hs : Pool.Step Task.step s.pool w) : Runs s₀ rs (s.withPool w)

/-- The loop receives `rs`, and then the tasks at the given positions take a step each. -/
def drive (s₀ : GatewayServer S) (rs : List Received) (is : List ℕ) :
    Option (GatewayServer S) :=
  let s := rs.foldl GatewayServer.receive s₀
  (Pool.schedule Task.step (fun _ ↦ True) s.pool is).map s.withPool

/-- Tasks can take any number of steps. -/
theorem Runs.tasks {s₀ s : GatewayServer S} {rs : List Received} {w : Pool (Shared S) (Task S)}
    (h : Runs s₀ rs s) (hw : Pool.Reaches Task.step s.pool w) : Runs s₀ rs (s.withPool w) := by
  induction hw with
  | refl => exact h
  | tail _ hs ih => exact ih.task hs

theorem drive_inv {s₀ s : GatewayServer S} {rs : List Received} {is : List ℕ}
    (h : drive s₀ rs is = some s) : ∃ w,
      Pool.Reaches Task.step (rs.foldl GatewayServer.receive s₀).pool w ∧
      s = (rs.foldl GatewayServer.receive s₀).withPool w := by
  obtain ⟨w, hw, rfl⟩ := Option.map_eq_some_iff.mp h
  exact ⟨w, (Pool.reachesWithin_of_schedule hw).reaches, rfl⟩

/-- What is driven is a run. -/
theorem runs_of_drive {s₀ s : GatewayServer S} {rs : List Received} {is : List ℕ}
    (h : drive s₀ rs is = some s) : Runs s₀ rs s := by
  have hreceive : Runs s₀ rs (rs.foldl GatewayServer.receive s₀) := by
    clear h
    induction rs using List.reverseRecOn with
    | nil => exact .start
    | append_singleton rs r ih =>
        rw [List.foldl_append]
        exact ih.receive r
  obtain ⟨w, hw, rfl⟩ := drive_inv h
  exact hreceive.tasks hw

/-- A configuration with packets of at most 46 bytes. -/
def smallConfig : GatewayConfig where
  listen_addr := .v4 (.replicate 4 0) 4433
  max_packet_size := 46
  db_path := "db"
  cache_capacity := 1000
  master_secret := .replicate 32 42
  world_min := ⟨.negTen, .negTen, .negTen⟩
  world_max := ⟨.ten, .ten, .ten⟩

/-- A server so configured over the crates in memory. -/
def inMemory : GatewayServer Siblings.inMemory where
  shared := ⟨.inMemory, [.starting smallConfig.listen_addr, .listening smallConfig.listen_addr]⟩
  buf := .replicate 46 0
  tasks := []

theorem start_inMemory : start .inMemory smallConfig (fun _ ↦ .ok ()) = .ok inMemory := rfl

end GatewayServer

end CloudGateway
