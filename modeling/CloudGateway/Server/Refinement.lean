import CloudGateway.Ingest.Provenance
import CloudGateway.Server

/-!
# The server is its calls

Seen from the pipeline, a run of the server is a run of the pool of the calls it has made:
one for each datagram received, on that datagram's own bytes as far as the buffer reaches
(`refines_of_runs`).  The tasks, which arrive one by one, could as well have been there
from the start, so every law about interleaved calls is a law about the server.

The log is the other half of the refinement.  It holds, in some order, the two lines of
the start, one line for each receive error, and the report of each task that has made it;
so what the counters count and what the log says can be held against each other
(`audit_of_runs`).
-/

namespace CloudGateway

open LittleEndian IngestPipeline

variable {S : Siblings}

/-! ## One step -/

/-- The call made for what was received, with a buffer of `n` bytes. -/
def Received.call (n : ℕ) : Received → Option (CallClock × Bytes)
  | .datagram bytes _ clock => some (clock, bytes.take n)
  | .error _ => none

/-- Where a datagram is from, and how many of its bytes have been received. -/
def Received.origin (n : ℕ) : Received → Option (SocketAddr × ℕ)
  | .datagram bytes src _ => some (src, min bytes.length n)
  | .error _ => none

/-- The line the loop logs. -/
def Received.line : Received → Option LogLine
  | .datagram .. => none
  | .error e => some (.recvError e)

/-- The calls made for what was received. -/
def callsOf (n : ℕ) (rs : List Received) : List (CallClock × Bytes) :=
  rs.filterMap (Received.call n)

/-- Where a task's datagram is from, and its length. -/
def Task.origin (self : Task S) : SocketAddr × ℕ := (self.src, self.len)

/-- What a task has logged. -/
def Task.lines (self : Task S) : List LogLine :=
  match self.call.phase with
  | .returned res => if self.reported then report self.src self.len res else []
  | _ => []

/-- A copy holds the bytes of its own datagram that fit, and none of an earlier one. -/
theorem take_recvFrom (buf datagram : Bytes) :
    (recvFrom buf datagram).2.take (recvFrom buf datagram).1 = datagram.take buf.length := by
  have hlen : (datagram.take (min datagram.length buf.length)).length
      = min datagram.length buf.length := by
    rw [List.length_take]
    exact min_eq_left (min_le_left _ _)
  have htake : datagram.take (min datagram.length buf.length) = datagram.take buf.length := by
    rw [min_comm, ← List.take_take, List.take_length]
  calc (recvFrom buf datagram).2.take (recvFrom buf datagram).1
      = datagram.take (min datagram.length buf.length) := List.take_left' hlen
    _ = datagram.take buf.length := htake

theorem length_recvFrom (buf datagram : Bytes) :
    (recvFrom buf datagram).2.length = buf.length := by
  simp only [recvFrom, List.length_append, List.length_take, List.length_drop]
  omega

/-- A step of a task is a section of its call, or its report. -/
theorem Task.step_cases {t t' : Task S} {x y : Shared S} (h : t.step x = some (t', y)) :
    (∃ c p, t.call.step x.pipeline = some (c, p) ∧ t' = { t with call := c } ∧
      y = { x with pipeline := p }) ∨
    (∃ res, t.call.phase = .returned res ∧ t.reported = false ∧
      t' = { t with reported := true } ∧
      y = { x with log := x.log ++ report t.src t.len res }) := by
  unfold Task.step at h
  split at h
  · rename_i res hphase
    split at h
    · cases h
    · rename_i hreported
      obtain ⟨rfl, rfl⟩ := Prod.mk.inj (Option.some.inj h)
      exact Or.inr ⟨res, hphase, by simpa using hreported, rfl, rfl⟩
  · obtain ⟨⟨c, p⟩, hstep, h⟩ := Option.map_eq_some_iff.mp h
    obtain ⟨rfl, rfl⟩ := Prod.mk.inj h
    exact Or.inl ⟨c, p, hstep, rfl, rfl⟩

theorem Task.lines_of_unreported {t : Task S} (h : t.reported = false) : t.lines = [] := by
  unfold Task.lines
  split
  · rw [h]
    rfl
  · rfl

/-- A keyframe a task has logged is its own. -/
theorem Task.keyframe_inv (t : Task S) {src : SocketAddr} {d : UInt64} {len : ℕ} {v : UInt32}
    (h : LogLine.keyframe src d len v ∈ t.lines) : ∃ r, t.call.phase = .returned (.ok r) ∧
      r.is_keyframe = true ∧ d = r.device_id ∧ len = t.len := by
  unfold Task.lines at h
  split at h
  · rename_i res hres
    split at h
    · cases res with
      | error e => simp [report] at h
      | ok r =>
          cases hk : r.is_keyframe with
          | false => simp [report, hk] at h
          | true =>
              simp only [report, hk, if_true, List.mem_singleton, LogLine.keyframe.injEq] at h
              exact ⟨r, hres, hk, h.2.1, h.2.2.1⟩
    · cases h
  · cases h

/-- A call that has returned takes no more steps. -/
theorem step_returned {c : Call S} {res : Except IngestError IngestResult}
    (h : c.phase = .returned res) (p : IngestPipeline S) : c.step p = none := by
  rw [Call.step, h]
  rfl

/-- A task knows the length of its datagram, and reports a call that has returned. -/
structure Task.Fit (t : Task S) : Prop where
  len : t.len = t.call.raw.length
  reported : t.reported = true → ∃ res, t.call.phase = .returned res

namespace GatewayServer

/-! ## The refinement -/

/-- The pool of the calls. -/
def calls (self : GatewayServer S) : Pool (IngestPipeline S) (Call S) :=
  ⟨self.shared.pipeline, self.tasks.map Task.call⟩

/-- How a server that has received `rs` stands to the one `s₀` that has not begun. -/
structure Follows (s₀ : GatewayServer S) (rs : List Received) (s : GatewayServer S) :
    Prop where
  buf : s.buf.length = s₀.buf.length
  calls : Pool.Opens Call.step ⟨s₀.shared.pipeline, []⟩
    ((callsOf s₀.buf.length rs).map Call.arrive) s.calls
  origins : s.tasks.map Task.origin = rs.filterMap (Received.origin s₀.buf.length)
  fit : ∀ t ∈ s.tasks, t.Fit
  log : s.shared.log.Perm
    (s₀.shared.log ++ rs.filterMap Received.line ++ s.tasks.flatMap Task.lines)

variable {s₀ s : GatewayServer S} {rs : List Received}

theorem Follows.start (h : s₀.tasks = []) : Follows s₀ [] s₀ where
  buf := rfl
  calls := by
    rw [GatewayServer.calls, h]
    exact .start
  origins := by rw [h]; rfl
  fit := by rw [h]; exact fun t ht ↦ (List.not_mem_nil ht).elim
  log := by simp [h]

theorem calls_receive (bytes : Bytes) (src : SocketAddr) (clock : CallClock) :
    (s.receive (.datagram bytes src clock)).calls = ⟨s.calls.shared,
      s.calls.threads ++ [Call.arrive (clock, bytes.take s.buf.length)]⟩ := by
  simp only [GatewayServer.calls, GatewayServer.receive, List.map_append, List.map_cons,
    List.map_nil, take_recvFrom]

theorem Follows.receive (h : Follows s₀ rs s) (r : Received) :
    Follows s₀ (rs ++ [r]) (s.receive r) := by
  cases r with
  | error e =>
      have hcalls : callsOf s₀.buf.length (rs ++ [.error e]) = callsOf s₀.buf.length rs := by
        simp [callsOf, Received.call]
      have horigins : (rs ++ [Received.error e]).filterMap (Received.origin s₀.buf.length)
          = rs.filterMap (Received.origin s₀.buf.length) := by
        simp [Received.origin]
      have hlines : (rs ++ [Received.error e]).filterMap Received.line
          = rs.filterMap Received.line ++ [.recvError e] := by
        simp [Received.line]
      refine ⟨h.buf, ?_, h.origins.trans horigins.symm, h.fit, ?_⟩
      · rw [hcalls]
        exact h.calls
      · have hlog := h.log.append_right [LogLine.recvError e]
        rw [hlines, ← List.append_assoc s₀.shared.log, List.append_assoc _ [_]]
        rw [List.append_assoc _ _ [_]] at hlog
        exact hlog.trans (List.Perm.append_left _ List.perm_append_comm)
  | datagram bytes src clock =>
      have hcalls : callsOf s₀.buf.length (rs ++ [.datagram bytes src clock])
          = callsOf s₀.buf.length rs ++ [(clock, bytes.take s₀.buf.length)] := by
        simp [callsOf, Received.call]
      have horigins : (rs ++ [Received.datagram bytes src clock]).filterMap
          (Received.origin s₀.buf.length)
          = rs.filterMap (Received.origin s₀.buf.length)
            ++ [(src, min bytes.length s₀.buf.length)] := by
        simp [Received.origin]
      have hlines : (rs ++ [Received.datagram bytes src clock]).filterMap Received.line
          = rs.filterMap Received.line := by
        simp [Received.line]
      refine ⟨(length_recvFrom _ _).trans h.buf, ?_, ?_, ?_, ?_⟩
      · rw [hcalls, calls_receive, List.map_append, h.buf]
        exact h.calls.arrive _
      · rw [horigins, ← h.origins, ← h.buf]
        exact List.map_append
      · intro t ht
        rcases List.mem_append.mp ht with ht | ht
        · exact h.fit t ht
        · obtain rfl := List.mem_singleton.mp ht
          refine ⟨?_, (by intro hreported; cases hreported)⟩
          have hlen : ((recvFrom s.buf bytes).2.take (recvFrom s.buf bytes).1).length
              = (recvFrom s.buf bytes).1 := by
            rw [take_recvFrom, List.length_take, min_comm]
            rfl
          exact hlen.symm
      · have hnone : (s.receive (.datagram bytes src clock)).tasks.flatMap Task.lines
            = s.tasks.flatMap Task.lines := by
          simp [GatewayServer.receive, Task.lines, Call.arrive]
        rw [hlines, hnone]
        exact h.log

/-- A section of a call is one in the refined pool, a report is nothing there. -/
theorem Follows.task {w : Pool (Shared S) (Task S)} (h : Follows s₀ rs s)
    (hs : Pool.Step Task.step s.pool w) : Follows s₀ rs (s.withPool w) := by
  obtain ⟨shared, buf, tasks⟩ := s
  obtain ⟨hbuf, hcalls, horigins, hfit, hlog⟩ := h
  generalize hpool : GatewayServer.pool ⟨shared, buf, tasks⟩ = v at hs
  cases hs with
  | @mk _ y t t' l₁ l₂ hstep =>
      obtain ⟨rfl, rfl⟩ := Pool.mk.inj hpool
      simp only [GatewayServer.calls, List.map_append, List.map_cons, List.flatMap_append,
        List.flatMap_cons] at hcalls horigins hlog
      have ht : t ∈ l₁ ++ t :: l₂ := List.mem_append_right _ List.mem_cons_self
      have hfresh : t.reported = false := by
        rcases Task.step_cases hstep with ⟨c, q, hcall, -⟩ | ⟨res, -, hfresh, -⟩
        · by_contra hnot
          obtain ⟨res, hres⟩ := (hfit t ht).reported (by simpa using hnot)
          rw [step_returned hres] at hcall
          cases hcall
        · exact hfresh
      rw [Task.lines_of_unreported hfresh, List.nil_append] at hlog
      -- The other tasks have not changed.
      have hothers : t'.Fit → ∀ u ∈ l₁ ++ t' :: l₂, u.Fit := by
        intro ht' u hu
        rcases List.mem_append.mp hu with hu | hu
        · exact hfit u (List.mem_append_left _ hu)
        rcases List.mem_cons.mp hu with rfl | hu
        · exact ht'
        · exact hfit u (List.mem_append_right _ (List.mem_cons_of_mem _ hu))
      rcases Task.step_cases hstep with ⟨c, q, hcall, rfl, rfl⟩ | ⟨res, hres, -, rfl, rfl⟩
      · refine ⟨hbuf, ?_, ?_, hothers ?_, ?_⟩
        · simp only [GatewayServer.calls, withPool, List.map_append, List.map_cons]
          exact hcalls.step (.mk hcall)
        · simp only [withPool, List.map_append, List.map_cons]
          exact horigins
        · obtain ⟨-, hraw, -⟩ := advances_of_step hcall
          refine ⟨(hfit t ht).len.trans (congrArg List.length hraw.symm), fun hnot ↦ ?_⟩
          rw [hfresh] at hnot
          cases hnot
        · have hlines : Task.lines { t with call := c } = [] := Task.lines_of_unreported hfresh
          simp only [withPool, List.flatMap_append, List.flatMap_cons, hlines, List.nil_append]
          exact hlog
      · refine ⟨hbuf, ?_, ?_, hothers ⟨(hfit t ht).len, fun _ ↦ ⟨res, hres⟩⟩, ?_⟩
        · simp only [GatewayServer.calls, withPool, List.map_append, List.map_cons]
          exact hcalls
        · simp only [withPool, List.map_append, List.map_cons]
          exact horigins
        · have hlines : Task.lines { t with reported := true } = report t.src t.len res := by
            simp only [Task.lines, hres, if_true]
          simp only [withPool, List.flatMap_append, List.flatMap_cons, hlines]
          have happend := hlog.append_right (report t.src t.len res)
          refine happend.trans ?_
          simp only [List.append_assoc]
          refine List.Perm.append_left _ (List.Perm.append_left _ (List.Perm.append_left _ ?_))
          exact List.perm_append_comm

/-- A run of a server follows its start. -/
theorem Runs.follows (hs₀ : s₀.tasks = []) (h : Runs s₀ rs s) : Follows s₀ rs s := by
  induction h with
  | start => exact .start hs₀
  | receive _ r ih => exact ih.receive r
  | task _ hs ih => exact ih.task hs

/-- A server that has not entered its loop has a new pipeline, an empty buffer and two
lines in its log. -/
theorem start_inv {config : GatewayConfig} {bindSocket : SocketAddr → Except S.db.Error Unit}
    (h : start S config bindSocket = .ok s₀) :
    IngestPipeline.new S config.db_path config.cache_capacity config.master_secret
      config.world_min config.world_max = .ok s₀.shared.pipeline ∧
    s₀.shared.log = [.starting config.listen_addr, .listening config.listen_addr] ∧
    s₀.buf.length = config.max_packet_size ∧ s₀.tasks = [] := by
  unfold start at h
  cases hnew : IngestPipeline.new S config.db_path config.cache_capacity config.master_secret
      config.world_min config.world_max with
  | error e =>
      rw [hnew] at h
      cases h
  | ok pipeline =>
      rw [hnew] at h
      cases hbind : bindSocket config.listen_addr with
      | error e =>
          simp only [hbind, bind, Except.bind] at h
          cases h
      | ok u =>
          simp only [hbind, bind, Except.bind] at h
          obtain rfl := Except.ok.inj h
          exact ⟨rfl, rfl, List.length_replicate, rfl⟩

section Start

variable {config : GatewayConfig} {bindSocket : SocketAddr → Except S.db.Error Unit}

/-- The calls of a run are those of an interleaving of one call for each datagram. -/
theorem calls_of_runs (hstart : start S config bindSocket = .ok s₀) (h : Runs s₀ rs s) :
    Pool.Reaches Call.step
      (arrivals s₀.shared.pipeline (callsOf config.max_packet_size rs)) s.calls := by
  obtain ⟨-, -, hbuf, htasks⟩ := start_inv hstart
  rw [← hbuf]
  exact (h.follows htasks).calls.reaches

/-- The log of a run is that of its start, its receive errors and its tasks. -/
theorem log_of_runs (hstart : start S config bindSocket = .ok s₀) (h : Runs s₀ rs s) :
    s.shared.log.Perm ([.starting config.listen_addr, .listening config.listen_addr]
      ++ rs.filterMap Received.line ++ s.tasks.flatMap Task.lines) := by
  obtain ⟨-, hlog, -, htasks⟩ := start_inv hstart
  rw [← hlog]
  exact (h.follows htasks).log

end Start

/-- **Refinement.**  In any run of the server there has been one call for each datagram
received, in order and on its own bytes up to the packet size, and pipeline and calls are
those of an interleaving of these calls; and the log holds, in some order, the lines of
the start, one for each receive error, and the reports of the tasks that have reported. -/
theorem refines_of_runs {config : GatewayConfig} {bindSocket : SocketAddr → Except S.db.Error Unit}
    (hstart : start S config bindSocket = .ok s₀) (h : Runs s₀ rs s) :
    Pool.Reaches Call.step
      (arrivals s₀.shared.pipeline (callsOf config.max_packet_size rs)) s.calls ∧
    s.tasks.map Task.origin = rs.filterMap (Received.origin config.max_packet_size) ∧
    s.shared.log.Perm ([.starting config.listen_addr, .listening config.listen_addr]
      ++ rs.filterMap Received.line ++ s.tasks.flatMap Task.lines) := by
  obtain ⟨-, -, hbuf, htasks⟩ := start_inv hstart
  refine ⟨calls_of_runs hstart h, ?_, log_of_runs hstart h⟩
  rw [← hbuf]
  exact (h.follows htasks).origins

/-- A long datagram and a short one after it: the second call is on two bytes alone. -/
theorem refines_of_runs_inMemory :
    let src : SocketAddr := .v4 (.replicate 4 127) 9000
    let rs := [.datagram (.replicate 50 9) src ⟨0, 0, 0, 0⟩, .datagram [1, 2] src ⟨0, 0, 0, 0⟩]
    ∃ s, Runs inMemory rs s ∧ s.shared.log.length = 3 ∧
      Pool.Reaches Call.step (arrivals .inMemory
        [(⟨0, 0, 0, 0⟩, .replicate 46 9), (⟨0, 0, 0, 0⟩, [1, 2])]) s.calls ∧
      s.tasks.map Task.origin = [(src, 46), (src, 2)] := by
  intro src rs
  have hdrive : (drive inMemory rs [1, 0, 1]).map (fun s ↦ s.shared.log.length) = some 3 := by
    decide +kernel
  obtain ⟨s, hs, hlog⟩ := Option.map_eq_some_iff.mp hdrive
  have hrun := runs_of_drive hs
  obtain ⟨hcalls, horigins, -⟩ := refines_of_runs start_inMemory hrun
  exact ⟨s, hrun, hlog, hcalls, horigins⟩

/-! ## Accounts -/

/-- How many tasks have not reported. -/
def unreported (self : GatewayServer S) : ℕ := self.tasks.countP fun t ↦ !t.reported

end GatewayServer

/-- The line rejects a packet. -/
def LogLine.isRejected : LogLine → Bool
  | .rejected .. => true
  | _ => false

/-- The line reports a keyframe. -/
def LogLine.isKeyframe : LogLine → Bool
  | .keyframe .. => true
  | _ => false

namespace GatewayServer

variable {s₀ s : GatewayServer S} {rs : List Received}

theorem countP_log (P : LogLine → Bool) {start : List LogLine} (hstart : start.countP P = 0)
    (hline : ∀ r : Received, ∀ line ∈ r.line, P line = false)
    (hlog : s.shared.log.Perm (start ++ rs.filterMap Received.line ++ s.tasks.flatMap Task.lines)) :
    s.shared.log.countP P = (s.tasks.map fun t ↦ t.lines.countP P).sum := by
  have herrors : (rs.filterMap Received.line).countP P = 0 := by
    apply List.countP_eq_zero.mpr
    intro line hmem
    obtain ⟨r, -, hr⟩ := List.mem_filterMap.mp hmem
    simp [hline r line hr]
  rw [hlog.countP_eq, List.countP_append, List.countP_append, hstart, herrors, List.countP_flatMap]
  simp only [zero_add]
  rfl

theorem total_calls (n : Call S → ℕ) : total n s.calls = (s.tasks.map fun t ↦ n t.call).sum := by
  rw [total, calls, List.map_map]
  rfl

theorem unreported_eq : s.unreported = (s.tasks.map fun t ↦ (!t.reported).toNat).sum := by
  unfold unreported
  induction s.tasks with
  | nil => rfl
  | cons t l ih =>
      rw [List.countP_cons, ih, List.map_cons, List.sum_cons, add_comm]
      cases t.reported <;> rfl

end GatewayServer

theorem IngestPipeline.Phase.messages_le_one (ph : Phase S) : ph.messages ≤ 1 := by
  fun_cases Phase.messages ph <;> simp

theorem IngestPipeline.Phase.keyframes_le_one (ph : Phase S) : ph.keyframes ≤ 1 := by
  have hsplit := ph.keyframes_add_deltas
  have hpackets := ph.packets_le_messages
  have hmessages := ph.messages_le_one
  omega

/-- A task has rejected its datagram or counted its request, never both, and one of them
if it has reported. -/
theorem Task.rejected_or_requested {t : Task S}
    (h : t.reported = true → ∃ res, t.call.phase = .returned res) :
    t.lines.countP LogLine.isRejected + t.call.phase.requests ≤ 1 ∧
    1 ≤ t.lines.countP LogLine.isRejected + t.call.phase.requests + (!t.reported).toNat := by
  cases hreported : t.reported with
  | false =>
      have hone : t.call.phase.requests ≤ 1 := calc
        _ ≤ _ := t.call.phase.requests_le_packets
        _ ≤ _ := t.call.phase.packets_le_messages
        _ ≤ 1 := t.call.phase.messages_le_one
      rw [Task.lines_of_unreported hreported]
      simpa using hone
  | true =>
      obtain ⟨res, hres⟩ := h hreported
      cases res with
      | error e => simp [Task.lines, hres, hreported, report, LogLine.isRejected, Phase.requests]
      | ok r =>
          cases hk : r.is_keyframe <;>
            simp [Task.lines, hres, hreported, report, LogLine.isRejected, Phase.requests, hk]

/-- A task has reported the keyframe it has recorded, once it has reported. -/
theorem Task.keyframe_reported {t : Task S}
    (h : t.reported = true → ∃ res, t.call.phase = .returned res) :
    t.lines.countP LogLine.isKeyframe ≤ t.call.phase.keyframes ∧
    t.call.phase.keyframes ≤ t.lines.countP LogLine.isKeyframe + (!t.reported).toNat := by
  cases hreported : t.reported with
  | false =>
      rw [Task.lines_of_unreported hreported]
      simpa using t.call.phase.keyframes_le_one
  | true =>
      obtain ⟨res, hres⟩ := h hreported
      cases res with
      | error e => simp [Task.lines, hres, hreported, report, LogLine.isKeyframe, Phase.keyframes]
      | ok r =>
          cases hk : r.is_keyframe <;>
            simp [Task.lines, hres, hreported, report, LogLine.isKeyframe, Phase.keyframes, hk]

namespace GatewayServer

variable {s₀ s : GatewayServer S} {rs : List Received}

/-- How the counters, the log and the datagrams received stand to each other. -/
structure Audit (received : ℕ) (s : GatewayServer S) : Prop where
  accounts : Accounts s.calls
  tasks : s.tasks.length = received
  rejected : s.shared.log.countP LogLine.isRejected
    = (s.tasks.map fun t ↦ t.lines.countP LogLine.isRejected).sum
  requested : s.shared.pipeline.routing_stats.total_requests.toNat
    = (s.tasks.map fun t ↦ t.call.phase.requests).sum
  /-- A task has rejected its datagram in the log, or has counted it as a request, or has not
  reported, and never two of the first two. -/
  each : ∀ t ∈ s.tasks, t.lines.countP LogLine.isRejected + t.call.phase.requests ≤ 1 ∧
    1 ≤ t.lines.countP LogLine.isRejected + t.call.phase.requests + (!t.reported).toNat
  at_most_once : s.shared.log.countP LogLine.isRejected
    + s.shared.pipeline.routing_stats.total_requests.toNat ≤ received
  at_least_once : received ≤ s.shared.log.countP LogLine.isRejected
    + s.shared.pipeline.routing_stats.total_requests.toNat + s.unreported
  keyframes_reported : s.shared.log.countP LogLine.isKeyframe
    ≤ s.shared.pipeline.telemetry.keyframe_count.toNat
  keyframes_recorded : s.shared.pipeline.telemetry.keyframe_count.toNat
    ≤ s.shared.log.countP LogLine.isKeyframe + s.unreported
  settled : s.unreported = 0 → Settled s.calls

/-- **No datagram is lost, and none counted twice.**  As long as fewer than `2⁶⁴` datagrams
and bytes have been received, at any moment of any run of the server each datagram is
rejected in the log, counted as a request, or in the hands of a task that has not
reported, and never two of the first two; the keyframes logged are those counted, up to the
tasks that have not reported; and when all have, all counters agree with the results. -/
theorem audit_of_runs {config : GatewayConfig}
    {bindSocket : SocketAddr → Except S.db.Error Unit}
    (hstart : start S config bindSocket = .ok s₀) (h : Runs s₀ rs s)
    (hcount : (callsOf config.max_packet_size rs).length < 2 ^ 64)
    (hbytes : ((callsOf config.max_packet_size rs).map fun call ↦ call.2.length).sum < 2 ^ 64) :
    Audit (callsOf config.max_packet_size rs).length s := by
  obtain ⟨hnew, -, -, htasks⟩ := start_inv hstart
  have hcalls := calls_of_runs hstart h
  have hlog := log_of_runs hstart h
  have hreported := fun t ht ↦ ((h.follows htasks).fit t ht).reported
  have hmade := calls_of_reaches hcalls
  have hlength : s.tasks.length = (callsOf config.max_packet_size rs).length := by
    rw [← hmade, List.length_map, calls, List.length_map]
  have hmessages : total (fun c ↦ c.phase.messages) s.calls < 2 ^ 64 := by
    have hone : total (fun c ↦ c.phase.messages) s.calls ≤ total (fun _ ↦ 1) s.calls :=
      total_mono (fun c ↦ c.phase.messages_le_one) _
    have hcard : total (fun _ ↦ 1) s.calls = s.tasks.length := by
      rw [total_calls]
      simp
    omega
  have hsize : total Call.bytes s.calls < 2 ^ 64 := by
    have hraw : total Call.bytes s.calls ≤ total (fun c ↦ c.raw.length) s.calls := by
      refine total_mono (fun c ↦ ?_) _
      calc c.phase.packets * c.raw.length
          ≤ 1 * c.raw.length := Nat.mul_le_mul_right _
            (c.phase.packets_le_messages.trans c.phase.messages_le_one)
        _ = c.raw.length := Nat.one_mul _
    have hsum : total (fun c ↦ c.raw.length) s.calls
        = ((callsOf config.max_packet_size rs).map fun call ↦ call.2.length).sum := by
      rw [← hmade, List.map_map]
      rfl
    omega
  have hcounts := counts_of_reaches hnew hcalls hmessages hsize
  have hrejected := countP_log LogLine.isRejected rfl (by rintro (_ | e) line hr <;> cases hr; rfl)
    hlog
  have hkeyframes := countP_log LogLine.isKeyframe rfl (by rintro (_ | e) line hr <;> cases hr; rfl)
    hlog
  have hrequests : s.shared.pipeline.routing_stats.total_requests.toNat
      = (s.tasks.map fun t ↦ t.call.phase.requests).sum :=
    hcounts.requests.trans (total_calls _)
  have hcounted : s.shared.pipeline.telemetry.keyframe_count.toNat
      = (s.tasks.map fun t ↦ t.call.phase.keyframes).sum :=
    hcounts.keyframes.trans (total_calls _)
  have hones : (s.tasks.map fun _ ↦ 1).sum = (callsOf config.max_packet_size rs).length := by
    simp [hlength]
  have heach := fun t ht ↦ Task.rejected_or_requested (hreported t ht)
  refine ⟨hcounts.accounts, hlength, hrejected, hrequests, heach, ?_, ?_, ?_, ?_, ?_⟩
  · rw [hrejected, hrequests, ← hones, ← List.sum_map_add]
    exact List.sum_le_sum fun t ht ↦ (heach t ht).1
  · rw [hrejected, hrequests, ← hones, unreported_eq, ← List.sum_map_add, ← List.sum_map_add]
    exact List.sum_le_sum fun t ht ↦ (heach t ht).2
  · rw [hkeyframes, hcounted]
    exact List.sum_le_sum fun t ht ↦ (Task.keyframe_reported (hreported t ht)).1
  · rw [hkeyframes, hcounted, unreported_eq, ← List.sum_map_add]
    exact List.sum_le_sum fun t ht ↦ (Task.keyframe_reported (hreported t ht)).2
  · intro hall
    apply hcounts.settled
    apply List.countP_eq_zero.mpr
    intro c hc
    obtain ⟨t, ht, rfl⟩ := List.mem_map.mp hc
    have hdone := List.countP_eq_zero.mp hall t ht
    obtain ⟨res, hres⟩ := hreported t ht (by simpa using hdone)
    simp [hres, Phase.inProgress]

/-- A delta that fits the buffer, a receive error, and a keyframe of which the buffer
holds all but a byte: the first is counted, the last is rejected. -/
theorem audit_of_runs_inMemory :
    let src : SocketAddr := .v4 (.replicate 4 127) 9000
    let body := (deviceKey AliceCrypto.inMemory (.replicate 32 42) 1).toList
    let rs := [.datagram (packet 1 5 (body ++ [2, 7])) src ⟨0, 0, 0, 0⟩,
      .error "interrupted", .datagram (0 :: packet 1 5 (body ++ [1, 7])) src ⟨0, 0, 0, 0⟩]
    ∃ s, Runs inMemory rs s ∧ s.shared.log.length = 4 ∧
      s.shared.pipeline.routing_stats.total_requests = 1 ∧ Audit 2 s ∧ Settled s.calls := by
  intro src body rs
  have hdrive : (drive inMemory rs [0, 0, 1, 1, 0, 1, 0, 0, 0, 0, 0, 0, 0]).map (fun s ↦
      (s.shared.log.length, s.shared.pipeline.routing_stats.total_requests, s.unreported))
      = some (4, 1, 0) := by decide +kernel
  obtain ⟨s, hs, heq⟩ := Option.map_eq_some_iff.mp hdrive
  simp only [Prod.mk.injEq] at heq
  obtain ⟨hlog, hrequests, hreported⟩ := heq
  have hrun := runs_of_drive hs
  have haudit : Audit 2 s := audit_of_runs start_inMemory hrun (by decide) (by decide)
  exact ⟨s, hrun, hlog, hrequests, haudit, haudit.settled hreported⟩

end GatewayServer

end CloudGateway
