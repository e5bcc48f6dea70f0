import Mathlib.Algebra.Order.Ring.Rat
import CloudGateway.Backpressure
import CloudGateway.Library.Pool

/-!
# Clients of a backpressure controller

A client asks with `evaluate`, and records the start of a request with `on_request_start` if
the answer was not a rejection.  These are two calls, and between them other clients may ask
as well: they are all told the same, and they all start.

So `max_inflight` is kept where every client that is admitted finds room for those that were
admitted before it and have not started yet; whatever the clients do, it is kept in general for
one client only (`inflight_le_iff`).
-/

universe u

namespace CloudGateway

namespace BackpressureController

variable {F : Type u}

/-! ## Clients -/

/-- What a client can do next. -/
inductive Move
  | evaluate
  | start
  | complete
deriving DecidableEq

/-- A client: what it is going to do, whether it was admitted and has not started, and the
number of its requests that have started and not completed. -/
structure Client where
  script : List Move
  admitted : Bool
  running : ℕ

/-- A client that has not begun. -/
def Client.new (script : List Move) : Client := ⟨script, false, 0⟩

variable [NatCast F] [Div F] [Zero F] [LE F] [DecidableLE F]

/-- The next call of a client.  It starts a request only if it was admitted, and completes
only what it has started. -/
def Client.step : Client → BackpressureController F → Option (Client × BackpressureController F)
  | ⟨[], _, _⟩, _ => none
  | ⟨.evaluate :: script, _, running⟩, s =>
      some (⟨script, decide (s.evaluate.1 ≠ .reject), running⟩, s.evaluate.2)
  | ⟨.start :: script, true, running⟩, s =>
      some (⟨script, false, running + 1⟩, s.onRequestStart)
  | ⟨.start :: script, false, running⟩, s => some (⟨script, false, running⟩, s)
  | ⟨.complete :: script, admitted, running + 1⟩, s =>
      some (⟨script, admitted, running⟩, s.onRequestComplete)
  | ⟨.complete :: script, admitted, 0⟩, s => some (⟨script, admitted, 0⟩, s)

/-- A new controller and its clients. -/
def clients (config : BackpressureConfig F) (scripts : List (List Move)) :
    Pool (BackpressureController F) Client := ⟨new config, scripts.map Client.new⟩

/-- The clients that were admitted and have not started. -/
def holders (clients : List Client) : ℕ := clients.countP (·.admitted)

/-- A client that is about to be admitted finds room for itself and for the other clients that
were admitted and have not started. -/
def FindsRoom (config : BackpressureConfig F) (s : BackpressureController F)
    (others : List Client) (t : Client) : Prop :=
  t.script.head? = some .evaluate → s.queue_len < config.max_queue_len →
    s.inflight < config.max_inflight →
    s.inflight.toNat + holders others < config.max_inflight.toNat

/-- What a call of a client can do. -/
inductive Moves (s : BackpressureController F) : Client → Client → BackpressureController F → Prop
  | rejected {script : List Move} {admitted : Bool} {running : ℕ} (h : s.Rejects) :
      Moves s ⟨.evaluate :: script, admitted, running⟩ ⟨script, false, running⟩ s.evaluate.2
  | admitted {script : List Move} {admitted : Bool} {running : ℕ} (h : ¬ s.Rejects) :
      Moves s ⟨.evaluate :: script, admitted, running⟩ ⟨script, true, running⟩ s.evaluate.2
  | starts {script : List Move} {running : ℕ} :
      Moves s ⟨.start :: script, true, running⟩ ⟨script, false, running + 1⟩ s.onRequestStart
  | completes {script : List Move} {admitted : Bool} {running : ℕ} :
      Moves s ⟨.complete :: script, admitted, running + 1⟩ ⟨script, admitted, running⟩
        s.onRequestComplete
  | idles {move : Move} {script : List Move} {admitted : Bool} {running : ℕ}
      (h : move ≠ .evaluate) :
      Moves s ⟨move :: script, admitted, running⟩ ⟨script, admitted, running⟩ s

/-- A call of a client does one of the things listed. -/
theorem moves {s s' : BackpressureController F} {t t' : Client}
    (h : t.step s = some (t', s')) : Moves s t t' s' := by
  obtain ⟨_ | ⟨move, script⟩, admitted, running⟩ := t
  · cases h
  · cases move with
    | evaluate =>
        cases h
        by_cases hrejects : s.Rejects
        · rw [decide_eq_false (not_not.mpr ((evaluate_eq_reject_iff s).mpr hrejects))]
          exact .rejected hrejects
        · rw [decide_eq_true (mt (evaluate_eq_reject_iff s).mp hrejects)]
          exact .admitted hrejects
    | start =>
        cases admitted with
        | true => cases h; exact .starts
        | false => cases h; exact .idles nofun
    | complete =>
        cases running with
        | zero => cases h; exact .idles nofun
        | succ running => cases h; exact .completes

/-! ## Where every client finds room -/

omit [NatCast F] [Div F] [Zero F] [LE F] [DecidableLE F] in
theorem toNat_onRequestComplete_le (s : BackpressureController F) :
    s.onRequestComplete.inflight.toNat ≤ s.inflight.toNat := by
  rw [onRequestComplete]
  by_cases h : s.inflight = 0
  · rw [if_pos h]
    exact Nat.zero_le _
  · have hone : (1 : UInt64) ≤ s.inflight := by
      rw [UInt64.le_iff_toNat_le]
      exact Nat.one_le_iff_ne_zero.mpr fun hzero ↦ h (UInt64.toNat_inj.mp hzero)
    rw [if_neg h, UInt64.toNat_sub_of_le _ _ hone]
    exact Nat.sub_le _ _

omit [NatCast F] [Div F] [Zero F] [LE F] [DecidableLE F] in
theorem toNat_onRequestStart {s : BackpressureController F}
    (h : s.inflight.toNat + 1 < 2 ^ 64) :
    s.onRequestStart.inflight.toNat = s.inflight.toNat + 1 := by
  show (s.inflight + 1).toNat = s.inflight.toNat + 1
  rw [UInt64.toNat_add]
  exact Nat.mod_eq_of_lt h

theorem holders_insert (l₁ l₂ : List Client) (t : Client) :
    holders (l₁ ++ t :: l₂) = holders (l₁ ++ l₂) + t.admitted.toNat := by
  rw [holders, holders, List.countP_append, List.countP_append, List.countP_cons,
    Nat.add_assoc]
  cases t.admitted <;> rfl

/-- A client that finds room for itself beside the `n` other holders leaves room for them. -/
theorem Moves.room {config : BackpressureConfig F} {s s' : BackpressureController F}
    {t t' : Client} {n : ℕ} (h : Moves s t t' s') (hconfig : s.config = config)
    (hle : s.inflight.toNat + (n + t.admitted.toNat) ≤ config.max_inflight.toNat)
    (hroom : t.script.head? = some .evaluate → s.queue_len < config.max_queue_len →
      s.inflight < config.max_inflight → s.inflight.toNat + n < config.max_inflight.toNat) :
    s'.inflight.toNat + (n + t'.admitted.toNat) ≤ config.max_inflight.toNat := by
  obtain ⟨-, hinflight, -⟩ := evaluate_snd s
  cases h with
  | rejected =>
      rw [hinflight, Bool.toNat_false]
      omega
  | admitted hrejects =>
      obtain ⟨hqueue, hfull⟩ := not_or.mp hrejects
      rw [hconfig, UInt64.not_le] at hqueue hfull
      have hfree := hroom rfl hqueue hfull
      rw [hinflight, Bool.toNat_true]
      omega
  | starts =>
      rw [Bool.toNat_true] at hle
      have hmax := config.max_inflight.toNat_lt
      rw [toNat_onRequestStart (by omega), Bool.toNat_false]
      omega
  | completes =>
      have hcomplete := toNat_onRequestComplete_le s
      dsimp only at hle ⊢
      omega
  | idles => exact hle

/-- The controller keeps its configuration, and has room for the clients that were admitted
and have not started. -/
structure Room (config : BackpressureConfig F)
    (w : Pool (BackpressureController F) Client) : Prop where
  config_eq : w.shared.config = config
  le : w.shared.inflight.toNat + holders w.threads ≤ config.max_inflight.toNat

theorem Room.next {config : BackpressureConfig F} {w w' : Pool (BackpressureController F) Client}
    (h : Pool.StepWhere Client.step (FindsRoom config) w w') (hw : Room config w) :
    Room config w' := by
  cases h with
  | @mk s s' t t' l₁ l₂ h hroom =>
      obtain ⟨hconfig, hle⟩ := hw
      have hmoves := moves h
      refine ⟨?_, ?_⟩
      · cases hmoves with
        | rejected | admitted => exact (evaluate_snd s).1.trans hconfig
        | _ => exact hconfig
      · rw [holders_insert] at hle ⊢
        exact hmoves.room hconfig hle hroom

/-- Where every client that is admitted finds room, the limit is kept. -/
theorem inflight_le_of_findsRoom {config : BackpressureConfig F} {scripts : List (List Move)}
    {w : Pool (BackpressureController F) Client}
    (h : Pool.ReachesWhere Client.step (FindsRoom config) (clients config scripts) w) :
    w.shared.inflight ≤ config.max_inflight := by
  suffices Room config w from UInt64.le_iff_toNat_le.mpr ((Nat.le_add_right _ _).trans this.le)
  induction h with
  | refl =>
      refine ⟨rfl, ?_⟩
      have hnone : holders (scripts.map Client.new) = 0 := by
        rw [holders, List.countP_eq_zero]
        intro t ht
        obtain ⟨script, -, rfl⟩ := List.mem_map.mp ht
        exact Bool.false_ne_true
      exact (congrArg (0 + ·) hnone).trans_le (Nat.zero_le _)
  | tail _ hs ih => exact ih.next hs

/-! ## Two clients at once -/

/-- A controller of which the queue is empty, with `n` requests. -/
structure Serving (config : BackpressureConfig F) (s : BackpressureController F) (n : ℕ) :
    Prop where
  config_eq : s.config = config
  queue_len : s.queue_len = 0
  inflight : s.inflight.toNat = n

namespace Serving

variable {config : BackpressureConfig F} {s : BackpressureController F} {n : ℕ}

theorem evaluate (h : Serving config s n) : Serving config s.evaluate.2 n := by
  obtain ⟨hconfig, hinflight, hqueue⟩ := evaluate_snd s
  exact ⟨hconfig.trans h.config_eq, hqueue.trans h.queue_len,
    (congrArg UInt64.toNat hinflight).trans h.inflight⟩

omit [NatCast F] [Div F] [Zero F] [LE F] [DecidableLE F] in
theorem start (h : Serving config s n) (hn : n + 1 < 2 ^ 64) :
    Serving config s.onRequestStart (n + 1) :=
  ⟨h.config_eq, h.queue_len, by rw [toNat_onRequestStart (by rwa [h.inflight]), h.inflight]⟩

omit [NatCast F] [Div F] [Zero F] [LE F] [DecidableLE F] in
theorem not_rejects (h : Serving config s n) (hqueue : config.max_queue_len ≠ 0)
    (hn : n < config.max_inflight.toNat) : ¬ s.Rejects := by
  rw [Rejects, h.config_eq, h.queue_len, UInt64.le_iff_toNat_le, UInt64.le_iff_toNat_le,
    h.inflight]
  rintro (hle | hle)
  · exact hqueue (UInt64.toNat_inj.mp (Nat.le_zero.mp hle))
  · exact absurd hle hn.not_ge

/-- A client that asks is admitted. -/
theorem step_evaluate (h : Serving config s n) (hqueue : config.max_queue_len ≠ 0)
    (hn : n < config.max_inflight.toNat) (script : List Move) (admitted : Bool) (running : ℕ) :
    Client.step ⟨.evaluate :: script, admitted, running⟩ s
      = some (⟨script, true, running⟩, s.evaluate.2) := by
  have hallowed : s.evaluate.1 ≠ .reject :=
    mt (evaluate_eq_reject_iff s).mp (h.not_rejects hqueue hn)
  rw [Client.step, decide_eq_true hallowed]

end Serving

/-- Ask and start, so many times. -/
def busy : ℕ → List Move
  | 0 => []
  | n + 1 => .evaluate :: .start :: busy n

/-- A client alone starts as many requests as there is room for. -/
theorem reaches_busy {config : BackpressureConfig F} (hqueue : config.max_queue_len ≠ 0)
    {s : BackpressureController F} {n k : ℕ} (h : Serving config s n)
    (hk : n + k ≤ config.max_inflight.toNat) (script : List Move) (running : ℕ)
    (others : List Client) :
    ∃ s', Serving config s' (n + k) ∧
      Pool.Reaches Client.step ⟨s, ⟨busy k ++ script, false, running⟩ :: others⟩
        ⟨s', ⟨script, false, running + k⟩ :: others⟩ := by
  induction k generalizing s n running with
  | zero => exact ⟨s, h, .refl⟩
  | succ k ih =>
      have hmax := config.max_inflight.toNat_lt
      have hstep := h.step_evaluate hqueue (by omega) (.start :: busy k ++ script) false running
      obtain ⟨s', hserving, hreaches⟩ :=
        ih (h.evaluate.start (by omega)) (by omega) (running + 1)
      rw [Nat.add_assoc, Nat.add_comm 1 k] at hserving
      rw [Nat.add_assoc, Nat.add_comm 1 k] at hreaches
      exact ⟨s', hserving, .head (.head hstep others) (.head (.head rfl others) hreaches)⟩

/-- Two clients are told the same, and one request too many is started. -/
theorem reaches_overshoot {config : BackpressureConfig F} (hqueue : config.max_queue_len ≠ 0)
    {k : ℕ} (hk : config.max_inflight.toNat = k + 1) (hwrap : k + 2 < 2 ^ 64)
    (others : List (List Move)) :
    ∃ w, Pool.Reaches Client.step (clients config ((busy k ++ busy 1) :: busy 1 :: others)) w ∧
      w.shared.inflight.toNat = config.max_inflight.toNat + 1 := by
  have hnew : Serving config (new config) 0 := ⟨rfl, rfl, rfl⟩
  obtain ⟨s, hs, hreaches⟩ := reaches_busy hqueue hnew (by omega : 0 + k ≤ _) (busy 1) 0
    (.new (busy 1) :: others.map .new)
  rw [Nat.zero_add] at hs hreaches
  have hfirst := hs.step_evaluate hqueue (by omega) [.start] false k
  have hsecond := hs.evaluate.step_evaluate hqueue (by omega) [.start] false 0
  refine ⟨_, hreaches.trans (.head (.head hfirst _) (.head ((Pool.Step.head hsecond _).cons _)
    (.head (.head rfl _) (.head ((Pool.Step.head rfl _).cons _) .refl)))), ?_⟩
  rw [((hs.evaluate.evaluate.start (by omega)).start hwrap).inflight, hk]

/-! ## When the limit is kept -/

/-- **When the limit is kept.**

- It is kept in every run in which a client that is about to be admitted finds room for itself
  beside those that were admitted and have not started.
- It is kept in every run of `n` clients, whatever they do, if and only if there is one client
  at most, or nobody is ever admitted, or the limit is the largest `u64`. -/
theorem inflight_le_iff (config : BackpressureConfig F) :
    (∀ scripts w,
      Pool.ReachesWhere Client.step (FindsRoom config) (clients config scripts) w →
      w.shared.inflight ≤ config.max_inflight) ∧
    ∀ n,
      (∀ scripts, scripts.length = n → ∀ w,
        Pool.Reaches Client.step (clients config scripts) w →
        w.shared.inflight ≤ config.max_inflight) ↔
      n ≤ 1 ∨ config.max_queue_len = 0 ∨ config.max_inflight = 0 ∨
        config.max_inflight.toNat + 1 = 2 ^ 64 := by
  refine ⟨fun scripts w h ↦ inflight_le_of_findsRoom h, fun n ↦ ⟨fun h ↦ ?_, ?_⟩⟩
  · by_contra hcontra
    obtain ⟨hn, hqueue, hmax, hwrap⟩ :
        ¬ n ≤ 1 ∧ config.max_queue_len ≠ 0 ∧ config.max_inflight ≠ 0 ∧
          config.max_inflight.toNat + 1 ≠ 2 ^ 64 := by
      simpa only [not_or] using hcontra
    obtain ⟨k, hk⟩ : ∃ k, config.max_inflight.toNat = k + 1 :=
      Nat.exists_eq_succ_of_ne_zero fun hzero ↦ hmax (UInt64.toNat_inj.mp hzero)
    have hlt := config.max_inflight.toNat_lt
    obtain ⟨w, hreaches, hinflight⟩ :=
      reaches_overshoot hqueue hk (by omega) (List.replicate (n - 2) [])
    have hle := h _ (by simp only [List.length_cons, List.length_replicate]; omega) w hreaches
    rw [UInt64.le_iff_toNat_le, hinflight] at hle
    exact absurd hle (Nat.not_succ_le_self _)
  · rintro hcond scripts rfl w h
    rcases hcond with hn | hqueue | hmax | hwrap
    · refine inflight_le_of_findsRoom (h.reachesWhere fun s others t hlength _ _ hfull ↦ ?_)
      have hlength' : others.length + 1 = scripts.length := by
        rw [hlength, clients, List.length_map]
      obtain rfl : others = [] := List.length_eq_zero_iff.mp (by omega)
      exact UInt64.lt_iff_toNat_lt.mp hfull
    · refine inflight_le_of_findsRoom (h.reachesWhere fun s others t _ _ hlt ↦ ?_)
      rw [hqueue] at hlt
      exact absurd hlt UInt64.not_lt_zero
    · refine inflight_le_of_findsRoom (h.reachesWhere fun s others t _ _ _ hlt ↦ ?_)
      rw [hmax] at hlt
      exact absurd hlt UInt64.not_lt_zero
    · have hlt := w.shared.inflight.toNat_lt
      rw [UInt64.le_iff_toNat_le]
      omega

/-- Two clients with room for one: the second asks when the first has completed, and finds
room.  Without that, two clients need not keep the limit. -/
theorem inflight_le_iff_rat :
    let config : BackpressureConfig ℚ := ⟨1, 4 / 5, 1 / 2, 50⟩
    let scripts := [[.evaluate, .start, .complete], busy 1]
    (∃ w, Pool.ReachesWhere Client.step (FindsRoom config) (clients config scripts) w ∧
      w.shared.inflight = 1 ∧ w.shared.inflight ≤ config.max_inflight) ∧
    ¬ ∀ scripts, scripts.length = 2 → ∀ w,
      Pool.Reaches Client.step (clients config scripts) w →
      w.shared.inflight ≤ config.max_inflight := by
  intro config scripts
  have hlimit := inflight_le_iff config
  have hnew : Serving config (new config) 0 := ⟨rfl, rfl, rfl⟩
  have hfirst := hnew.step_evaluate (by decide) (by decide) [.start, .complete] false 0
  have hstarted := hnew.evaluate.start (by decide)
  have hidle : Serving config (new config).evaluate.2.onRequestStart.onRequestComplete 0 :=
    ⟨hstarted.config_eq, hstarted.queue_len, by decide +kernel⟩
  have hroom : (new config).evaluate.2.onRequestStart.onRequestComplete.inflight.toNat + 0 < 1 := by
    rw [hidle.inflight]
    decide
  have hsecond := hidle.step_evaluate (by decide) (by decide) [.start] false 0
  have hrun : Pool.ReachesWhere Client.step (FindsRoom config) (clients config scripts)
      ⟨_, [⟨[], false, 0⟩, ⟨[], false, 1⟩]⟩ :=
    .head (@Pool.StepWhere.mk _ _ _ _ _ _ _ _ [] [_] hfirst fun _ _ _ ↦ (by decide : 0 < 1))
      (.head (@Pool.StepWhere.mk _ _ _ _ _ _ _ _ [] [_] rfl fun h ↦ by cases h)
      (.head (@Pool.StepWhere.mk _ _ _ _ _ _ _ _ [] [_] rfl fun h ↦ by cases h)
      (.head (@Pool.StepWhere.mk _ _ _ _ _ _ _ _ [_] [] hsecond fun _ _ _ ↦ hroom)
      (.head (@Pool.StepWhere.mk _ _ _ _ _ _ _ _ [_] [] rfl fun h ↦ by cases h) .refl))))
  refine ⟨⟨_, hrun, by decide +kernel, hlimit.1 scripts _ hrun⟩, fun h ↦ ?_⟩
  exact absurd ((hlimit.2 2).mp h) (by decide)

/-- Two clients ask while there is room for one, and both start. -/
theorem exceeds_max_inflight :
    ∃ (config : BackpressureConfig ℚ) (w : Pool (BackpressureController ℚ) Client),
      Pool.Reaches Client.step (clients config [busy 1, busy 1]) w ∧
      ¬ w.shared.inflight ≤ config.max_inflight := by
  have hrun : (Pool.schedule Client.step (fun _ ↦ True)
      (clients (⟨1, 4 / 5, 1 / 2, 50⟩ : BackpressureConfig ℚ) [busy 1, busy 1])
        [0, 1, 0, 1]).map (·.shared.inflight) = some 2 := by decide +kernel
  obtain ⟨w, hw, hinflight⟩ := Option.map_eq_some_iff.mp hrun
  refine ⟨_, w, (Pool.reachesWithin_of_schedule hw).reaches, ?_⟩
  rw [hinflight]
  decide

end BackpressureController

end CloudGateway
