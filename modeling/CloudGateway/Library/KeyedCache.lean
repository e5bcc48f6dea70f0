import Mathlib.Data.Finmap

/-!
# Caches, described by their histories

A cache is used through two operations: `get`, which may answer `none` for a
key it was given before, and `put`.  What a client can rely on is a property of
the *history* of operations, not of the representation: a **sound** cache never
answers a key with anything but the value last put under it, and a **lossless**
one always answers with that value.

`Represents C c m` says that the cache state `c` was reached by a history whose
last puts form the map `m`.  It is the form in which the two laws are used:
`get` and `put` move along it (`Represents.get`, `Represents.put`), and the laws
turn it into a statement about what the next `get` answers.
-/

universe u v

namespace KeyedCache

/-- The operations of a cache with keys `K` and values `V`.  `get` returns the
state too: a cache may record the access. -/
structure CacheApi (K : Type u) (V : Type v) where
  Cache : Type
  /-- A cache created for a number of entries. -/
  new : ℕ → Cache
  get : Cache → K → Option V × Cache
  put : Cache → K → V → Cache

/-- One operation on a cache. -/
inductive CacheOp (K : Type u) (V : Type v) where
  | get (k : K)
  | put (k : K) (v : V)

variable {K : Type u} {V : Type v}

namespace CacheApi

variable (C : CacheApi K V)

/-- The state after one operation. -/
def apply (c : C.Cache) : CacheOp K V → C.Cache
  | .get k => (C.get c k).2
  | .put k v => C.put c k v

/-- The state after a history of operations. -/
def replay (c : C.Cache) (ops : List (CacheOp K V)) : C.Cache := ops.foldl C.apply c

@[simp] theorem replay_append_singleton (c : C.Cache) (ops : List (CacheOp K V))
    (op : CacheOp K V) : C.replay c (ops ++ [op]) = C.apply (C.replay c ops) op := by
  simp [replay]

end CacheApi

variable [DecidableEq K]

/-- The value the last operation on the map `m` leaves under each key. -/
def store (m : K → Option V) : CacheOp K V → K → Option V
  | .get _ => m
  | .put k v => Function.update m k (some v)

/-- The value last put under each key in a history. -/
def lastPut (ops : List (CacheOp K V)) : K → Option V := ops.foldl store fun _ ↦ none

@[simp] theorem lastPut_append_singleton (ops : List (CacheOp K V)) (op : CacheOp K V) :
    lastPut (ops ++ [op]) = store (lastPut ops) op := by
  simp [lastPut]

namespace CacheApi

variable (C : CacheApi K V)

/-- A sound cache answers a key with nothing, or with the value last put under it. -/
def Sound : Prop := ∀ (cap : ℕ) (ops : List (CacheOp K V)) (k : K),
  (C.get (C.replay (C.new cap) ops) k).1 = none ∨
    (C.get (C.replay (C.new cap) ops) k).1 = lastPut ops k

/-- A lossless cache answers every key with the value last put under it. -/
def Lossless : Prop := ∀ (cap : ℕ) (ops : List (CacheOp K V)) (k : K),
  (C.get (C.replay (C.new cap) ops) k).1 = lastPut ops k

theorem Lossless.sound {C : CacheApi K V} (h : C.Lossless) : C.Sound :=
  fun cap ops k ↦ Or.inr (h cap ops k)

/-- The cache state was reached by a history whose last puts are `m`. -/
def Represents (c : C.Cache) (m : K → Option V) : Prop :=
  ∃ cap ops, c = C.replay (C.new cap) ops ∧ m = lastPut ops

variable {C}

theorem Represents.new (cap : ℕ) : C.Represents (C.new cap) fun _ ↦ none :=
  ⟨cap, [], rfl, rfl⟩

/-- Reading does not change what a cache represents. -/
theorem Represents.get {c : C.Cache} {m : K → Option V} (h : C.Represents c m) (k : K) :
    C.Represents (C.get c k).2 m := by
  obtain ⟨cap, ops, rfl, rfl⟩ := h
  refine ⟨cap, ops ++ [.get k], ?_, ?_⟩
  · rw [replay_append_singleton]; rfl
  · rw [lastPut_append_singleton]; rfl

theorem Represents.put {c : C.Cache} {m : K → Option V} (h : C.Represents c m) (k : K) (v : V) :
    C.Represents (C.put c k v) (Function.update m k (some v)) := by
  obtain ⟨cap, ops, rfl, rfl⟩ := h
  refine ⟨cap, ops ++ [.put k v], ?_, ?_⟩
  · rw [replay_append_singleton]; rfl
  · rw [lastPut_append_singleton]; rfl

theorem Sound.get {c : C.Cache} {m : K → Option V} (hC : C.Sound) (h : C.Represents c m)
    (k : K) : (C.get c k).1 = none ∨ (C.get c k).1 = m k := by
  obtain ⟨cap, ops, rfl, rfl⟩ := h
  exact hC cap ops k

theorem Lossless.get {c : C.Cache} {m : K → Option V} (hC : C.Lossless)
    (h : C.Represents c m) (k : K) : (C.get c k).1 = m k := by
  obtain ⟨cap, ops, rfl, rfl⟩ := h
  exact hC cap ops k

end CacheApi

/-! ## A cache that keeps everything -/

/-- The cache that is a finite map and never evicts. -/
abbrev mapCache (K V : Type) [DecidableEq K] : CacheApi K V where
  Cache := Finmap fun _ : K ↦ V
  new _ := ∅
  get c k := (c.lookup k, c)
  put c k v := c.insert k v

theorem mapCache_lossless (K V : Type) [DecidableEq K] : (mapCache K V).Lossless := by
  intro cap ops k
  induction ops using List.reverseRecOn generalizing k with
  | nil => rfl
  | append_singleton ops op ih =>
      rw [CacheApi.replay_append_singleton, lastPut_append_singleton]
      cases op with
      | get k' => exact ih k
      | put k' v =>
          by_cases hk : k = k'
          · subst hk
            simp [CacheApi.apply, store]
          · have h := ih k
            simp only [CacheApi.apply, store, Function.update_of_ne hk] at h ⊢
            rw [Finmap.lookup_insert_of_ne _ hk]
            exact h

end KeyedCache
