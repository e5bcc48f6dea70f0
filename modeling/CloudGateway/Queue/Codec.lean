import CloudGateway.QueueBridge

/-!
# The message codec

Every byte string of 24 bytes or more is a header and a rest (`exists_header`), and what
`fromBytes` does to it can be said at once (`fromBytes_header`): it is a message if the
priority is one and the rest is as long as the header says.

The header holds the length of the payload in 16 bits, so a message comes back if and only if
its payload is no longer than that (`fromBytes_toBytes_iff`).
-/

namespace CloudGateway

open LittleEndian

/-- A priority is read back as it was written. -/
theorem MessagePriority.ofU8_toU8 (p : MessagePriority) : ofU8 p.toU8 = some p := by
  cases p <;> rfl

/-- Each byte that is a priority is the byte of it. -/
theorem MessagePriority.toU8_of_ofU8 {b : UInt8} {p : MessagePriority} (h : ofU8 b = some p) :
    p.toU8 = b := by
  unfold ofU8 at h
  split at h <;> cases h <;> rfl

theorem MessagePriority.ofU8_of_gt {b : UInt8} (h : 3 < b) : ofU8 b = none := by
  unfold ofU8
  split
  · exact absurd h (by decide)
  · exact absurd h (by decide)
  · exact absurd h (by decide)
  · exact absurd h (by decide)
  · rfl

namespace GatewayMessage

/-! ## Reading -/

section

variable {α β : Type}

@[simp] theorem run_indexed_some_bind (a : α) (f : α → OptionT Option β) :
    (indexed (some a) >>= f).run = (f a).run := rfl

@[simp] theorem run_tried_some_bind (a : α) (f : α → OptionT Option β) :
    (tried (some a) >>= f).run = (f a).run := rfl

end

/-! ## Headers -/

/-- A header, as it is laid out. -/
def header (source_device_id timestamp_ms : UInt64) (priority : UInt8) (routing_key : UInt32)
    (payload_len : UInt16) (padding : UInt8) : Bytes :=
  u64ToLe source_device_id ++ (u64ToLe timestamp_ms ++ ([priority] ++
    (u32ToLe routing_key ++ (u16ToLe payload_len ++ [padding]))))

theorem length_header (source_device_id timestamp_ms : UInt64) (priority : UInt8)
    (routing_key : UInt32) (payload_len : UInt16) (padding : UInt8) :
    (header source_device_id timestamp_ms priority routing_key payload_len padding).length
      = 24 := by
  simp [header]

/-- The priority is the byte 16. -/
theorem getElem?_header (source_device_id timestamp_ms : UInt64) (priority : UInt8)
    (routing_key : UInt32) (payload_len : UInt16) (padding : UInt8) (rest : Bytes) :
    (header source_device_id timestamp_ms priority routing_key payload_len padding
      ++ rest)[16]? = some priority := by
  simp [header, List.getElem?_append]

/-- A string begins with a part of any length that it has. -/
theorem exists_append (xs : Bytes) {n : ℕ} (h : n ≤ xs.length) :
    ∃ as bs, xs = as ++ bs ∧ as.length = n :=
  ⟨xs.take n, xs.drop n, (List.take_append_drop n xs).symm, List.length_take_of_le h⟩

/-- Every string of 24 bytes or more begins with a header. -/
theorem exists_header {buf : Bytes} (h : 24 ≤ buf.length) :
    ∃ source_device_id timestamp_ms priority routing_key payload_len padding rest,
      buf = header source_device_id timestamp_ms priority routing_key payload_len padding
        ++ rest := by
  obtain ⟨as, buf, rfl, has⟩ := exists_append _ (n := 8) (le_trans (by decide) h)
  rw [List.length_append, has] at h
  obtain ⟨bs, buf, rfl, hbs⟩ := exists_append buf (n := 8) (by omega)
  rw [List.length_append, hbs] at h
  obtain ⟨ps, buf, rfl, hps⟩ := exists_append buf (n := 1) (by omega)
  rw [List.length_append, hps] at h
  obtain ⟨cs, buf, rfl, hcs⟩ := exists_append buf (n := 4) (by omega)
  rw [List.length_append, hcs] at h
  obtain ⟨ds, buf, rfl, hds⟩ := exists_append buf (n := 2) (by omega)
  rw [List.length_append, hds] at h
  obtain ⟨es, rest, rfl, hes⟩ := exists_append buf (n := 1) (by omega)
  obtain ⟨source_device_id, rfl⟩ : ∃ x, u64ToLe x = as := ⟨_, u64ToLe_ofLe has⟩
  obtain ⟨timestamp_ms, rfl⟩ : ∃ x, u64ToLe x = bs := ⟨_, u64ToLe_ofLe hbs⟩
  obtain ⟨priority, rfl⟩ := List.length_eq_one_iff.mp hps
  obtain ⟨routing_key, rfl⟩ : ∃ x, u32ToLe x = cs := ⟨_, u32ToLe_ofLe hcs⟩
  obtain ⟨payload_len, rfl⟩ : ∃ x, u16ToLe x = ds := ⟨_, u16ToLe_ofLe hds⟩
  obtain ⟨padding, rfl⟩ := List.length_eq_one_iff.mp hes
  refine ⟨source_device_id, timestamp_ms, priority, routing_key, payload_len, padding, rest, ?_⟩
  simp only [header, List.append_assoc]

/-- What the decoder does to a header and a rest. -/
theorem fromBytes_header (source_device_id timestamp_ms : UInt64) (priority : UInt8)
    (routing_key : UInt32) (payload_len : UInt16) (padding : UInt8) (rest : Bytes) :
    fromBytes (header source_device_id timestamp_ms priority routing_key payload_len padding
        ++ rest)
      = some ((MessagePriority.ofU8 priority).bind fun priority ↦
          if rest.length < payload_len.toNat then none
          else some ⟨source_device_id, timestamp_ms, priority, rest.take payload_len.toNat,
            routing_key⟩) := by
  have hlayout : header source_device_id timestamp_ms priority routing_key payload_len padding
      ++ rest = u64ToLe source_device_id ++ (u64ToLe timestamp_ms ++ ([priority] ++
        (u32ToLe routing_key ++ (u16ToLe payload_len ++ ([padding] ++ rest))))) := by
    simp only [header, List.append_assoc]
  have hlength : (header source_device_id timestamp_ms priority routing_key payload_len padding
      ++ rest).length = 24 + rest.length := by
    rw [List.length_append, length_header]
  have hpayload := slice_append_right (length_header source_device_id timestamp_ms priority
    routing_key payload_len padding) rest 0 payload_len.toNat
  have hpriority := getElem?_header source_device_id timestamp_ms priority routing_key payload_len
    padding rest
  generalize header source_device_id timestamp_ms priority routing_key payload_len padding ++ rest
    = buf at hlayout hlength hpayload hpriority
  -- The fields, each behind the ones before it.
  have hdevice : slice buf 0 8 = some (u64ToLe source_device_id) := by
    rw [hlayout]
    exact slice_append_left (length_u64ToLe _) _
  have htimestamp : slice buf 8 16 = some (u64ToLe timestamp_ms) := by
    rw [hlayout]
    exact (slice_append_right (length_u64ToLe _) _ 0 8).trans
      (slice_append_left (length_u64ToLe _) _)
  have hkey : slice buf 17 21 = some (u32ToLe routing_key) := by
    rw [hlayout]
    exact (slice_append_right (length_u64ToLe _) _ 9 13).trans <|
      (slice_append_right (length_u64ToLe _) _ 1 5).trans <|
      (slice_append_right List.length_singleton _ 0 4).trans
        (slice_append_left (length_u32ToLe _) _)
  have hlen : slice buf 21 23 = some (u16ToLe payload_len) := by
    rw [hlayout]
    exact (slice_append_right (length_u64ToLe _) _ 13 15).trans <|
      (slice_append_right (length_u64ToLe _) _ 5 7).trans <|
      (slice_append_right List.length_singleton _ 4 6).trans <|
      (slice_append_right (length_u32ToLe _) _ 0 2).trans
        (slice_append_left (length_u16ToLe _) _)
  have hlong : ¬ 24 + rest.length < 24 := by omega
  rw [fromBytes]
  simp only [hdevice, htimestamp, hpriority, hlength, if_neg hlong, run_indexed_some_bind,
    u64FromLe_u64ToLe, run_tried_some_bind]
  cases MessagePriority.ofU8 priority with
  | none => rfl
  | some p =>
      simp only [hkey, hlen, run_indexed_some_bind, run_tried_some_bind, u32FromLe_u32ToLe,
        u16FromLe_u16ToLe, Option.bind_some, Nat.add_lt_add_iff_left]
      by_cases hshort : rest.length < payload_len.toNat
      · simp only [if_pos hshort]
        rfl
      · have htake : slice buf 24 (24 + payload_len.toNat)
            = some (rest.take payload_len.toNat) :=
          hpayload.trans (slice_of_le (Nat.zero_le _) (not_lt.mp hshort))
        simp only [if_neg hshort, htake]
        rfl

theorem fromBytes_of_short {buf : Bytes} (h : buf.length < 24) : fromBytes buf = some none := by
  rw [fromBytes]
  simp only [if_pos h]
  rfl

/-! ## The format -/

/-- The bytes of a message with another byte as padding. -/
def toBytesPadded (m : GatewayMessage) (padding : UInt8) : Bytes :=
  header m.source_device_id m.timestamp_ms m.priority.toU8 m.routing_key
    (UInt16.ofNat m.payload.length) padding ++ m.payload

theorem toBytes_eq (m : GatewayMessage) : m.toBytes = m.toBytesPadded 0 := by
  simp only [toBytes, toBytesPadded, header, List.append_assoc]

/-- The padding is the byte 23. -/
theorem set_toBytes (m : GatewayMessage) (padding : UInt8) :
    m.toBytes.set 23 padding = m.toBytesPadded padding := by
  rw [toBytes_eq, toBytesPadded, toBytesPadded, List.set_append_left _ _ (by simp [header])]
  simp [header]

/-- What the decoder accepts, and as what. -/
theorem fromBytes_eq_some_iff (buf : Bytes) (m : GatewayMessage) :
    fromBytes buf = some (some m) ↔
      m.payload.length ≤ 65535 ∧ ∃ padding rest, buf = m.toBytesPadded padding ++ rest := by
  constructor
  · intro h
    rcases lt_or_ge buf.length 24 with hshort | hlong
    · rw [fromBytes_of_short hshort] at h
      cases h
    · obtain ⟨source_device_id, timestamp_ms, priority, routing_key, payload_len, padding, rest,
        rfl⟩ := exists_header hlong
      rw [fromBytes_header] at h
      obtain ⟨p, hp, h⟩ := Option.bind_eq_some_iff.mp (Option.some.inj h)
      by_cases hle : rest.length < payload_len.toNat
      · rw [if_pos hle] at h
        cases h
      · rw [if_neg hle] at h
        obtain rfl := Option.some.inj h
        have hlength : (rest.take payload_len.toNat).length = payload_len.toNat :=
          List.length_take_of_le (not_lt.mp hle)
        have hlt := payload_len.toNat_lt
        refine ⟨?_, padding, rest.drop payload_len.toNat, ?_⟩
        · rw [hlength]
          omega
        · rw [toBytesPadded, hlength, UInt16.ofNat_toNat, MessagePriority.toU8_of_ofU8 hp,
            List.append_assoc, List.take_append_drop]
  · rintro ⟨hle, padding, rest, rfl⟩
    have hlen : (UInt16.ofNat m.payload.length).toNat = m.payload.length :=
      UInt16.toNat_ofNat_of_lt' (Nat.lt_succ_of_le hle)
    have hlong : ¬ (m.payload ++ rest).length < m.payload.length := by
      rw [List.length_append]
      omega
    rw [toBytesPadded, List.append_assoc, fromBytes_header, MessagePriority.ofU8_toU8,
      Option.bind_some, hlen, if_neg hlong, List.take_left]

/-- The decoder does not fault. -/
theorem fromBytes_ne_none (buf : Bytes) : fromBytes buf ≠ none := by
  rcases lt_or_ge buf.length 24 with hshort | hlong
  · rw [fromBytes_of_short hshort]
    exact Option.some_ne_none _
  · obtain ⟨_, _, _, _, _, _, _, rfl⟩ := exists_header hlong
    rw [fromBytes_header]
    exact Option.some_ne_none _

/-- A message is determined by its bytes. -/
theorem eq_of_toBytesPadded {m m' : GatewayMessage} {padding padding' : UInt8} {rest rest' : Bytes}
    (hm : m.payload.length ≤ 65535) (hm' : m'.payload.length ≤ 65535)
    (h : m.toBytesPadded padding ++ rest = m'.toBytesPadded padding' ++ rest') : m = m' := by
  have hdecoded := (fromBytes_eq_some_iff _ m).mpr ⟨hm, padding, rest, rfl⟩
  rw [h, (fromBytes_eq_some_iff _ m').mpr ⟨hm', padding', rest', rfl⟩] at hdecoded
  exact (Option.some.inj (Option.some.inj hdecoded)).symm

/-- No message is a proper prefix of another one. -/
theorem fromBytes_of_prefix {m : GatewayMessage} {buf : Bytes} (hm : m.payload.length ≤ 65535)
    (h : buf <+: m.toBytes) (hne : buf ≠ m.toBytes) : fromBytes buf = some none := by
  cases hdecoded : fromBytes buf with
  | none => exact absurd hdecoded (fromBytes_ne_none buf)
  | some result =>
      cases result with
      | none => rfl
      | some m' =>
          obtain ⟨hm', padding, rest, rfl⟩ := (fromBytes_eq_some_iff buf m').mp hdecoded
          obtain ⟨missing, hmissing⟩ := h
          have heq : m.toBytesPadded 0 ++ [] = m'.toBytesPadded padding ++ (rest ++ missing) := by
            rw [← toBytes_eq, ← hmissing, List.append_nil, List.append_assoc]
          -- The prefix would be as long as the message itself.
          obtain rfl := eq_of_toBytesPadded hm hm' heq
          have hlength := congrArg List.length heq
          simp only [toBytesPadded, List.length_append, length_header, List.length_nil] at hlength
          have hnil : missing = [] := List.length_eq_zero_iff.mp (by omega)
          rw [hnil, List.append_nil] at hmissing
          exact absurd hmissing hne

/-- A byte that is no priority is rejected. -/
theorem fromBytes_of_priority {buf : Bytes} {b : UInt8} (hb : buf[16]? = some b) (h : 3 < b) :
    fromBytes buf = some none := by
  rcases lt_or_ge buf.length 24 with hshort | hlong
  · exact fromBytes_of_short hshort
  · obtain ⟨source_device_id, timestamp_ms, priority, routing_key, payload_len, padding, rest,
      rfl⟩ := exists_header hlong
    rw [getElem?_header] at hb
    obtain rfl := Option.some.inj hb
    rw [fromBytes_header, MessagePriority.ofU8_of_gt h, Option.bind_none]

/-- A message comes back, if and only if the header can hold the length of its payload. -/
theorem fromBytes_toBytes_iff (m : GatewayMessage) :
    fromBytes m.toBytes = some (some m) ↔ m.payload.length ≤ 65535 := by
  rw [fromBytes_eq_some_iff]
  exact ⟨And.left, fun h ↦ ⟨h, 0, [], by rw [toBytes_eq, List.append_nil]⟩⟩

/-- A payload of 65536 bytes comes back empty. -/
theorem fromBytes_toBytes_long :
    ∃ m : GatewayMessage, m.payload.length = 65536 ∧
      fromBytes m.toBytes = some (some { m with payload := [] }) ∧
      fromBytes m.toBytes ≠ some (some m) := by
  have hlong (m : GatewayMessage) (hm : m.payload.length = 65536) :
      fromBytes m.toBytes = some (some { m with payload := [] }) := by
    have hlen : (UInt16.ofNat m.payload.length).toNat = 0 := by rw [hm]; rfl
    rw [toBytes_eq, toBytesPadded, fromBytes_header, MessagePriority.ofU8_toU8,
      Option.bind_some, hlen, if_neg (Nat.not_lt_zero _), List.take_zero]
  have hm : (⟨0, 0, .low, List.replicate 65536 0, 0⟩ : GatewayMessage).payload.length = 65536 :=
    List.length_replicate
  refine ⟨_, hm, hlong _ hm, fun h ↦ ?_⟩
  rw [hlong _ hm] at h
  have hpayload := congrArg (fun m ↦ m.payload.length) (Option.some.inj (Option.some.inj h))
  rw [hm] at hpayload
  cases hpayload

/-- **The decoder accepts its format, and nothing else.**

- It accepts as `m` the bytes of `m`, with any byte as padding and anything after them, if the
  payload is no longer than the header can hold.
- It does not index out of range.
- The message is determined by the bytes.
- A proper prefix of the bytes of a message is rejected.
- A byte above 3 in the place of the priority is rejected. -/
theorem fromBytes_spec :
    (∀ buf m, fromBytes buf = some (some m) ↔
      m.payload.length ≤ 65535 ∧ ∃ padding rest, buf = m.toBytes.set 23 padding ++ rest) ∧
    (∀ buf, fromBytes buf ≠ none) ∧
    (∀ (m m' : GatewayMessage) padding padding' rest rest', m.payload.length ≤ 65535 →
      m'.payload.length ≤ 65535 →
      m.toBytes.set 23 padding ++ rest = m'.toBytes.set 23 padding' ++ rest' → m = m') ∧
    (∀ (m : GatewayMessage) buf, m.payload.length ≤ 65535 → buf <+: m.toBytes →
      buf ≠ m.toBytes → fromBytes buf = some none) ∧
    (∀ buf b, buf[16]? = some b → 3 < b → fromBytes buf = some none) := by
  refine ⟨fun buf m ↦ ?_, fromBytes_ne_none, fun m m' padding padding' rest rest' hm hm' h ↦ ?_,
    fun m buf ↦ fromBytes_of_prefix, fun buf b ↦ fromBytes_of_priority⟩
  · simp only [set_toBytes]
    exact fromBytes_eq_some_iff buf m
  · rw [set_toBytes, set_toBytes] at h
    exact eq_of_toBytesPadded hm hm' h

end GatewayMessage

end CloudGateway
