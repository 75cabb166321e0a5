import BoardAudit.Proofs.Json.Records
import BoardAudit.Tracker.Config

/-!
# Settings in whole milliseconds

What a configuration reads back as from its JSON text: the same, with its interval cut down to whole
milliseconds, of which 64 bits hold only so many (`Config.ofJson?_toJson`). `Config.encode_in_millis` tells
which configurations that leaves as they are, and what it does to the settings in effect.

All is said in nanoseconds, by which spans of time are compared.
-/

namespace BoardAudit

lemma Json.uint64?_int {n : ℕ} (h : n < UInt64.size) :
    (Json.int n).uint64? = some (UInt64.ofNat n) := by
  rw [uint64?, int?_int, Option.bind_eq_bind, Option.bind_some, if_pos ⟨by omega, by omega⟩]
  rfl

namespace Config

variable (c : Config)

/-- The settings with the interval in whole milliseconds, as many of them as 64 bits hold. -/
def inMillis : Config := { c with flushInterval := .ofMillis (UInt64.ofNat c.intervalMillis) }

/-! ### The interval -/

lemma intervalMillis_eq :
    c.intervalMillis = min (c.flushInterval.toNanos / 1000000) (UInt64.size - 1) := by
  rw [intervalMillis, Duration.toMillis_eq]

lemma intervalMillis_lt : c.intervalMillis < UInt64.size :=
  (Nat.min_le_right _ _).trans_lt (by decide)

lemma toNanos_inMillis : c.inMillis.flushInterval.toNanos = c.intervalMillis * 1000000 := by
  rw [inMillis, Duration.toNanos_ofMillis, UInt64.toNat_ofNat_of_lt' c.intervalMillis_lt]

lemma toNanos_effectiveInterval :
    c.effectiveInterval.toNanos = max c.flushInterval.toNanos 1000000 :=
  Duration.toNanos_max _ _

/-- Settings stay as they are if their interval is a number of milliseconds that 64 bits hold. -/
lemma inMillis_eq_iff :
    c.inMillis = c ↔ ∃ ms < UInt64.size, c.flushInterval.toNanos = ms * 1000000 := by
  have hmillis := c.intervalMillis_eq
  have hnanos := c.toNanos_inMillis
  constructor
  · intro h
    rw [h] at hnanos
    exact ⟨_, c.intervalMillis_lt, hnanos⟩
  · rintro ⟨ms, hms, h⟩
    have hinterval : c.inMillis.flushInterval = c.flushInterval := by
      apply Duration.toNanos_injective
      omega
    calc c.inMillis = { c with flushInterval := c.inMillis.flushInterval } := rfl
      _ = c := by rw [hinterval]

lemma inMillis_inMillis : c.inMillis.inMillis = c.inMillis :=
  c.inMillis.inMillis_eq_iff.mpr ⟨_, c.intervalMillis_lt, c.toNanos_inMillis⟩

/-! ### Reading back -/

/-- Members that read as the three settings read as these. -/
lemma ofJson?_record {j k l : Json} {capacity ms : UInt64} {name : String}
    (hj : j.uint64? = some capacity) (hk : k.uint64? = some ms) (hl : l.text? = some name) :
    ofJson? (.record [("queue_capacity", j), ("flush_interval_ms", k), ("thread_name", l)]) =
      some ⟨capacity, .ofMillis ms, name⟩ := by
  rw [ofJson?, Json.fields?_record ?_ (by decide)]
  · simp [Json.Fields.withDefault, List.lookup_cons, hj, hk, hl]
  · exact List.Sublist.refl fieldNames

theorem ofJson?_toJson : ofJson? c.toJson = some c.inMillis := by
  refine ofJson?_record ?_ (Json.uint64?_int c.intervalMillis_lt) (Json.text?_text c.threadName)
  rw [Json.uint64?_int c.queueCapacity.toNat_lt_size, UInt64.ofNat_toNat]

/-- The codec of settings. -/
def codec : Json.Codec Config := ⟨toJson, ofJson?⟩

lemma decode?_encode : codec.decode? (codec.encode c) = some c.inMillis :=
  (codec.decode?_encode c).trans c.ofJson?_toJson

/-- **Settings survive their JSON text up to whole milliseconds.** Whatever the settings are, their text
reads back as the same settings with the whole milliseconds of the interval, capped at 64 bits. These are
the settings themselves exactly if the interval is a number of milliseconds under the cap, and another
round changes nothing. The capacity in effect stays as it is, and has room for a trigger; the interval in
effect is at least a millisecond, does not get longer and, under the cap, loses less than a
millisecond. -/
theorem encode_in_millis :
    codec.decode? (codec.encode c) = some c.inMillis ∧
    (∃ interval : Duration, c.inMillis = { c with flushInterval := interval } ∧
      interval.toNanos = min (c.flushInterval.toNanos / 1000000) (UInt64.size - 1) * 1000000) ∧
    (c.inMillis = c ↔ ∃ ms < UInt64.size, c.flushInterval.toNanos = ms * 1000000) ∧
    codec.decode? (codec.encode c.inMillis) = some c.inMillis ∧
    c.inMillis.effectiveCapacity = c.effectiveCapacity ∧ 1 ≤ c.effectiveCapacity ∧
    1000000 ≤ c.inMillis.effectiveInterval.toNanos ∧
    c.inMillis.effectiveInterval.toNanos ≤ c.effectiveInterval.toNanos ∧
    (c.flushInterval.toNanos / 1000000 < UInt64.size →
      c.effectiveInterval.toNanos < c.inMillis.effectiveInterval.toNanos + 1000000) := by
  have hmillis := c.intervalMillis_eq
  have hbefore := c.toNanos_effectiveInterval
  have hafter := c.inMillis.toNanos_effectiveInterval
  rw [toNanos_inMillis] at hafter
  have hagain := c.inMillis.decode?_encode
  rw [inMillis_inMillis] at hagain
  refine ⟨c.decode?_encode, ⟨_, rfl, ?_⟩, c.inMillis_eq_iff, hagain, rfl, ?_, ?_, ?_, fun hcap => ?_⟩
  · exact c.toNanos_inMillis.trans (by rw [hmillis])
  · exact c.one_le_effectiveCapacity
  · omega
  · omega
  · omega

/-! ### An interval at the cap -/

/-- Settings without room, with a nanosecond less than the interval that would be over the cap. -/
def nearlyCapped : Config := ⟨0, ⟨18446744073709551, ⟨615999999, by decide⟩⟩, "the \"worker\""⟩

/-- Such an interval loses what it has beyond the milliseconds under the cap. -/
theorem encode_in_millis_of_nearlyCapped :
    nearlyCapped.flushInterval.toNanos / 1000000 < UInt64.size ∧
    codec.decode? (codec.encode nearlyCapped) =
      some { nearlyCapped with flushInterval := ⟨18446744073709551, ⟨615000000, by decide⟩⟩ } ∧
    nearlyCapped.inMillis ≠ nearlyCapped ∧ nearlyCapped.inMillis.effectiveCapacity = 1 ∧
    nearlyCapped.effectiveInterval.toNanos <
      nearlyCapped.inMillis.effectiveInterval.toNanos + 1000000 := by
  have hcap : nearlyCapped.flushInterval.toNanos / 1000000 < UInt64.size := by decide
  obtain ⟨hread, -, -, -, hroom, -, -, -, hlost⟩ := nearlyCapped.encode_in_millis
  refine ⟨hcap, hread, by decide, hroom, hlost hcap⟩

end Config

end BoardAudit
