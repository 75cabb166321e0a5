/-!
# Durations

Spans of time in whole seconds of 64 bits and nanoseconds below one second.
-/

namespace BoardAudit

/-- A span of time. -/
structure Duration where
  seconds : UInt64
  nanos : Fin 1000000000
  deriving DecidableEq

namespace Duration

def toNanos (d : Duration) : Nat := d.seconds.toNat * 1000000000 + d.nanos

def toMillis (d : Duration) : Nat := d.seconds.toNat * 1000 + d.nanos / 1000000

def ofMillis (ms : UInt64) : Duration :=
  ⟨ms / 1000, Fin.ofNat _ (ms.toNat % 1000 * 1000000)⟩

/-- The span of seconds and nanoseconds, where whole seconds of nanoseconds carry over; none if the
seconds overflow. -/
def ofParts? (seconds : UInt64) (nanos : UInt32) : Option Duration :=
  let total := seconds.toNat + nanos.toNat / 1000000000
  if total < UInt64.size then some ⟨total.toUInt64, Fin.ofNat _ nanos.toNat⟩ else none

/-- The longer of two spans. -/
def max (a b : Duration) : Duration := if a.toNanos < b.toNanos then b else a

/-! ### Nanoseconds -/

/-- A span is told by its nanoseconds. -/
theorem toNanos_injective {a b : Duration} (h : a.toNanos = b.toNanos) : a = b := by
  obtain ⟨s, n⟩ := a
  obtain ⟨s', n'⟩ := b
  have hn := n.isLt
  have hn' := n'.isLt
  simp only [toNanos] at h
  obtain rfl : s = s' := UInt64.toNat_inj.mp (by omega)
  obtain rfl : n = n' := Fin.ext (by omega)
  rfl

/-- The milliseconds of a span are the whole ones of its nanoseconds. -/
theorem toMillis_eq (d : Duration) : d.toMillis = d.toNanos / 1000000 := by
  simp only [toMillis, toNanos]
  omega

theorem toNanos_ofMillis (ms : UInt64) : (ofMillis ms).toNanos = ms.toNat * 1000000 := by
  simp only [ofMillis, toNanos, UInt64.toNat_div, UInt64.reduceToNat, Fin.ofNat]
  omega

theorem toNanos_max (a b : Duration) : (a.max b).toNanos = Max.max a.toNanos b.toNanos := by
  unfold max
  split <;> omega

end Duration

end BoardAudit
