import Mathlib

/-!
# The data every component passes around

Strings are byte strings, `std::map<uuid, uint64_t>` is an ordered map from byte strings to 64-bit
words, and `UUIDBytes` is the value the consumers hand to the counter and to the monitor.
-/

namespace EventsCounter

/-- `std::string`: a uuid, a topic, a configuration key. -/
abbrev Bytes := List UInt8

/-- The bytes of a string literal of the source; all of them are ASCII. -/
def lit (s : String) : Bytes := s.toList.map fun c => c.toNat.toUInt8

/-- What a `std::string` built from a `const char *` holds: the bytes before the first NUL. -/
def cStr (s : Bytes) : Bytes := s.takeWhile (· ≠ 0)

/-- `counters_t`, the `std::map<uuid, uint64_t>` of every counters table. -/
abbrev Counters := Std.ExtTreeMap Bytes UInt64

/-- What a table says about `u`, `0` for a uuid it does not have. -/
def amount (m : Counters) (u : Bytes) : ℕ := (m[u]?.map UInt64.toNat).getD 0

/-- `UUIDBytes`. The empty one leaves `bytes` and `timestamp` uninitialised: whatever they hold is
part of the value. -/
structure UUIDBytes where
  uuid : Bytes
  bytes : UInt64
  timestamp : UInt64
  isEmpty : Bool
deriving DecidableEq, Repr

namespace UUIDBytes

def make (tUuid : Bytes) (tBytes : UInt64) (tTimestamp : UInt64 := 0) : UUIDBytes :=
  ⟨tUuid, tBytes, tTimestamp, false⟩

def none (bytes timestamp : UInt64) : UUIDBytes := ⟨[], bytes, timestamp, true⟩

end UUIDBytes

/-- What the uninitialised fields of an empty value hold. -/
structure Junk where
  bytes : UInt64
  timestamp : UInt64

theorem uint64_toNat_add_modEq (x y : UInt64) : x.toNat + y.toNat ≡ (x + y).toNat [MOD 2 ^ 64] := by
  rw [UInt64.toNat_add]
  exact (Nat.mod_modEq _ _).symm

theorem uint64_toNat_add_le (x y : UInt64) : (x + y).toNat ≤ x.toNat + y.toNat := by
  rw [UInt64.toNat_add]
  exact Nat.mod_le _ _

theorem cStr_eq_self_iff {s : Bytes} : cStr s = s ↔ 0 ∉ s := by
  rw [cStr, List.takeWhile_eq_self_iff]
  simp only [decide_eq_true_eq]
  exact ⟨fun h h0 => h 0 h0 rfl, fun h x hx h0 => h (h0 ▸ hx)⟩

theorem zero_notMem_cStr (s : Bytes) : 0 ∉ cStr s := by
  intro h
  simpa using List.mem_takeWhile_imp h

end EventsCounter
