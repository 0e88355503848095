/-!
# Integers of fixed width

An integer is taken into 32 or 64 bits only when it fits: nothing here wraps around.
-/

namespace TypedLine

-- Powers are those of the core library, also where other powers are at hand.
attribute [local instance (high)] instPowNat

/-- The integer in 32 bits, if it fits. -/
def int32? (n : Int) : Option Int32 :=
  if -2 ^ (31 : Nat) ≤ n ∧ n < 2 ^ (31 : Nat) then some (Int32.ofInt n) else none

/-- The integer in 64 bits, if it fits. -/
def int64? (n : Int) : Option Int64 :=
  if -2 ^ (63 : Nat) ≤ n ∧ n < 2 ^ (63 : Nat) then some (Int64.ofInt n) else none

/-- What is taken into 32 bits is not changed. -/
theorem toInt_of_int32? {n : Int} {i : Int32} (h : int32? n = some i) : i.toInt = n := by
  unfold int32? at h
  split at h
  · obtain rfl := Option.some.inj h
    exact Int32.toInt_ofInt_of_le (by omega) (by omega)
  · cases h

/-- What is taken into 64 bits is not changed. -/
theorem toInt_of_int64? {n : Int} {i : Int64} (h : int64? n = some i) : i.toInt = n := by
  unfold int64? at h
  split at h
  · obtain rfl := Option.some.inj h
    exact Int64.toInt_ofInt_of_le (by omega) (by omega)
  · cases h

/-- What is in 32 bits is taken into 32 bits, and nothing else is taken as it. -/
theorem int32?_eq_some_iff {n : Int} {i : Int32} : int32? n = some i ↔ i.toInt = n := by
  constructor
  · exact toInt_of_int32?
  · rintro rfl
    have hlow := i.le_toInt
    have hhigh := i.toInt_lt
    rw [int32?, if_pos ⟨by omega, by omega⟩, Int32.ofInt_toInt]

/-- What is in 64 bits is taken into 64 bits, and nothing else is taken as it. -/
theorem int64?_eq_some_iff {n : Int} {i : Int64} : int64? n = some i ↔ i.toInt = n := by
  constructor
  · exact toInt_of_int64?
  · rintro rfl
    have hlow := i.le_toInt
    have hhigh := i.toInt_lt
    rw [int64?, if_pos ⟨by omega, by omega⟩, Int64.ofInt_toInt]

/-- The range of 32 bits. -/
theorem exists_int32_iff {n : Int} :
    (∃ i : Int32, i.toInt = n) ↔ -2 ^ (31 : Nat) ≤ n ∧ n < 2 ^ (31 : Nat) := by
  constructor
  · rintro ⟨i, rfl⟩
    have hlow := i.le_toInt
    have hhigh := i.toInt_lt
    exact ⟨by omega, by omega⟩
  · intro h
    exact ⟨Int32.ofInt n, int32?_eq_some_iff.1 (if_pos h)⟩

/-- The range of 64 bits. -/
theorem exists_int64_iff {n : Int} :
    (∃ i : Int64, i.toInt = n) ↔ -2 ^ (63 : Nat) ≤ n ∧ n < 2 ^ (63 : Nat) := by
  constructor
  · rintro ⟨i, rfl⟩
    have hlow := i.le_toInt
    have hhigh := i.toInt_lt
    exact ⟨by omega, by omega⟩
  · intro h
    exact ⟨Int64.ofInt n, int64?_eq_some_iff.1 (if_pos h)⟩

end TypedLine
