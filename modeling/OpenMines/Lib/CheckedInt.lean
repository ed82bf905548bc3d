import Mathlib.Data.List.TakeDrop
import Mathlib.Data.Option.Basic
import Mathlib.Algebra.BigOperators.Fin

namespace OpenMines.Lib.CheckedInt

/-- What a computation with checked arithmetic returns; nothing when it panics. -/
abbrev Checked (α : Type) := Option α

theorem isSome_bind_iff {α β : Type} {x : Checked α} {f : α → Checked β} :
    (x.bind f).isSome ↔ ∃ a, x = some a ∧ (f a).isSome := by
  cases x <;> simp

def FitsI32 (n : Int) : Prop := -2147483648 ≤ n ∧ n ≤ 2147483647

instance (n : Int) : Decidable (FitsI32 n) := inferInstanceAs (Decidable (_ ∧ _))

theorem fitsI32_toInt (a : Int32) : FitsI32 a.toInt := ⟨a.le_toInt, Int.le_of_lt_add_one a.toInt_lt⟩

def i32 (n : Int) : Checked Int32 := if FitsI32 n then some (.ofInt n) else none

theorem i32_eq_some {n : Int} {a : Int32} : i32 n = some a ↔ a.toInt = n := by
  constructor
  · intro h
    obtain ⟨hfits, ha⟩ := Option.ite_none_right_eq_some.mp h
    obtain rfl := Option.some_inj.mp ha
    exact Int32.toInt_ofInt_of_le hfits.1 (Int.lt_add_one_of_le hfits.2)
  · rintro rfl
    rw [i32, if_pos (fitsI32_toInt a), Int32.ofInt_toInt]

@[simp] theorem isSome_i32 {n : Int} : (i32 n).isSome ↔ FitsI32 n := by
  by_cases h : FitsI32 n <;> simp [i32, h]

theorem exists_toInt_iff {n : Int} : (∃ a : Int32, a.toInt = n) ↔ FitsI32 n := by
  rw [← isSome_i32, Option.isSome_iff_exists]
  exact exists_congr fun a => i32_eq_some.symm

/-- Two values that are computed one after the other. -/
theorem pair_eq_some {m n : Int} {a b : Int32} :
    ((i32 m).bind fun x => (i32 n).bind fun y => some (x, y)) = some (a, b) ↔ a.toInt = m ∧ b.toInt = n := by
  constructor
  · intro h
    obtain ⟨x, hx, h⟩ := Option.bind_eq_some_iff.mp h
    obtain ⟨y, hy, h⟩ := Option.bind_eq_some_iff.mp h
    obtain ⟨rfl, rfl⟩ := Prod.mk.inj (Option.some_inj.mp h)
    exact ⟨i32_eq_some.mp hx, i32_eq_some.mp hy⟩
  · rintro ⟨ha, hb⟩
    rw [i32_eq_some.mpr ha, i32_eq_some.mpr hb]
    rfl

theorem exists_pair_iff {m n : Int} : (∃ a b : Int32, a.toInt = m ∧ b.toInt = n) ↔ FitsI32 m ∧ FitsI32 n := by
  constructor
  · rintro ⟨a, b, rfl, rfl⟩
    exact ⟨fitsI32_toInt a, fitsI32_toInt b⟩
  · rintro ⟨hm, hn⟩
    obtain ⟨a, ha⟩ := exists_toInt_iff.mpr hm
    obtain ⟨b, hb⟩ := exists_toInt_iff.mpr hn
    exact ⟨a, b, ha, hb⟩

def addI32 (a b : Int32) : Checked Int32 := i32 (a.toInt + b.toInt)

theorem addI32_eq_some_add {a b : Int32} (h : FitsI32 (a.toInt + b.toInt)) : addI32 a b = some (a + b) := by
  refine i32_eq_some.mpr ((Int32.toInt_add a b).trans (Int.bmod_eq_of_le ?_ ?_))
  · exact h.1
  · exact Int.lt_add_one_of_le h.2

@[simp] theorem isSome_addI32 {a b : Int32} : (addI32 a b).isSome ↔ FitsI32 (a.toInt + b.toInt) := isSome_i32

def mulI32 (a b : Int32) : Checked Int32 := i32 (a.toInt * b.toInt)

theorem mulI32_eq_some_mul {a b : Int32} (h : FitsI32 (a.toInt * b.toInt)) : mulI32 a b = some (a * b) := by
  refine i32_eq_some.mpr ((Int32.toInt_mul a b).trans (Int.bmod_eq_of_le ?_ ?_))
  · exact h.1
  · exact Int.lt_add_one_of_le h.2

theorem i32_eq_none {n : Int} : i32 n = none ↔ ¬ FitsI32 n := by
  rw [← isSome_i32, Option.not_isSome_iff_eq_none]

def subI32 (a b : Int32) : Checked Int32 := i32 (a.toInt - b.toInt)

def absI32 (a : Int32) : Checked Int32 := i32 a.toInt.natAbs

def DivSafe (a b : Int32) : Prop := b ≠ 0 ∧ ¬ (a = .minValue ∧ b = -1)

instance (a b : Int32) : Decidable (DivSafe a b) := inferInstanceAs (Decidable (_ ∧ _))

def divI32 (a b : Int32) : Checked Int32 := if DivSafe a b then some (a / b) else none

def remI32 (a b : Int32) : Checked Int32 := if DivSafe a b then some (a % b) else none

@[simp] theorem isSome_divI32 {a b : Int32} : (divI32 a b).isSome ↔ DivSafe a b := by
  by_cases h : DivSafe a b <;> simp [divI32, h]

@[simp] theorem isSome_remI32 {a b : Int32} : (remI32 a b).isSome ↔ DivSafe a b := by
  by_cases h : DivSafe a b <;> simp [remI32, h]

/-- The nearest value of the type. -/
def clampI32 (n : Int) : Int32 :=
  if n < -2147483648 then .minValue else if 2147483647 < n then .maxValue else .ofInt n

theorem toInt_clampI32 (n : Int) : (clampI32 n).toInt =
    if n < -2147483648 then -2147483648 else if 2147483647 < n then 2147483647 else n := by
  rw [clampI32]
  split
  · rfl
  · rename_i hlow
    split
    · rfl
    · rename_i hhigh
      exact Int32.toInt_ofInt_of_le (Int.not_lt.mp hlow) (Int.lt_add_one_of_le (Int.not_lt.mp hhigh))

def saturatingAddI32 (a b : Int32) : Int32 := clampI32 (a.toInt + b.toInt)

def saturatingSubI32 (a b : Int32) : Int32 := clampI32 (a.toInt - b.toInt)

theorem toInt_maxI32 (a b : Int32) : (max a b).toInt = max a.toInt b.toInt := by
  have hmax : max a b = if a ≤ b then b else a := rfl
  rw [hmax, apply_ite Int32.toInt, max_def]
  simp only [Int32.le_iff_toInt_le]

theorem toInt_minI32 (a b : Int32) : (min a b).toInt = min a.toInt b.toInt := by
  have hmin : min a b = if a ≤ b then a else b := rfl
  rw [hmin, apply_ite Int32.toInt, min_def]
  simp only [Int32.le_iff_toInt_le]

def FitsI64 (n : Int) : Prop := -9223372036854775808 ≤ n ∧ n ≤ 9223372036854775807

instance (n : Int) : Decidable (FitsI64 n) := inferInstanceAs (Decidable (_ ∧ _))

theorem fitsI64_toInt (a : Int64) : FitsI64 a.toInt := ⟨a.le_toInt, Int.le_of_lt_add_one a.toInt_lt⟩

def i64 (n : Int) : Checked Int64 := if FitsI64 n then some (.ofInt n) else none

theorem i64_eq_some {n : Int} {a : Int64} : i64 n = some a ↔ a.toInt = n := by
  constructor
  · intro h
    obtain ⟨hfits, ha⟩ := Option.ite_none_right_eq_some.mp h
    obtain rfl := Option.some_inj.mp ha
    exact Int64.toInt_ofInt_of_le hfits.1 (Int.lt_add_one_of_le hfits.2)
  · rintro rfl
    rw [i64, if_pos (fitsI64_toInt a), Int64.ofInt_toInt]

theorem isSome_i64 {n : Int} : (i64 n).isSome ↔ FitsI64 n := by
  by_cases h : FitsI64 n <;> simp [i64, h]

theorem toInt_minI64 (a b : Int64) : (min a b).toInt = min a.toInt b.toInt := by
  have hmin : min a b = if a ≤ b then a else b := rfl
  rw [hmin, apply_ite Int64.toInt, min_def]
  simp only [Int64.le_iff_toInt_le]

theorem toInt_maxI64 (a b : Int64) : (max a b).toInt = max a.toInt b.toInt := by
  have hmax : max a b = if a ≤ b then b else a := rfl
  rw [hmax, apply_ite Int64.toInt, max_def]
  simp only [Int64.le_iff_toInt_le]

theorem i64_eq_none {n : Int} : i64 n = none ↔ ¬ FitsI64 n := by
  rw [← isSome_i64, Option.not_isSome_iff_eq_none]

/-- The nearest value of the type. -/
def clampI64 (n : Int) : Int64 :=
  if n < -9223372036854775808 then .minValue else if 9223372036854775807 < n then .maxValue else .ofInt n

theorem toInt_clampI64 (n : Int) : (clampI64 n).toInt =
    if n < -9223372036854775808 then -9223372036854775808
    else if 9223372036854775807 < n then 9223372036854775807 else n := by
  rw [clampI64]
  split
  · rfl
  · rename_i hlow
    split
    · rfl
    · rename_i hhigh
      exact Int64.toInt_ofInt_of_le (Int.not_lt.mp hlow) (Int.lt_add_one_of_le (Int.not_lt.mp hhigh))

def saturatingAddI64 (a b : Int64) : Int64 := clampI64 (a.toInt + b.toInt)

def saturatingSubI64 (a b : Int64) : Int64 := clampI64 (a.toInt - b.toInt)

def checkedMulI64 (a b : Int64) : Option Int64 := i64 (a.toInt * b.toInt)

/-- The sum of two values that are not negative wraps to a negative one when it does not fit. -/
theorem toInt_add_of_nonneg {a b : Int64} (ha : 0 ≤ a.toInt) (hb : 0 ≤ b.toInt) : (a + b).toInt =
    if a.toInt + b.toInt ≤ 9223372036854775807 then a.toInt + b.toInt
    else a.toInt + b.toInt - 18446744073709551616 := by
  have hale := (fitsI64_toInt a).2
  have hble := (fitsI64_toInt b).2
  rw [Int64.toInt_add, Int.bmod_def]
  split <;> omega

/-- Every sum from the left fits. -/
def SumFits (start : Int) (xs : List Int64) : Prop :=
  ∀ k ≤ xs.length, FitsI64 (start + ((xs.take k).map Int64.toInt).sum)

def sumI64 (start : Int64) (xs : List Int64) : Checked Int64 :=
  xs.foldlM (fun total x => i64 (total.toInt + x.toInt)) start

theorem sumFits_cons {start : Int} {x : Int64} {xs : List Int64} (hstart : FitsI64 start) :
    SumFits start (x :: xs) ↔ FitsI64 (start + x.toInt) ∧ SumFits (start + x.toInt) xs := by
  constructor
  · intro h
    refine ⟨by simpa using h 1 (by simp), fun k hk => ?_⟩
    simpa [add_assoc] using h (k + 1) (by simpa using hk)
  · rintro ⟨hx, hxs⟩ k hk
    cases k with
    | zero => simpa using hstart
    | succ k => simpa [add_assoc] using hxs k (by simpa using hk)

theorem isSome_sumI64 {start : Int64} {xs : List Int64} : (sumI64 start xs).isSome ↔ SumFits start.toInt xs := by
  induction xs generalizing start with
  | nil => simp [sumI64, SumFits, fitsI64_toInt]
  | cons x xs ih =>
      rw [sumFits_cons (fitsI64_toInt start), sumI64, List.foldlM_cons, Option.bind_eq_bind, isSome_bind_iff]
      constructor
      · rintro ⟨total, htotal, hrest⟩
        rw [← i64_eq_some.mp htotal]
        exact ⟨fitsI64_toInt total, ih.mp hrest⟩
      · rintro ⟨hx, hxs⟩
        obtain ⟨total, htotal⟩ := Option.isSome_iff_exists.mp (isSome_i64.mpr hx)
        rw [← i64_eq_some.mp htotal] at hxs
        exact ⟨total, htotal, ih.mpr hxs⟩

def addU32 (a b : UInt32) : Checked UInt32 := if a.toNat + b.toNat < 4294967296 then some (a + b) else none

def mulU32 (a b : UInt32) : Checked UInt32 := if a.toNat * b.toNat < 4294967296 then some (a * b) else none

def usizeMax : Nat := 18446744073709551615

def usize (n : Nat) : Checked Nat := if n ≤ usizeMax then some n else none

theorem usize_eq_some {n m : Nat} : usize n = some m ↔ n ≤ usizeMax ∧ n = m := by
  simp [usize, and_comm]

@[simp] theorem isSome_usize {n : Nat} : (usize n).isSome ↔ n ≤ usizeMax := by
  by_cases h : n ≤ usizeMax <;> simp [usize, h]

/-- The length that a signed header field gives. -/
def usizeOfI32 (n : Int32) : Nat := if n < 0 then usizeMax else n.toInt.toNat

theorem usizeOfI32_le (n : Int32) : usizeOfI32 n ≤ usizeMax := by
  have h := n.toInt_lt
  rw [usizeOfI32]
  split
  · exact Nat.le_refl _
  · rw [usizeMax]
    omega

/-- A small number may be added to the length just where it is not negative. -/
theorem add_usizeOfI32_le {n : Int32} {k : Nat} (hpos : 0 < k) (hk : k ≤ 4096) :
    k + usizeOfI32 n ≤ usizeMax ↔ 0 ≤ n := by
  have h := n.toInt_lt
  rw [usizeOfI32]
  split
  · rename_i hneg
    exact iff_of_false (by omega) (Int32.not_le.mpr hneg)
  · rename_i hneg
    exact iff_of_true (by rw [usizeMax]; omega) (Int32.not_lt.mp hneg)

/-- The room for so many elements of so many bytes; an allocation is limited by `isize`. -/
def withCapacity (bytes n : Nat) : Checked Unit := if n * bytes ≤ 9223372036854775807 then some () else none

/-- A loop whose steps all return. -/
theorem mapM_eq_some_map {α β : Type} {f : α → Checked β} {g : α → β} {xs : List α}
    (h : ∀ a ∈ xs, f a = some (g a)) : xs.mapM f = some (xs.map g) := by
  induction xs with
  | nil => rfl
  | cons a xs ih =>
      obtain ⟨ha, hxs⟩ := List.forall_mem_cons.mp h
      rw [List.mapM_cons, ha, ih hxs]
      rfl

/-- The rest of a sequence from a position on. -/
def sliceFrom {α : Type} (xs : List α) (n : Nat) : Checked (List α) :=
  if n ≤ xs.length then some (xs.drop n) else none

@[simp] theorem isSome_sliceFrom {α : Type} {xs : List α} {n : Nat} :
    (sliceFrom xs n).isSome ↔ n ≤ xs.length := by
  by_cases h : n ≤ xs.length <;> simp [sliceFrom, h]

end OpenMines.Lib.CheckedInt
