import Apx.Types

/-! The dynamic values (dtl_dv_t) that the virtual machine packs and unpacks. -/

namespace Apx

/-- dtl_sv_t. `other` stands for the kinds that the machine neither makes nor reads
(floating point numbers, pointers). -/
inductive Sv where
  | none
  | i32 (value : BitVec 32)
  | u32 (value : BitVec 32)
  | i64 (value : BitVec 64)
  | u64 (value : BitVec 64)
  | bool (value : Bool)
  | char (value : Byte)
  | str (value : Bytes)
  | bytearray (value : Bytes)
  | other (kind : Nat)
  deriving DecidableEq, Repr

/-- dtl_dv_t. `null` stands for no value at all (DTL_DV_NULL, DTL_DV_INVALID). A hash is
the list of its entries; the first entry of a key is its value. -/
inductive Dv where
  | null
  | scalar (sv : Sv)
  | array (av : List Dv)
  | hash (hv : List (Bytes × Dv))
  deriving Repr

/-- dtl_dv_type_id -/
inductive DvType where
  | null | scalar | array | hash
  deriving DecidableEq, Repr

/-- dtl_dv_type -/
def Dv.type : Dv → DvType
  | .null => .null
  | .scalar _ => .scalar
  | .array _ => .array
  | .hash _ => .hash

namespace Sv

/-- The number held by a scalar of an integer kind. -/
def int? : Sv → Option Int
  | .i32 value => some value.toInt
  | .u32 value => some value.toNat
  | .i64 value => some value.toInt
  | .u64 value => some value.toNat
  | _ => Option.none

/-- Scalars are equal numerically when both are integers, else as they are. -/
def Eqv (x y : Sv) : Prop := x.int? = y.int? ∧ (x.int? = Option.none → x = y)

instance (x y : Sv) : Decidable (Sv.Eqv x y) :=
  inferInstanceAs (Decidable (x.int? = y.int? ∧ (x.int? = Option.none → x = y)))

end Sv

namespace Hash

/-- dtl_hv_get_cstr -/
def get (hv : List (Bytes × Dv)) (key : Bytes) : Option Dv := hv.lookup key

/-- dtl_hv_set_cstr: replaces the value of a key or adds the key. -/
def set (hv : List (Bytes × Dv)) (key : Bytes) (value : Dv) : List (Bytes × Dv) :=
  match hv with
  | [] => [(key, value)]
  | (k, v) :: rest => if k = key then (k, value) :: rest else (k, v) :: set rest key value

theorem get_set_same (hv : List (Bytes × Dv)) (key : Bytes) (value : Dv) :
    get (set hv key value) key = some value := by
  induction hv with
  | nil => simp [set, get]
  | cons entry rest ih =>
    obtain ⟨k, v⟩ := entry
    by_cases same : k = key
    · simp [set, get, same]
    · have miss : (key == k) = false := by simpa using fun h => same h.symm
      simpa [set, same, get, List.lookup_cons, miss] using ih

theorem get_set_other (hv : List (Bytes × Dv)) {key other : Bytes} (value : Dv)
    (differ : other ≠ key) : get (set hv key value) other = get hv other := by
  induction hv with
  | nil =>
    have miss : (other == key) = false := by simpa using differ
    simp [set, get, List.lookup_cons, miss]
  | cons entry rest ih =>
    obtain ⟨k, v⟩ := entry
    by_cases same : k = key
    · subst same
      have miss : (other == k) = false := by simpa using differ
      simp [set, get, List.lookup_cons, miss]
    · simp only [set, if_neg same, get, List.lookup_cons] at ih ⊢
      cases other == k <;> simp_all

end Hash

/-- The conversions of the dtl_type library, which is not part of this repository: each
returns a value and its `ok` flag. -/
structure Dtl where
  toI32 : Sv → BitVec 32 × Bool
  toU32 : Sv → BitVec 32 × Bool
  toI64 : Sv → BitVec 64 × Bool
  toU64 : Sv → BitVec 64 × Bool
  toBool : Sv → Bool × Bool
  toStr : Sv → Bytes × Bool

/-- What the library promises of them: an integer converts exactly when it fits the target
type, and then to the same number; a boolean and a string convert to themselves. -/
structure Dtl.Exact (dtl : Dtl) : Prop where
  toI32 : ∀ sv n, sv.int? = some n →
    ((dtl.toI32 sv).2 = true ↔ -2 ^ 31 ≤ n ∧ n < 2 ^ 31) ∧
    ((dtl.toI32 sv).2 = true → (dtl.toI32 sv).1.toInt = n)
  toU32 : ∀ sv n, sv.int? = some n →
    ((dtl.toU32 sv).2 = true ↔ 0 ≤ n ∧ n < 2 ^ 32) ∧
    ((dtl.toU32 sv).2 = true → ((dtl.toU32 sv).1.toNat : Int) = n)
  toI64 : ∀ sv n, sv.int? = some n →
    ((dtl.toI64 sv).2 = true ↔ -2 ^ 63 ≤ n ∧ n < 2 ^ 63) ∧
    ((dtl.toI64 sv).2 = true → (dtl.toI64 sv).1.toInt = n)
  toU64 : ∀ sv n, sv.int? = some n →
    ((dtl.toU64 sv).2 = true ↔ 0 ≤ n ∧ n < 2 ^ 64) ∧
    ((dtl.toU64 sv).2 = true → ((dtl.toU64 sv).1.toNat : Int) = n)
  toBool : ∀ b, dtl.toBool (.bool b) = (b, true)
  toStr : ∀ s, dtl.toStr (.str s) = (s, true)

/-- A library that converts by the numbers alone. -/
def Dtl.numeric : Dtl where
  toI32 sv := match sv.int? with
    | some n => (BitVec.ofInt 32 n, decide (-2 ^ 31 ≤ n ∧ n < 2 ^ 31))
    | none => (0, false)
  toU32 sv := match sv.int? with
    | some n => (BitVec.ofInt 32 n, decide (0 ≤ n ∧ n < 2 ^ 32))
    | none => (0, false)
  toI64 sv := match sv.int? with
    | some n => (BitVec.ofInt 64 n, decide (-2 ^ 63 ≤ n ∧ n < 2 ^ 63))
    | none => (0, false)
  toU64 sv := match sv.int? with
    | some n => (BitVec.ofInt 64 n, decide (0 ≤ n ∧ n < 2 ^ 64))
    | none => (0, false)
  toBool
    | .bool b => (b, true)
    | _ => (false, false)
  toStr
    | .str s => (s, true)
    | _ => ([], false)

private theorem toInt_ofInt_of_fits {w : Nat} {n : Int} (low : -2 ^ w ≤ n) (high : n < 2 ^ w) :
    (BitVec.ofInt (w + 1) n).toInt = n := by
  rw [BitVec.toInt_ofInt]
  apply Int.bmod_eq_of_le
  · have half : (((2 : Nat) ^ (w + 1) : Nat) : Int) / 2 = 2 ^ w := by
      rw [pow_succ]; push_cast; omega
    omega
  · have half : ((((2 : Nat) ^ (w + 1) : Nat) : Int) + 1) / 2 = 2 ^ w := by
      rw [pow_succ]; push_cast; omega
    omega

private theorem toNat_ofInt_of_fits {w : Nat} {n : Int} (low : 0 ≤ n) (high : n < 2 ^ w) :
    ((BitVec.ofInt w n).toNat : Int) = n := by
  rw [BitVec.toNat_ofInt]
  have small : n % ((2 ^ w : Nat) : Int) = n := Int.emod_eq_of_lt low (by exact_mod_cast high)
  rw [small]
  omega

theorem Dtl.numeric_exact : Dtl.numeric.Exact where
  toI32 sv n h := by
    simp only [Dtl.numeric, h, decide_eq_true_eq, true_and]
    exact fun fits => toInt_ofInt_of_fits fits.1 fits.2
  toU32 sv n h := by
    simp only [Dtl.numeric, h, decide_eq_true_eq, true_and]
    exact fun fits => toNat_ofInt_of_fits fits.1 fits.2
  toI64 sv n h := by
    simp only [Dtl.numeric, h, decide_eq_true_eq, true_and]
    exact fun fits => toInt_ofInt_of_fits fits.1 fits.2
  toU64 sv n h := by
    simp only [Dtl.numeric, h, decide_eq_true_eq, true_and]
    exact fun fits => toNat_ofInt_of_fits fits.1 fits.2
  toBool _ := rfl
  toStr _ := rfl

end Apx
