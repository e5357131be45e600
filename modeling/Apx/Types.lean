import Apx.LittleEndian

/-! The enumerations of types.h, error.h and vm_defs.h that the virtual machine uses. -/

namespace Apx

/-- apx_error_t, without the codes that no modelled function returns. -/
inductive ApxError where
  | invalidArgument
  | parse
  | internal
  | length
  | elementType
  | unsupported
  | notImplemented
  | notFound
  | missingBuffer
  | nameMissing
  | nameTooLong
  | nullPtr
  | bufferBoundary
  | bufferFull
  | queueFull
  | invalidProgram
  | invalidInstruction
  | emptyRecord
  | invalidHeader
  | unexpectedEnd
  | valueType
  | valueRange
  | valueConversion
  | valueLength
  | tooManyReferences
  | index
  | invalidTypeRef
  | typeAlreadyExist
  | portAlreadyExist
  | strayCharactersAfterParse
  | invalidWrite
  | fileNotOpen
  | invalidMsg
  | msgTooLarge
  | fileTooLarge
  | invalidAddress
  | fileNotFound
  | fileCreate
  | nodeAlreadyExists
  | invalidFile
  | memory
  | invalidWriteHandler
  | invalidPortHandle
  deriving DecidableEq, Repr

/-- How a call can end other than with APX_NO_ERROR: with an error code, in an assert
that does not hold, or by reading memory outside the object it works on. -/
inductive Failure where
  | code (error : ApxError)
  | assertion
  | outOfBounds
  deriving DecidableEq, Repr

/-- What a call leaves behind. C functions work on `*self` in place, so a failing call
also leaves a state. -/
inductive Result (σ α : Type) where
  | ok (value : α) (state : σ)
  | fail (failure : Failure) (state : σ)
  deriving DecidableEq, Repr

namespace Result
variable {σ τ α β : Type}

/-- The next call, unless this one failed. -/
def bind (first : Result σ α) (second : α → σ → Result σ β) : Result σ β :=
  match first with
  | .ok value state => second value state
  | .fail failure state => .fail failure state

@[simp] theorem bind_ok (value : α) (state : σ) (second : α → σ → Result σ β) :
    (Result.ok value state).bind second = second value state := rfl

@[simp] theorem bind_fail (failure : Failure) (state : σ) (second : α → σ → Result σ β) :
    (Result.fail failure state : Result σ α).bind second = .fail failure state := rfl

/-- The state a call leaves, whether or not it failed. -/
def state : Result σ α → σ
  | .ok _ s => s
  | .fail _ s => s

/-- The error of a call, `none` for APX_NO_ERROR. -/
def failure? : Result σ α → Option Failure
  | .ok .. => none
  | .fail failure _ => some failure

/-- The call on a part of a larger object. -/
def lift (put : σ → τ) : Result σ α → Result τ α
  | .ok value s => .ok value (put s)
  | .fail failure s => .fail failure (put s)

@[simp] theorem state_ok (value : α) (s : σ) : (Result.ok value s).state = s := rfl
@[simp] theorem state_fail (failure : Failure) (s : σ) :
    (Result.fail failure s : Result σ α).state = s := rfl
@[simp] theorem lift_ok (put : σ → τ) (value : α) (s : σ) :
    (Result.ok value s).lift put = .ok value (put s) := rfl
@[simp] theorem lift_fail (put : σ → τ) (failure : Failure) (s : σ) :
    (Result.fail failure s : Result σ α).lift put = .fail failure (put s) := rfl

/-- A chain of two calls succeeds exactly when both do. -/
theorem bind_eq_ok {first : Result σ α} {second : α → σ → Result σ β} {value : β} {s : σ} :
    first.bind second = .ok value s ↔ ∃ a t, first = .ok a t ∧ second a t = .ok value s := by
  cases first with
  | ok a t => simp
  | fail failure t => simp

/-- A chain that ends with nothing else to do. -/
@[simp] theorem bind_pure (first : Result σ Unit) : (first.bind fun _ s => .ok () s) = first := by
  cases first <;> rfl

/-- A result computed at the end changes neither the state nor the failure. -/
theorem state_bind_pure (first : Result σ α) (f : α → σ → β) :
    (first.bind fun a s => .ok (f a s) s).state = first.state := by
  cases first <;> rfl

theorem bind_pure_eq_fail {first : Result σ α} {f : α → σ → β} {failure : Failure} {s : σ} :
    (first.bind fun a s => .ok (f a s) s) = .fail failure s ↔ first = .fail failure s := by
  cases first <;> simp

@[simp] theorem state_lift (put : σ → τ) (r : Result σ α) : (r.lift put).state = put r.state := by
  cases r <;> rfl

/-- What a call leaves behind in any case, a chain leaves behind if its second call does. -/
theorem state_bind {P : σ → Prop} {first : Result σ α} {second : α → σ → Result σ β}
    (left : P first.state) (next : ∀ a s, first = .ok a s → P s → P (second a s).state) :
    P (first.bind second).state := by
  cases first with
  | ok a s => exact next a s rfl left
  | fail failure s => exact left

/-- Two calls end in the same way, in related states. -/
inductive Rel (Q : σ → τ → Prop) : Result σ α → Result τ α → Prop where
  | ok {value : α} {s : σ} {t : τ} (related : Q s t) : Rel Q (.ok value s) (.ok value t)
  | fail {failure : Failure} {s : σ} {t : τ} (related : Q s t) :
      Rel Q (.fail failure s) (.fail failure t)

variable {υ φ : Type} {Q : σ → τ → Prop} {P : υ → φ → Prop}

theorem Rel.ends {r : Result σ α} {r' : Result τ α} (rel : Rel Q r r') :
    (∃ value s t, r = .ok value s ∧ r' = .ok value t ∧ Q s t) ∨
      ∃ failure s t, r = .fail failure s ∧ r' = .fail failure t ∧ Q s t := by
  cases rel with
  | ok related => exact .inl ⟨_, _, _, rfl, rfl, related⟩
  | fail related => exact .inr ⟨_, _, _, rfl, rfl, related⟩

theorem Rel.bind {r : Result σ α} {r' : Result τ α} {f : α → σ → Result σ β}
    {g : α → τ → Result τ β} (rel : Rel Q r r')
    (next : ∀ a s t, Q s t → Rel Q (f a s) (g a t)) : Rel Q (r.bind f) (r'.bind g) := by
  cases rel with
  | ok related => exact next _ _ _ related
  | fail related => exact .fail related

theorem Rel.lift {r : Result σ α} {r' : Result τ α} {put : σ → υ} {put' : τ → φ} (rel : Rel Q r r')
    (puts : ∀ s t, Q s t → P (put s) (put' t)) : Rel P (r.lift put) (r'.lift put') := by
  cases rel with
  | ok related => exact .ok (puts _ _ related)
  | fail related => exact .fail (puts _ _ related)

/-- The call succeeds exactly under a condition, and then leaves this state. -/
structure Settles (r : Result σ Unit) (condition : Prop) (s : σ) : Prop where
  ok : condition → r = .ok () s
  fail : ¬condition → ∃ failure t, r = .fail failure t

theorem Settles.done (s : σ) : Settles (.ok () s) True s := ⟨fun _ => rfl, fun absurd_ => (absurd_ trivial).elim⟩

theorem Settles.never (failure : Failure) (s t : σ) : Settles (.fail failure s) False t :=
  ⟨nofun, fun _ => ⟨failure, s, rfl⟩⟩

theorem Settles.test (condition : Prop) [Decidable condition] (s t : σ) (failure : Failure) :
    Settles (if condition then .ok () s else .fail failure t) condition s :=
  ⟨fun holds => if_pos holds, fun not => ⟨failure, t, if_neg not⟩⟩

theorem Settles.iff {r : Result σ Unit} {condition condition' : Prop} {s : σ}
    (settles : Settles r condition s) (same : condition ↔ condition') : Settles r condition' s :=
  ⟨fun holds => settles.ok (same.mpr holds), fun not => settles.fail fun holds => not (same.mp holds)⟩

theorem Settles.bind {r : Result σ Unit} {f : Unit → σ → Result σ Unit}
    {condition condition' : Prop} {s t : σ} (settles : Settles r condition s)
    (next : condition → Settles (f () s) condition' t) :
    Settles (r.bind f) (condition ∧ condition') t := by
  by_cases holds : condition
  · rw [settles.ok holds, Result.bind_ok]
    exact (next holds).iff ⟨fun second => ⟨holds, second⟩, And.right⟩
  · obtain ⟨failure, u, failed⟩ := settles.fail holds
    rw [failed]
    exact ⟨fun both => absurd both.1 holds, fun _ => ⟨failure, u, rfl⟩⟩

theorem Settles.lift {r : Result σ Unit} {condition : Prop} {s : σ} (settles : Settles r condition s)
    (put : σ → τ) : Settles (r.lift put) condition (put s) := by
  constructor
  · intro holds
    rw [settles.ok holds, Result.lift_ok]
  · intro not
    obtain ⟨failure, t, failed⟩ := settles.fail not
    exact ⟨failure, put t, by rw [failed, Result.lift_fail]⟩

end Result

/-- apx_typeCode_t -/
inductive TypeCode where
  | none
  | uint8 | uint16 | uint32 | uint64
  | int8 | int16 | int32 | int64
  | char | char8 | char16 | char32
  | bool | byte
  | record
  | refId | refName | refPtr
  deriving DecidableEq, Repr

/-- apx_sizeType_t: the width of the length prefix of a dynamic array -/
inductive SizeType where
  | none | uint8 | uint16 | uint32
  deriving DecidableEq, Repr

/-- apx_programType_t -/
inductive ProgramType where
  | unpack | pack
  deriving DecidableEq, Repr

/-- scalar_storage_type_t: which part of a scalar_value union is active -/
inductive ScalarStorageType where
  | none | int32 | uint32 | int64 | uint64 | bool | char | byte
  deriving DecidableEq, Repr

/-- apx_rangeCheckState_t -/
inductive RangeCheckState where
  | notChecked | ok | fail
  deriving DecidableEq, Repr

/-- apx_operationType_t -/
inductive OperationType where
  | programEnd
  | unpack
  | pack
  | rangeCheckInt32
  | rangeCheckUInt32
  | rangeCheckInt64
  | rangeCheckUInt64
  | recordSelect
  | arrayNext
  deriving DecidableEq, Repr

def uint8Max : Nat := 255
def uint16Max : Nat := 65535
def uint32Max : Nat := 4294967295

/-- Conversion to uint32_t. -/
def u32 (n : Nat) : Nat := n % 2 ^ 32

theorem u32_of_lt {n : Nat} (fits : n < 2 ^ 32) : u32 n = n := Nat.mod_eq_of_lt fits

theorem u32_lt (n : Nat) : u32 n < 2 ^ 32 := Nat.mod_lt _ (by decide)

end Apx
