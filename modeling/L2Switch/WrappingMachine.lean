import Mathlib.Algebra.Group.Int.Defs
import Mathlib.Algebra.Group.Nat.Defs
import Mathlib.Data.List.Basic

/-!
Programs over machine integers and one memory, run the way a release build runs
them: an overflow wraps and the program goes on. A run remembers whether there was
one, which is where a debug build would have stopped, and which spans of memory were
touched. An early return ends a run with its error.
-/
namespace L2Switch.WrappingMachine

variable {State Error Value Next : Type}

structure Span where
  base : Int
  size : Nat
  deriving DecidableEq

/-- A span without bytes lies anywhere. -/
def Span.Within (low high : Int) (span : Span) : Prop :=
  span.size = 0 ∨ (low ≤ span.base ∧ span.base + span.size ≤ high)

structure Ran (State Error Value : Type) where
  result : Except Error Value
  state : State
  overflowed : Bool
  touched : List Span

def Machine (State Error Value : Type) := State → Ran State Error Value

def Ran.andThen (first : Ran State Error Value) (next : Value → Machine State Error Next) :
    Ran State Error Next :=
  match first.result with
  | .error error =>
      { result := .error error, state := first.state, overflowed := first.overflowed
        touched := first.touched }
  | .ok value =>
      let rest := next value first.state
      { result := rest.result, state := rest.state
        overflowed := first.overflowed || rest.overflowed
        touched := first.touched ++ rest.touched }

instance : Monad (Machine State Error) where
  pure value := fun state => { result := .ok value, state, overflowed := false, touched := [] }
  bind machine next := fun state => (machine state).andThen next

/-- `value` is the machine's answer where the exact one is `exact`. -/
def arith (toInt : Value → Int) (value : Value) (exact : Int) : Machine State Error Value :=
  fun state =>
    { result := .ok value, state, overflowed := toInt value ≠ exact, touched := [] }

def fail (error : Error) : Machine State Error Value :=
  fun state => { result := .error error, state, overflowed := false, touched := [] }

/-- The error is computed only where the condition fails. -/
def ensure (condition : Bool) (error : Machine State Error Error) : Machine State Error Unit :=
  if !condition then do fail (← error) else pure ()

def gets (read : State → Value) : Machine State Error Value :=
  fun state => { result := .ok (read state), state, overflowed := false, touched := [] }

def update (write : State → State) : Machine State Error Unit :=
  fun state => { result := .ok (), state := write state, overflowed := false, touched := [] }

def touch (spans : List Span) : Machine State Error Unit :=
  fun state => { result := .ok (), state, overflowed := false, touched := spans }

def whenPositive (count : UInt64) (action : Machine State Error Unit) : Machine State Error Unit :=
  if 0 < count then action else pure ()

def addUsize (left right : UInt64) : Machine State Error UInt64 :=
  arith (fun value => value.toNat) (left + right) (left.toNat + right.toNat)

def subUsize (left right : UInt64) : Machine State Error UInt64 :=
  arith (fun value => value.toNat) (left - right) (left.toNat - right.toNat)

def mulUsize (left right : UInt64) : Machine State Error UInt64 :=
  arith (fun value => value.toNat) (left * right) (left.toNat * right.toNat)

def addIsize (left right : Int64) : Machine State Error Int64 :=
  arith Int64.toInt (left + right) (left.toInt + right.toInt)

def negIsize (value : Int64) : Machine State Error Int64 :=
  arith Int64.toInt (-value) (-value.toInt)

def addU16 (left right : UInt16) : Machine State Error UInt16 :=
  arith (fun value => value.toNat) (left + right) (left.toNat + right.toNat)

def subU16 (left right : UInt16) : Machine State Error UInt16 :=
  arith (fun value => value.toNat) (left - right) (left.toNat - right.toNat)

def addU32 (left right : UInt32) : Machine State Error UInt32 :=
  arith (fun value => value.toNat) (left + right) (left.toNat + right.toNat)

def subU32 (left right : UInt32) : Machine State Error UInt32 :=
  arith (fun value => value.toNat) (left - right) (left.toNat - right.toNat)

def powUsize (base : UInt64) (exponent : Nat) : Machine State Error UInt64 :=
  arith (fun value => value.toNat) (.ofNat (base.toNat ^ exponent)) ((base.toNat ^ exponent : Nat) : Int)

def addBits {width : Nat} (left right : BitVec width) : Machine State Error (BitVec width) :=
  arith (fun value => value.toNat) (left + right) (left.toNat + right.toNat)

def subBits {width : Nat} (left right : BitVec width) : Machine State Error (BitVec width) :=
  arith (fun value => value.toNat) (left - right) (left.toNat - right.toNat)

/-- The run with an overflow and accesses that came before it. -/
def Ran.after (overflowed : Bool) (touched : List Span) (ran : Ran State Error Value) :
    Ran State Error Value :=
  { ran with overflowed := overflowed || ran.overflowed, touched := touched ++ ran.touched }

/-- The run that does nothing but return. -/
abbrev Ran.quiet (value : Value) (state : State) : Ran State Error Value :=
  { result := .ok value, state, overflowed := false, touched := [] }

theorem bind_run (machine : Machine State Error Value) (next : Value → Machine State Error Next)
    (state : State) : (machine >>= next) state = (machine state).andThen next := rfl

@[simp] theorem pure_run (value : Value) (state : State) :
    (pure value : Machine State Error Value) state = .quiet value state := rfl

@[simp] theorem gets_run (read : State → Value) (state : State) :
    (gets read : Machine State Error Value) state = .quiet (read state) state := rfl

@[simp] theorem update_run (write : State → State) (state : State) :
    (update write : Machine State Error Unit) state = .quiet () (write state) := rfl

@[simp] theorem andThen_ok (value : Value) (state : State) (overflowed : Bool) (touched : List Span)
    (next : Value → Machine State Error Next) :
    Ran.andThen { result := .ok value, state, overflowed, touched } next =
      (next value state).after overflowed touched := rfl

@[simp] theorem andThen_error (error : Error) (state : State) (overflowed : Bool)
    (touched : List Span) (next : Value → Machine State Error Next) :
    Ran.andThen { result := .error error, state, overflowed, touched } next =
      { result := .error error, state, overflowed, touched } := rfl

@[simp] theorem after_nothing (ran : Ran State Error Value) : ran.after false [] = ran := rfl

theorem after_after (outer inner : Bool) (before between : List Span)
    (ran : Ran State Error Value) :
    (ran.after inner between).after outer before =
      ran.after (outer || inner) (before ++ between) := by
  simp [Ran.after, Bool.or_assoc]

theorem after_andThen (ran : Ran State Error Value) (next : Value → Machine State Error Next)
    (overflowed : Bool) (touched : List Span) :
    (ran.after overflowed touched).andThen next = (ran.andThen next).after overflowed touched := by
  obtain ⟨result, state, within, spans⟩ := ran
  cases result with
  | error error => rfl
  | ok value => exact (after_after overflowed within touched spans (next value state)).symm

/-- An overflow is remembered whatever happens after it. -/
theorem bind_overflowed (machine : Machine State Error Value)
    (next : Value → Machine State Error Next) (state : State)
    (overflowed : (machine state).overflowed = true) :
    ((machine >>= next) state).overflowed = true := by
  rw [bind_run, Ran.andThen]
  split <;> simp [overflowed]

/-- What a run comes to, its accesses left aside. -/
def Ran.outcome (ran : Ran State Error Value) : Except Error Value × State × Bool :=
  (ran.result, ran.state, ran.overflowed)

theorem outcome_bind_ok (machine : Machine State Error Value)
    (next : Value → Machine State Error Next) (state middle : State) (value : Value)
    (first : (machine state).outcome = (.ok value, middle, false)) :
    ((machine >>= next) state).outcome = (next value middle).outcome := by
  simp only [Ran.outcome, Prod.mk.injEq] at first
  obtain ⟨result, rfl, overflowed⟩ := first
  simp [bind_run, Ran.andThen, Ran.outcome, result, overflowed]

theorem outcome_bind_error (machine : Machine State Error Value)
    (next : Value → Machine State Error Next) (state middle : State) (error : Error)
    (first : (machine state).outcome = (.error error, middle, false)) :
    ((machine >>= next) state).outcome = (.error error, middle, false) := by
  simp only [Ran.outcome, Prod.mk.injEq] at first
  obtain ⟨result, rfl, overflowed⟩ := first
  simp [bind_run, Ran.andThen, Ran.outcome, result, overflowed]

@[simp] theorem ensure_true (error : Machine State Error Error) :
    ensure true error = pure () := rfl

@[simp] theorem ensure_false (error : Machine State Error Error) :
    ensure false error = (do fail (← error)) := rfl

/-- The two ways to say that an operation left the range of its type. -/
theorem arith_run (toInt : Value → Int) (value : Value) (exact : Int) (state : State)
    (leaves : Prop) [Decidable leaves] (inexact : toInt value ≠ exact ↔ leaves) :
    (arith toInt value exact : Machine State Error Value) state =
      { result := .ok value, state, overflowed := leaves, touched := [] } := by
  simp only [arith, inexact]

theorem addUsize_run (left right : UInt64) (state : State) :
    (addUsize left right : Machine State Error UInt64) state =
      { result := .ok (left + right), state
        overflowed := 2 ^ 64 ≤ left.toNat + right.toNat, touched := [] } := by
  apply arith_run
  rw [UInt64.toNat_add]
  omega

theorem subUsize_run (left right : UInt64) (state : State) :
    (subUsize left right : Machine State Error UInt64) state =
      { result := .ok (left - right), state
        overflowed := left.toNat < right.toNat, touched := [] } := by
  apply arith_run
  have small := UInt64.toNat_lt left
  have bounded := UInt64.toNat_lt right
  rw [UInt64.toNat_sub]
  omega

theorem mulUsize_run (left right : UInt64) (state : State) :
    (mulUsize left right : Machine State Error UInt64) state =
      { result := .ok (left * right), state
        overflowed := 2 ^ 64 ≤ left.toNat * right.toNat, touched := [] } := by
  apply arith_run
  rw [UInt64.toNat_mul, ← Int.natCast_mul]
  omega

theorem addIsize_run (left right : Int64) (state : State) :
    (addIsize left right : Machine State Error Int64) state =
      { result := .ok (left + right), state
        overflowed := left.toInt + right.toInt < -2 ^ 63 ∨ 2 ^ 63 ≤ left.toInt + right.toInt
        touched := [] } := by
  apply arith_run
  rw [Int64.toInt_add, Int.bmod_def]
  have := left.le_toInt
  have := left.toInt_lt
  have := right.le_toInt
  have := right.toInt_lt
  omega

theorem negIsize_run (value : Int64) (state : State) :
    (negIsize value : Machine State Error Int64) state =
      { result := .ok (-value), state, overflowed := value.toInt = -2 ^ 63, touched := [] } := by
  apply arith_run
  have := value.le_toInt
  have := value.toInt_lt
  rw [Int64.toInt_neg, Int.bmod_def]
  omega

theorem addU16_run (left right : UInt16) (state : State) :
    (addU16 left right : Machine State Error UInt16) state =
      { result := .ok (left + right), state
        overflowed := 2 ^ 16 ≤ left.toNat + right.toNat, touched := [] } := by
  apply arith_run
  rw [UInt16.toNat_add]
  omega

theorem subU16_run (left right : UInt16) (state : State) :
    (subU16 left right : Machine State Error UInt16) state =
      { result := .ok (left - right), state
        overflowed := left.toNat < right.toNat, touched := [] } := by
  apply arith_run
  have small := UInt16.toNat_lt left
  have bounded := UInt16.toNat_lt right
  rw [UInt16.toNat_sub]
  omega

theorem addU32_run (left right : UInt32) (state : State) :
    (addU32 left right : Machine State Error UInt32) state =
      { result := .ok (left + right), state
        overflowed := 2 ^ 32 ≤ left.toNat + right.toNat, touched := [] } := by
  apply arith_run
  rw [UInt32.toNat_add]
  omega

theorem subU32_run (left right : UInt32) (state : State) :
    (subU32 left right : Machine State Error UInt32) state =
      { result := .ok (left - right), state
        overflowed := left.toNat < right.toNat, touched := [] } := by
  apply arith_run
  have small := UInt32.toNat_lt left
  have bounded := UInt32.toNat_lt right
  rw [UInt32.toNat_sub]
  omega

theorem powUsize_run (base : UInt64) (exponent : Nat) (state : State) :
    (powUsize base exponent : Machine State Error UInt64) state =
      { result := .ok (.ofNat (base.toNat ^ exponent)), state
        overflowed := 2 ^ 64 ≤ base.toNat ^ exponent, touched := [] } := by
  apply arith_run
  rw [UInt64.toNat_ofNat']
  omega

theorem addBits_run {width : Nat} (left right : BitVec width) (state : State) :
    (addBits left right : Machine State Error (BitVec width)) state =
      { result := .ok (left + right), state
        overflowed := 2 ^ width ≤ left.toNat + right.toNat, touched := [] } := by
  apply arith_run
  rw [BitVec.toNat_add]
  have small := left.isLt
  have bounded := right.isLt
  by_cases fits : left.toNat + right.toNat < 2 ^ width
  · rw [Nat.mod_eq_of_lt fits]
    omega
  · have wraps := Nat.mod_lt (left.toNat + right.toNat) (Nat.two_pow_pos width)
    omega

theorem subBits_run {width : Nat} (left right : BitVec width) (state : State) :
    (subBits left right : Machine State Error (BitVec width)) state =
      { result := .ok (left - right), state
        overflowed := left.toNat < right.toNat, touched := [] } := by
  apply arith_run
  have small := left.isLt
  have bounded := right.isLt
  by_cases fits : right.toNat ≤ left.toNat
  · rw [BitVec.toNat_sub_of_le (BitVec.le_def.mpr fits)]
    omega
  · omega

section InRange

theorem powUsize_exact (base : UInt64) (exponent : Nat) (state : State)
    (fits : base.toNat ^ exponent < 2 ^ 64) :
    (powUsize base exponent : Machine State Error UInt64) state =
      .quiet (.ofNat (base.toNat ^ exponent)) state := by
  rw [powUsize_run, decide_eq_false (Nat.not_le_of_lt fits)]

theorem addBits_exact {width : Nat} (left right : BitVec width) (state : State)
    (fits : left.toNat + right.toNat < 2 ^ width) :
    (addBits left right : Machine State Error (BitVec width)) state =
      .quiet (left + right) state := by
  rw [addBits_run, decide_eq_false (Nat.not_le_of_lt fits)]

theorem subBits_exact {width : Nat} (left right : BitVec width) (state : State)
    (fits : right.toNat ≤ left.toNat) :
    (subBits left right : Machine State Error (BitVec width)) state =
      .quiet (left - right) state := by
  rw [subBits_run, decide_eq_false (Nat.not_lt_of_le fits)]

theorem addUsize_exact (left right : UInt64) (state : State)
    (fits : left.toNat + right.toNat < 2 ^ 64) :
    (addUsize left right : Machine State Error UInt64) state = .quiet (left + right) state := by
  rw [addUsize_run, decide_eq_false (Nat.not_le_of_lt fits)]

theorem subUsize_exact (left right : UInt64) (state : State) (fits : right.toNat ≤ left.toNat) :
    (subUsize left right : Machine State Error UInt64) state = .quiet (left - right) state := by
  rw [subUsize_run, decide_eq_false (Nat.not_lt_of_le fits)]

theorem mulUsize_exact (left right : UInt64) (state : State)
    (fits : left.toNat * right.toNat < 2 ^ 64) :
    (mulUsize left right : Machine State Error UInt64) state = .quiet (left * right) state := by
  rw [mulUsize_run, decide_eq_false (Nat.not_le_of_lt fits)]

theorem addIsize_exact (left right : Int64) (state : State)
    (above : -2 ^ 63 ≤ left.toInt + right.toInt) (below : left.toInt + right.toInt < 2 ^ 63) :
    (addIsize left right : Machine State Error Int64) state = .quiet (left + right) state := by
  have inside : ¬ (left.toInt + right.toInt < -2 ^ 63 ∨ 2 ^ 63 ≤ left.toInt + right.toInt) := by
    omega
  rw [addIsize_run, decide_eq_false inside]

theorem addU16_exact (left right : UInt16) (state : State)
    (fits : left.toNat + right.toNat < 2 ^ 16) :
    (addU16 left right : Machine State Error UInt16) state = .quiet (left + right) state := by
  rw [addU16_run, decide_eq_false (Nat.not_le_of_lt fits)]

theorem subU16_exact (left right : UInt16) (state : State) (fits : right.toNat ≤ left.toNat) :
    (subU16 left right : Machine State Error UInt16) state = .quiet (left - right) state := by
  rw [subU16_run, decide_eq_false (Nat.not_lt_of_le fits)]

end InRange

theorem addUsize_overflows (left right : UInt64) (state : State)
    (far : 2 ^ 64 ≤ left.toNat + right.toNat) :
    ((addUsize left right : Machine State Error UInt64) state).overflowed = true := by
  rw [addUsize_run]
  exact decide_eq_true far

theorem powUsize_overflows (base : UInt64) (exponent : Nat) (state : State)
    (far : 2 ^ 64 ≤ base.toNat ^ exponent) :
    ((powUsize base exponent : Machine State Error UInt64) state).overflowed = true := by
  rw [powUsize_run]
  exact decide_eq_true far

theorem mulUsize_overflows (left right : UInt64) (state : State)
    (far : 2 ^ 64 ≤ left.toNat * right.toNat) :
    ((mulUsize left right : Machine State Error UInt64) state).overflowed = true := by
  rw [mulUsize_run]
  exact decide_eq_true far

end L2Switch.WrappingMachine
