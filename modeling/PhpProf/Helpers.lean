import Mathlib.Algebra.Order.Field.Rat
import Mathlib.Tactic.Positivity
import PhpProf.Globals

/-! `helpers.c`: clock readings, function names and the slice of a table. A
failed `clock_gettime` is an absent time. -/
namespace PhpProf
open Text

/-- `ts.tv_sec * 1000000 + ts.tv_nsec / 1000`. -/
def Timespec.microseconds (ts : Timespec) : UInt64 :=
  (ts.tvSec * 1000000 + ts.tvNsec / 1000).toUInt64

/-- `ts.tv_sec * 1000000000 + ts.tv_nsec`. -/
def Timespec.nanoseconds (ts : Timespec) : UInt64 :=
  (ts.tvSec * 1000000000 + ts.tvNsec).toUInt64

/-- What `get_prof_unit` finds when it is called. -/
structure UnitClocks where
  monotonicRaw : Option Timespec
  processCputime : Option Timespec
  memoryUsage : UInt64
  deriving DecidableEq

def getProfUnit (clocks : UnitClocks) : Option ProfUnit :=
  match clocks.monotonicRaw with
  | none => none
  | some wall =>
    match clocks.processCputime with
    | none => none
    | some cpu => some ⟨wall.microseconds, cpu.microseconds, clocks.memoryUsage⟩

/-- `get_time`: zero stands for a failed reading. -/
def getTime (monotonicRaw : Option Timespec) : UInt64 :=
  match monotonicRaw with
  | none => 0
  | some ts => ts.microseconds

/-- `get_wall_time`: zero stands for a failed reading. -/
def getWallTime (realtime : Option Timespec) : UInt64 :=
  match realtime with
  | none => 0
  | some ts => ts.nanoseconds

/-- `(double)(stop - start) / 1000000`, for two readings in microseconds. The
subtraction is unsigned. -/
def seconds (start stop : UInt64) : ℚ := ((stop - start).toNat : ℚ) / 1000000

/-- The difference of two clock readings in seconds. -/
def elapsed (start stop : UInt64) : ℚ := ((stop.toNat : ℚ) - start.toNat) / 1000000

/-- The unsigned subtraction is exact unless the clock went back. -/
theorem seconds_eq_elapsed {start stop : UInt64} (ordered : start ≤ stop) :
    seconds start stop = elapsed start stop := by
  have bound : start.toNat ≤ stop.toNat := UInt64.le_iff_toNat_le.mp ordered
  rw [seconds, elapsed, UInt64.toNat_sub_of_le _ _ ordered, Nat.cast_sub bound]

theorem seconds_nonneg (start stop : UInt64) : 0 ≤ seconds start stop := by
  unfold seconds
  positivity

/-- A number below `2 ^ 63` is the same signed. -/
theorem toInt_of_small {n : UInt64} (small : n.toNat < 2 ^ 63) :
    n.toInt64.toInt = (n.toNat : Int) := by
  have half : 2 * n.toBitVec.toNat < 2 ^ 64 := by
    simp only [UInt64.toNat_toBitVec]
    omega
  exact BitVec.toInt_eq_toNat_of_lt half

/-- `get_function_name`. The `%s` of the file name stops at a NUL, and the `%d`
of the line reads its 32 bits as a signed number. -/
def getFunctionName (engine : Engine) (func : ZendFunction) : Option Bytes :=
  if func.closure && func.type.userCode then
    some (ascii "closure " ++ cString func.opArray.filename.val ++ ascii ":" ++
      signedDecimal func.opArray.lineStart.toInt32.toInt)
  else if func.scope.isSome && func.functionName.isNone then
    -- could be `require` from a class method
    some (ascii "main")
  else some (engine.getFunctionOrMethodName func)

/-- The name is never missing, so the handlers' checks for it always pass. -/
theorem getFunctionName_isSome (engine : Engine) (func : ZendFunction) :
    ∃ name, getFunctionName engine func = some name := by
  unfold getFunctionName
  split
  · exact ⟨_, rfl⟩
  · split <;> exact ⟨_, rfl⟩

/-- The name `get_function_name` returns. -/
def functionName (engine : Engine) (func : ZendFunction) : Bytes :=
  (getFunctionName engine func).getD []

theorem getFunctionName_eq (engine : Engine) (func : ZendFunction) :
    getFunctionName engine func = some (functionName engine func) := by
  obtain ⟨name, found⟩ := getFunctionName_isSome engine func
  rw [functionName, found, Option.getD_some]

/-- The loop of `ht_slice` over the buckets that are left; a hole is a deleted
slot. `n` counts the entries taken so far. -/
def htSliceLoop {ν : Type} (limit : UInt64) :
    UInt64 → OrderedTable Bytes ν → List (Option (Bytes × ν)) → OrderedTable Bytes ν
  | _, res, [] => res
  | n, res, none :: rest => htSliceLoop limit n res rest
  | n, res, some (key, value) :: rest =>
    if n ≥ limit then res else htSliceLoop limit (n + 1) (res.add key value) rest

/-- `ht_slice`; no result when `zend_hash_init` refuses the limit as a size. -/
def htSlice {ν : Type} (arData : List (Option (Bytes × ν))) (limit : UInt64) :
    Option (OrderedTable Bytes ν) :=
  (zendHashInit limit).map fun res => htSliceLoop limit 0 res arData

end PhpProf
