import Mathlib.Data.List.Sort
import Mathlib.Data.Rat.Defs
import PhpProf.OrderedTable
import PhpProf.Text

/-! What the extension sees of the PHP engine and of the C library: strings,
functions, frames, clocks and timers, and the engine calls whose code is not
part of the extension. -/
namespace PhpProf
open Text

/-- `zend_result`. -/
inductive ZendResult where
  | success
  | failure
  deriving DecidableEq

/-- A `zend_string`: its address and its counted bytes, which may contain NUL.
The engine compares strings by address where the extension uses `==`, and by
bytes where they are hash keys. -/
structure ZendString where
  addr : Nat
  val : Bytes
  deriving DecidableEq

inductive FunctionType where
  | internalFunction
  | userFunction
  | evalCode
  deriving DecidableEq

/-- `ZEND_USER_CODE`: every type but an internal function. -/
def FunctionType.userCode : FunctionType → Bool
  | .internalFunction => false
  | .userFunction | .evalCode => true

structure OpArray where
  filename : ZendString
  lineStart : UInt32
  deriving DecidableEq

/-- A `zend_function`. The op array is meaningful only for user code, and the
scope is the name of the class a method belongs to. -/
structure ZendFunction where
  type : FunctionType
  closure : Bool
  scope : Option Bytes
  functionName : Option Bytes
  opArray : OpArray
  deriving DecidableEq

/-- A frame of the VM stack. A chain of `prev_execute_data` pointers is a list,
innermost frame first. -/
structure ExecuteData where
  func : Option ZendFunction
  deriving DecidableEq

structure Timespec where
  tvSec : Int64
  tvNsec : Int64
  deriving DecidableEq

structure Timeval where
  tvSec : Int64
  tvUsec : Int64
  deriving DecidableEq

structure Itimerval where
  itInterval : Timeval
  itValue : Timeval
  deriving DecidableEq

/-- A bucket comparison function, as `zend_hash_sort` takes it. -/
abbrev Compare (ν : Type) := Bytes × ν → Bytes × ν → Int

/-- The engine functions the extension relies on. -/
structure Engine where
  getFunctionOrMethodName : ZendFunction → Bytes
  zendHashSort : {ν : Type} → Compare ν → OrderedTable Bytes ν → OrderedTable Bytes ν

/-- The documented name of a function: `Scope::name` for a method, the bare name
for a plain function, `main` for code without a name. -/
def phpFunctionOrMethodName (func : ZendFunction) : Bytes :=
  match func.scope, func.functionName with
  | some scope, some name => scope ++ ascii "::" ++ name
  | none, some name => name
  | _, none => ascii "main"

/-- Sorting as PHP 8 documents it: equal entries keep their order. -/
def phpHashSort {ν : Type} (compare : Compare ν) (table : OrderedTable Bytes ν) :
    OrderedTable Bytes ν where
  entries := table.entries.mergeSort fun first second => decide (compare first second ≤ 0)
  distinct := ((List.mergeSort_perm ..).map Prod.fst).nodup_iff.mpr table.distinct

/-- The engine as documented. -/
def php : Engine where
  getFunctionOrMethodName := phpFunctionOrMethodName
  zendHashSort := phpHashSort

/-- `HT_MAX_SIZE`: `zend_hash_init` with a larger size is a fatal error. -/
def htMaxSize : UInt32 := 0x80000000

/-- `zend_hash_init` for a size the code computes: the parameter is 32 bits
wide, and a refused size does not return. -/
def zendHashInit {ν : Type} (size : UInt64) : Option (OrderedTable Bytes ν) :=
  if htMaxSize < size.toUInt32 then none else some .empty

end PhpProf
