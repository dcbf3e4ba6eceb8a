import WasmHost.Number.Binary32
import WasmHost.Number.Binary64

set_option autoImplicit false

/-! # Values and function types

The values that WebAssembly code computes with. Integers are words without a sign, floating-point
numbers are bit patterns; of the reference types only the null references are values here. -/

namespace WasmHost

/-- The types of values. -/
inductive ValueType where
  | i32
  | i64
  | f32
  | f64
  | v128
  | funcref
  | externref
deriving DecidableEq

/-- The name of a type. -/
def ValueType.name : ValueType → String
  | .i32 => "i32"
  | .i64 => "i64"
  | .f32 => "f32"
  | .f64 => "f64"
  | .v128 => "v128"
  | .funcref => "funcref"
  | .externref => "externref"

/-- Every type. -/
def ValueType.all : List ValueType := [.i32, .i64, .f32, .f64, .v128, .funcref, .externref]

/-- The type of a name. -/
def ValueType.ofName? (name : String) : Option ValueType :=
  ValueType.all.find? fun t => t.name == name

/-- Whether the values of the type are numbers. -/
def ValueType.isNumeric : ValueType → Bool
  | .i32 | .i64 | .f32 | .f64 => true
  | _ => false

/-- A value. -/
inductive Value where
  | i32 (v : UInt32)
  | i64 (v : UInt64)
  | f32 (bits : UInt32)
  | f64 (bits : UInt64)
  | v128 (low high : UInt64)
  | nullFunc
  | nullExtern
deriving DecidableEq

namespace Value

/-- The type of a value. -/
def type : Value → ValueType
  | i32 _ => .i32
  | i64 _ => .i64
  | f32 _ => .f32
  | f64 _ => .f64
  | v128 _ _ => .v128
  | nullFunc => .funcref
  | nullExtern => .externref

/-- The value that a local variable of the type starts with. -/
def zero : ValueType → Value
  | .i32 => i32 0
  | .i64 => i64 0
  | .f32 => f32 0
  | .f64 => f64 0
  | .v128 => v128 0 0
  | .funcref => nullFunc
  | .externref => nullExtern

instance : Inhabited Value := ⟨i32 0⟩

@[simp] theorem type_zero (t : ValueType) : (zero t).type = t := by cases t <;> rfl

end Value

/-- The type of a function. -/
structure FuncType where
  params : List ValueType
  results : List ValueType
deriving DecidableEq

/-- A function type is shown by the names of its parameter and result types. -/
def FuncType.show (t : FuncType) : String :=
  let names (types : List ValueType) := String.intercalate " " (types.map ValueType.name)
  "[" ++ names t.params ++ "] -> [" ++ names t.results ++ "]"

end WasmHost
