set_option autoImplicit false

/-! # Elementary functions

Functions of one or two double-precision numbers that are built from the basic ones. Where the
obvious formula loses digits near zero, a compensated one is used. -/

namespace WasmHost.Elementary

/-- The integer between `x` and zero that is closest to `x`. -/
def trunc (x : Float) : Float := if x < 0.0 then x.ceil else x.floor

/-- `exp x - 1`, also for `x` near zero: the rounding error of `exp x` cancels in the quotient of
    `u - 1` and `log u`. -/
def expm1 (x : Float) : Float :=
  let u := x.exp
  if u == 1.0 then x
  else if u - 1.0 == -1.0 then -1.0
  else if u.isInf then u
  else (u - 1.0) * (x / u.log)

/-- `log (1 + x)`, also for `x` near zero: the rounding error of `1 + x` cancels in the quotient of
    `log u` and `u - 1`. -/
def log1p (x : Float) : Float :=
  let u := 1.0 + x
  if u == 1.0 then x
  else if u.isInf then u.log
  else u.log * (x / (u - 1.0))

/-- The length of the hypotenuse, scaled so that no square overflows or vanishes. An infinite side
    counts even beside a side that is no number. -/
def hypot (x y : Float) : Float :=
  let x := x.abs
  let y := y.abs
  if x.isInf || y.isInf then 1.0 / 0.0
  else if x.isNaN || y.isNaN then 0.0 / 0.0
  else
    let big := if x < y then y else x
    let small := if x < y then x else y
    if small == 0.0 then big
    else
      let k := big.frExp.2
      let a := Float.scaleB big (-k)
      let b := Float.scaleB small (-k)
      Float.scaleB (a * a + b * b).sqrt k

/-- The magnitude of `x` with the sign of `y`. -/
def withSign (x y : Float) : Float :=
  Float.ofBits ((x.toBits &&& 0x7fffffffffffffff) ||| (y.toBits &&& 0x8000000000000000))

/-- The natural logarithm of 2. -/
def logTwo : Float := 0.6931471805599453

/-- Above this number a term of 1 does not count beside the square of `x`, and the two inverse
    functions below are the logarithm of `2 * x`. A sum of logarithms gives it without the product,
    which could overflow. -/
def largeArgument : Float := 268435456.0

/-- The inverse of the hyperbolic sine. -/
def asinh (x : Float) : Float :=
  let a := x.abs
  let i := 1.0 / a
  withSign (if largeArgument < a then a.log + logTwo else log1p (a + a / (hypot 1.0 i + i))) x

/-- The inverse of the hyperbolic cosine; it has no value below 1. It is computed from the distance
    to 1, which is exact, so that no digit is lost there. -/
def acosh (x : Float) : Float :=
  if x < 1.0 then 0.0 / 0.0
  else if largeArgument < x then x.log + logTwo
  else
    let t := x - 1.0
    log1p (t + (t + t + t * t).sqrt)

/-- The inverse of the hyperbolic tangent. -/
def atanh (x : Float) : Float := 0.5 * log1p (2.0 * x / (1.0 - x))

end WasmHost.Elementary
