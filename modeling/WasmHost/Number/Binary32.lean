set_option autoImplicit false

/-! # Single-precision bit patterns

Single-precision numbers occur only as arguments and results of host functions, where they are
widened to and narrowed from double precision. -/

namespace WasmHost.Binary32

/-- The double-precision pattern of the same number; the conversion is exact. -/
def widen (bits : UInt32) : UInt64 :=
  let sign := (bits.toNat >>> 31) <<< 63
  let exponent := (bits.toNat >>> 23) % 256
  let fraction := bits.toNat % (1 <<< 23)
  let magnitude :=
    if exponent = 255 then (2047 <<< 52) + (fraction <<< 29)
    else if exponent ≠ 0 then ((exponent + 896) <<< 52) + (fraction <<< 29)
    else if fraction = 0 then 0
    else
      let top := fraction.log2
      ((top + 874) <<< 52) + ((fraction - (1 <<< top)) <<< (52 - top))
  (sign + magnitude).toUInt64

/-- The single-precision pattern closest to a double-precision number. -/
def narrow (bits : UInt64) : UInt32 := (Float.ofBits bits).toFloat32.toBits

end WasmHost.Binary32
