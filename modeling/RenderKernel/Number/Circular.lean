import RenderKernel.Number.Arithmetic

/-!
# Sine and cosine

The sine and the cosine of the two formats are those of the machine, taken on bit patterns.
-/

namespace RenderKernel

/-- The number that the machine has for a pattern of 64 bits. -/
def Binary.toFloat (x : Binary .double) : Float := Float.ofBits (UInt64.ofNat x.toBits)

/-- The number that the machine has for a pattern of 32 bits. -/
def Binary.toFloat32 (x : Binary .single) : Float32 := Float32.ofBits (UInt32.ofNat x.toBits)

instance : Circular (Binary .double) where
  sin x := Binary.ofBits x.toFloat.sin.toBits.toNat
  cos x := Binary.ofBits x.toFloat.cos.toBits.toNat

instance : Circular (Binary .single) where
  sin x := Binary.ofBits x.toFloat32.sin.toBits.toNat
  cos x := Binary.ofBits x.toFloat32.cos.toBits.toNat

end RenderKernel
