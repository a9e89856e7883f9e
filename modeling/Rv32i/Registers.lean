import Rv32i.Word

namespace Rv32i

/-- The 32 integer registers. -/
structure Registers where
  values : Vector Word 32
  deriving DecidableEq

namespace Registers

def zero : Registers :=
  ⟨Vector.replicate 32 0⟩

/-- Only the low five bits of a register number count. -/
def index (r : UInt8) : Fin 32 :=
  ⟨r.toNat % 32, Nat.mod_lt _ (by decide)⟩

def read (x : Registers) (r : UInt8) : Word :=
  x.values[index r]

/-- Writes to register 0 are dropped. -/
def write (x : Registers) (r : UInt8) (value : Word) : Registers :=
  if index r = 0 then x else ⟨x.values.set (index r) value⟩

def toList (x : Registers) : List Word :=
  x.values.toList

/-- The names that the calling convention gives to the registers, in order. -/
def abiNames : List String :=
  ["zero", "ra", "sp", "gp", "tp", "t0", "t1", "t2", "s0", "s1", "a0", "a1", "a2", "a3", "a4",
   "a5", "a6", "a7", "s2", "s3", "s4", "s5", "s6", "s7", "s8", "s9", "s10", "s11", "t3", "t4",
   "t5", "t6"]

/-- A register holds what was last written to it, unless it is register 0. -/
theorem read_write (x : Registers) (r s : UInt8) (v : Word) :
    (x.write r v).read s = if index r = index s ∧ index r ≠ 0 then v else x.read s := by
  unfold write read
  by_cases h0 : index r = 0
  · simp [h0]
  · by_cases h : index r = index s
    · simp [h, show index s ≠ 0 from h ▸ h0]
    · have hv : (index r).val ≠ (index s).val := fun e => h (Fin.ext e)
      simp [h0, h, hv]

@[simp] theorem read_zero (r : UInt8) : zero.read r = 0 := by
  simp [zero, read]

end Registers
end Rv32i
