import Rv32i.Text.Print
import Rv32i.Word

namespace Rv32i

/-- Where memory lies. -/
structure Region where
  base : Word := 0
  size : UInt64 := 0x10000
  deriving DecidableEq, Repr

/-- Why a region cannot be memory. A caller is told of the first two only: `overflow` stands for the
abort of the whole program where base and size are added, after which nothing is answered. -/
inductive RegionError where
  | empty
  | tooLarge (region : Region)
  | overflow
  deriving DecidableEq, Repr

/-- The wording of a refusal, and for the abort what the program leaves behind on standard error. -/
def RegionError.message : RegionError → String
  | empty => "invalid memory region: size is zero"
  | tooLarge r =>
    "invalid memory region: base=" ++ Text.hexWord r.base ++ " size=" ++
      Text.hex 1 r.size.toNat ++ " extends past the 32-bit address space"
  | overflow => "attempt to add with overflow"

/-- A region has at least one byte, and all its addresses have 32 bits. Base and size are added as
64-bit numbers without care for overflow, so an end that takes more bits aborts the program before
it is compared with anything. -/
def Region.check (r : Region) : Except RegionError Unit :=
  if r.size = 0 then .error .empty
  else if UInt64.size ≤ r.base.toNat + r.size.toNat then .error .overflow
  else if UInt32.size < r.base.toNat + r.size.toNat then .error (.tooLarge r)
  else .ok ()

theorem Region.check_eq_ok_iff (r : Region) :
    r.check = .ok () ↔ r.size ≠ 0 ∧ r.base.toNat + r.size.toNat ≤ UInt32.size := by
  unfold check
  split
  · simp_all
  · split
    · simp only [reduceCtorEq, false_iff, UInt32.size, UInt64.size] at *
      omega
    · split
      · simp only [reduceCtorEq, false_iff]
        omega
      · exact ⟨fun _ => ⟨by assumption, by omega⟩, fun _ => rfl⟩

end Rv32i
