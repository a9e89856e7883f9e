namespace Rv32i

/-- The bytes of cells as a binary tree over the `depth` bits of their index, the highest bit at the
root. A leaf stands for cells that all hold one byte, so a region that is mostly empty takes
little room and a long fill few steps. -/
inductive Cells where
  | flat (value : UInt8)
  | split (low high : Cells)
  deriving DecidableEq

namespace Cells

/-- How many cells an index of `depth` bits tells apart. -/
def capacity : Nat → Nat
  | 0 => 1
  | depth + 1 => 2 * capacity depth

/-- The cells whose top index bit is 0. -/
def low : Cells → Cells
  | flat v => flat v
  | split l _ => l

/-- The cells whose top index bit is 1. -/
def high : Cells → Cells
  | flat v => flat v
  | split _ h => h

/-- The byte in cell `i`; bits of `i` from `depth` on do not count. -/
def get : Nat → Cells → Nat → UInt8
  | _, flat v, _ => v
  | 0, split _ _, _ => 0
  | depth + 1, split l h, i => if i.testBit depth then get depth h i else get depth l i

/-- Puts `v` into cell `i`. -/
def set : Nat → Cells → Nat → UInt8 → Cells
  | 0, _, _, v => flat v
  | depth + 1, t, i, v =>
    if i.testBit depth then split t.low (set depth t.high i v)
    else split (set depth t.low i v) t.high

/-- Puts `v` into the cells from `start` up to and without `stop`. -/
def fill : Nat → Cells → Nat → Nat → UInt8 → Cells
  | 0, t, start, stop, v => if start = 0 ∧ 0 < stop then flat v else t
  | depth + 1, t, start, stop, v =>
    if stop ≤ start ∨ capacity (depth + 1) ≤ start then t
    else if start = 0 ∧ capacity (depth + 1) ≤ stop then flat v
    else split (fill depth t.low start stop v)
      (fill depth t.high (start - capacity depth) (stop - capacity depth) v)

/-- Puts the bytes of a list into the cells from `start` on. -/
def write (depth : Nat) : Cells → Nat → List UInt8 → Cells
  | t, _, [] => t
  | t, start, b :: bytes => write depth (set depth t start b) (start + 1) bytes

/-- The bytes of `count` cells from `start` on. -/
def read (depth : Nat) (t : Cells) : Nat → Nat → List UInt8
  | _, 0 => []
  | start, count + 1 => get depth t start :: read depth t (start + 1) count

@[simp] theorem low_split (l h : Cells) : (split l h).low = l := rfl

@[simp] theorem high_split (l h : Cells) : (split l h).high = h := rfl

@[simp] theorem get_flat (depth : Nat) (v : UInt8) (i : Nat) : get depth (flat v) i = v := by
  cases depth <;> rfl

theorem get_succ (depth : Nat) (t : Cells) (i : Nat) :
    get (depth + 1) t i = if i.testBit depth then get depth t.high i else get depth t.low i := by
  cases t with
  | flat v => simp [low, high]
  | split l h => rfl

theorem capacity_eq_pow (depth : Nat) : capacity depth = Nat.pow 2 depth := by
  induction depth with
  | zero => rfl
  | succ depth ih => rw [capacity, ih, Nat.mul_comm]; rfl

theorem testBit_mod_capacity (i depth k : Nat) :
    (i % capacity depth).testBit k = (decide (k < depth) && i.testBit k) := by
  rw [capacity_eq_pow]
  exact Nat.testBit_mod_two_pow i depth k

/-- The top bit tells the upper half of the cells from the lower half. -/
theorem testBit_iff_capacity_le {depth i : Nat} (hi : i < capacity (depth + 1)) :
    i.testBit depth = true ↔ capacity depth ≤ i := by
  rw [capacity] at hi
  rw [capacity_eq_pow] at hi ⊢
  constructor
  · exact Nat.ge_two_pow_of_testBit
  · intro h
    have hb := Nat.testBit_two_pow_add_eq (i - Nat.pow 2 depth) depth
    have hs : (i - Nat.pow 2 depth).testBit depth = false :=
      Nat.testBit_lt_two_pow (show i - Nat.pow 2 depth < Nat.pow 2 depth by omega)
    rw [hs] at hb
    have he : Nat.pow 2 depth + (i - Nat.pow 2 depth) = i := Nat.add_sub_of_le h
    exact he ▸ hb

/-- The bits of an index that count are those that its remainder keeps. -/
theorem mod_capacity_succ_eq_iff (depth i j : Nat) :
    i % capacity (depth + 1) = j % capacity (depth + 1) ↔
      i.testBit depth = j.testBit depth ∧ i % capacity depth = j % capacity depth := by
  constructor
  · intro h
    constructor
    · have := congrArg (fun n => n.testBit depth) h
      simpa [testBit_mod_capacity] using this
    · apply Nat.eq_of_testBit_eq
      intro k
      have hk := congrArg (fun n => n.testBit k) h
      simp only [testBit_mod_capacity] at hk ⊢
      by_cases hlt : k < depth
      · simpa [hlt, show k < depth + 1 by omega] using hk
      · simp [hlt]
  · rintro ⟨hb, hm⟩
    apply Nat.eq_of_testBit_eq
    intro k
    have hk := congrArg (fun n => n.testBit k) hm
    simp only [testBit_mod_capacity] at hk ⊢
    by_cases he : k = depth
    · subst he; simp [hb]
    · by_cases hlt : k < depth
      · simpa [hlt, show k < depth + 1 by omega] using hk
      · simp [show ¬ k < depth + 1 by omega]

/-- Only the low `depth` bits of the index count. -/
theorem get_congr {depth i j : Nat} (t : Cells) (h : i % capacity depth = j % capacity depth) :
    get depth t i = get depth t j := by
  induction depth generalizing t with
  | zero => cases t <;> rfl
  | succ depth ih =>
    obtain ⟨hb, hm⟩ := (mod_capacity_succ_eq_iff depth i j).1 h
    rw [get_succ, get_succ, hb, ih t.high hm, ih t.low hm]

/-- A cell holds what was last put into it, and the other cells what they held before. -/
theorem get_set (depth : Nat) (t : Cells) (i j : Nat) (v : UInt8) :
    get depth (set depth t i v) j =
      if i % capacity depth = j % capacity depth then v else get depth t j := by
  induction depth generalizing t with
  | zero => simp [set, capacity, Nat.mod_one]
  | succ depth ih =>
    rw [set]
    simp only [mod_capacity_succ_eq_iff]
    cases hi : i.testBit depth <;> cases hj : j.testBit depth <;>
      simp [get_succ, hj, ih]

/-- A fill reaches exactly the cells of its range. -/
theorem get_fill (depth : Nat) (t : Cells) (start stop i : Nat) (v : UInt8)
    (hi : i < capacity depth) :
    get depth (fill depth t start stop v) i =
      if start ≤ i ∧ i < stop then v else get depth t i := by
  induction depth generalizing t start stop i with
  | zero =>
    have : i = 0 := by simpa [capacity] using hi
    subst this
    rw [fill]
    split <;> rename_i h
    · simp [h]
    · rw [if_neg (by omega)]
  | succ depth ih =>
    have htop := testBit_iff_capacity_le hi
    rw [fill]
    rw [capacity] at hi ⊢
    split
    · rename_i h
      rw [if_neg (by omega)]
    · split
      · rename_i h
        rw [get_flat, if_pos (by omega)]
      · rw [get_succ, get_succ]
        cases hb : i.testBit depth with
        | true =>
          have hge : capacity depth ≤ i := htop.1 hb
          have hm : i % capacity depth = (i - capacity depth) % capacity depth := by
            rw [Nat.mod_eq_sub_mod hge]
          simp only [if_true, high_split]
          rw [get_congr _ hm, ih _ _ _ _ (by omega), get_congr t.high hm.symm]
          congr 1
          simp only [eq_iff_iff]
          omega
        | false =>
          have hlt : i < capacity depth := by
            rcases Nat.lt_or_ge i (capacity depth) with h | h
            · exact h
            · rw [htop.2 h] at hb
              cases hb
          simp only [Bool.false_eq_true, if_false, low_split]
          rw [ih _ _ _ _ hlt]

end Cells
end Rv32i
