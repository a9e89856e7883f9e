import Rv32i.Proofs.ByteMap

namespace Rv32i

theorem littleEndian_digits (count n : Nat) : littleEndian (digits count n) = n % 256 ^ count := by
  induction count generalizing n with
  | zero => rw [pow_zero, Nat.mod_one]; rfl
  | succ count ih =>
    have hb : (UInt8.ofNat n).toNat = n % 256 := by simp
    rw [digits_succ, littleEndian, ih, hb, pow_succ', Nat.mod_mul]

namespace ByteMap

theorem bytes_put (b : ByteMap) (addr : Nat) (bytes : List UInt8) :
    (b.put addr bytes).bytes addr bytes.length = bytes := by
  refine List.ext_getElem (by simp [ByteMap.bytes]) fun i hi hlt => ?_
  simp only [ByteMap.bytes, List.getElem_map, List.getElem_range, put_byte]
  rw [if_pos (by omega), Nat.add_sub_cancel_left, List.getD_eq_getElem _ _ hlt]

theorem bytes_put_of_disjoint (b : ByteMap) {addr addr' count : Nat} {bytes : List UInt8}
    (hd : addr' + count ≤ addr ∨ addr + bytes.length ≤ addr') :
    (b.put addr bytes).bytes addr' count = b.bytes addr' count := by
  refine List.map_congr_left fun i hi => ?_
  have hlt : i < count := List.mem_range.mp hi
  rw [put_byte, if_neg (by omega)]

@[simp] theorem put_nil (b : ByteMap) (addr : Nat) : b.put addr [] = b := by
  refine ByteMap.ext rfl rfl (funext fun a => ?_)
  rw [put_byte, if_neg (by simp only [List.length_nil]; omega)]

/-- Bytes that follow on each other can be put down at once. -/
theorem put_append (b : ByteMap) (addr : Nat) (front back : List UInt8) :
    (b.put addr front).put (addr + front.length) back = b.put addr (front ++ back) := by
  refine ByteMap.ext rfl rfl (funext fun a => ?_)
  simp only [put_byte, List.length_append]
  by_cases hb : addr + front.length ≤ a ∧ a < addr + front.length + back.length
  · have hsub : a - addr - front.length = a - (addr + front.length) := by omega
    rw [if_pos hb, if_pos (by omega), List.getD_append_right _ _ _ _ (by omega), hsub]
  · rw [if_neg hb]
    by_cases hf : addr ≤ a ∧ a < addr + front.length
    · rw [if_pos hf, if_pos (by omega), List.getD_append _ _ _ _ (by omega)]
    · rw [if_neg hf, if_neg (by omega)]

theorem write_eq (b : ByteMap) (addr : Word) (bytes : List UInt8) :
    b.write addr bytes =
      if bytes = [] ∨ b.Within addr.toNat bytes.length then .ok (b.put addr.toNat bytes)
      else .error (.outOfRange addr .byte b.base b.size) := by
  unfold write require
  by_cases he : bytes = []
  · rw [if_pos he, if_pos (.inl he), he, put_nil]
  · by_cases hw : b.Within addr.toNat bytes.length
    · rw [if_neg he, if_pos hw, if_pos (.inr hw)]
    · rw [if_neg he, if_neg hw, if_neg (not_or.mpr ⟨he, hw⟩)]

end ByteMap

/-- Why a region has no word at an address. Alignment is asked for first. -/
def AccessError.ofWord (base : Word) (size : Nat) (addr : Word) : AccessError :=
  if 4 ∣ addr.toNat then .outOfRange addr .word base size else .unaligned addr .word

namespace Memory

/-- The four bytes of an aligned word lie in the region. -/
def HasWord (m : Memory) (addr : Word) : Prop :=
  4 ∣ addr.toNat ∧ m.base.toNat ≤ addr.toNat ∧ addr.toNat + 4 ≤ m.base.toNat + m.size

theorem HasWord.congr {m m' : Memory} {addr : Word} (h : m.HasWord addr)
    (hg : m'.base = m.base ∧ m'.size = m.size) : m'.HasWord addr := by
  unfold HasWord
  rw [hg.1, hg.2]
  exact h

theorem locateAligned_word_iff (m : Memory) (addr : Word) :
    (∃ offset, m.locateAligned addr .word = .ok offset) ↔ m.HasWord addr := by
  rw [locateAligned_eq_require]
  unfold ByteMap.requireAligned ByteMap.require
  constructor
  · rintro ⟨offset, h⟩
    split at h
    · rename_i hdvd
      split at h
      · rename_i hw
        exact ⟨hdvd, (view_within m _ _).mp hw⟩
      · cases h
    · cases h
  · rintro ⟨hdvd, hw⟩
    exact ⟨_, (if_pos hdvd).trans (if_pos ((view_within m _ _).mpr hw))⟩

theorem load_word_iff (m : Memory) (addr : Word) :
    (∃ v, m.load .word addr = .ok v) ↔ m.HasWord addr := by
  rw [← locateAligned_word_iff]
  unfold load
  cases m.locateAligned addr .word <;> simp

theorem store_word_iff (m : Memory) (addr value : Word) :
    (∃ m', m.store .word addr value = .ok m') ↔ m.HasWord addr := by
  rw [← locateAligned_word_iff]
  unfold store
  cases m.locateAligned addr .word <;> simp

theorem load_word_of_not {m : Memory} {addr : Word} (h : ¬ m.HasWord addr) :
    m.load .word addr = .error (.ofWord m.base m.size addr) := by
  have hl : m.locateAligned addr .word = .error (.ofWord m.base m.size addr) := by
    rw [locateAligned_eq_require]
    unfold ByteMap.requireAligned ByteMap.require AccessError.ofWord
    by_cases hd : 4 ∣ addr.toNat
    · have hw : ¬ m.view.Within addr.toNat 4 := fun hw => h ⟨hd, (view_within m _ _).mp hw⟩
      rw [if_pos hd]
      exact (if_pos hd).trans (if_neg hw)
    · rw [if_neg hd]
      exact if_neg hd
  rw [load, hl]

theorem view_of_store {m m' : Memory} {width : Width} {addr value : Word}
    (h : m.store width addr value = .ok m') :
    m'.view = m.view.put addr.toNat (digits width.bytes value.toNat) := by
  have hv := m.view_store width addr value
  rw [h] at hv
  unfold ByteMap.store ByteMap.requireAligned ByteMap.require at hv
  repeat' first | split at hv | cases hv
  exact Except.ok.inj hv

/-- What a change of memory tells that does to the byte map what a write does. -/
theorem view_of_map_view {m m' : Memory} {r : Except AccessError Memory} {addr : Word}
    {bytes : List UInt8} (hv : r.map view = m.view.write addr bytes) (h : r = .ok m') :
    (bytes = [] ∨ m.view.Within addr.toNat bytes.length) ∧
      m'.view = m.view.put addr.toNat bytes := by
  rw [h, ByteMap.write_eq] at hv
  split at hv
  · rename_i hw
    exact ⟨hw, Except.ok.inj hv⟩
  · cases hv

theorem view_of_write {m m' : Memory} {addr : Word} {bytes : List UInt8}
    (h : m.write addr bytes = .ok m') :
    (bytes = [] ∨ m.view.Within addr.toNat bytes.length) ∧
      m'.view = m.view.put addr.toNat bytes :=
  view_of_map_view (m.view_write addr bytes) h

theorem ok_of_map_view {m : Memory} {r : Except AccessError Memory} {addr : Word}
    {bytes : List UInt8} (hv : r.map view = m.view.write addr bytes)
    (hw : bytes = [] ∨ m.view.Within addr.toNat bytes.length) : ∃ m', r = .ok m' := by
  rw [ByteMap.write_eq, if_pos hw] at hv
  cases r with
  | ok m' => exact ⟨m', rfl⟩
  | error e => cases hv

theorem write_of_within {m : Memory} {addr : Word} {bytes : List UInt8}
    (hw : bytes = [] ∨ m.view.Within addr.toNat bytes.length) :
    ∃ m', m.write addr bytes = .ok m' :=
  ok_of_map_view (m.view_write addr bytes) hw

theorem write_of_not_within {m : Memory} {addr : Word} {bytes : List UInt8}
    (hw : ¬ (bytes = [] ∨ m.view.Within addr.toNat bytes.length)) :
    m.write addr bytes = .error (.outOfRange addr .byte m.base m.size) := by
  have hv := m.view_write addr bytes
  rw [ByteMap.write_eq, if_neg hw] at hv
  cases hr : m.write addr bytes with
  | ok m' =>
    rw [hr] at hv
    cases hv
  | error e =>
    rw [hr] at hv
    exact congrArg Except.error (Except.error.inj hv)

theorem view_of_fill {m m' : Memory} {addr : Word} {count : Nat} {value : UInt8}
    (h : m.fill addr count value = .ok m') :
    (List.replicate count value = [] ∨
      m.view.Within addr.toNat (List.replicate count value).length) ∧
      m'.view = m.view.put addr.toNat (List.replicate count value) :=
  view_of_map_view (m.view_fill addr count value) h

theorem toNat_map_inj : ∀ {x y : Except AccessError Word},
    x.map UInt32.toNat = y.map UInt32.toNat → x = y
  | .ok _, .ok _, h => congrArg Except.ok (UInt32.toNat_inj.mp (Except.ok.inj h))
  | .error _, .error _, h => congrArg Except.error (Except.error.inj h)

/-- A store does not reach a number that shares no byte with it, whatever the widths. -/
theorem load_store_of_disjoint {m m' : Memory} {width width' : Width} {addr addr' value : Word}
    (h : m.store width addr value = .ok m')
    (hd : addr'.toNat + width'.bytes ≤ addr.toNat ∨ addr.toNat + width.bytes ≤ addr'.toNat) :
    m'.load width' addr' = m.load width' addr' := by
  apply toNat_map_inj
  rw [view_load, view_load, view_of_store h, ByteMap.load, ByteMap.load,
    ByteMap.bytes_put_of_disjoint _ (by rwa [length_digits])]
  rfl

theorem load_store_word {m m' : Memory} {addr value : Word}
    (h : m.store .word addr value = .ok m') : m'.load .word addr = .ok value := by
  obtain ⟨hdvd, hw⟩ := ((store_word_iff m addr value).mp ⟨m', h⟩).congr (store_geometry h)
  have hlt : value.toNat < 256 ^ 4 := value.toNat_lt
  have hbytes : m'.view.bytes addr.toNat 4 = digits 4 value.toNat := by
    have hput := m.view.bytes_put addr.toNat (digits 4 value.toNat)
    rw [length_digits] at hput
    rw [view_of_store h]
    exact hput
  apply toNat_map_inj
  calc (m'.load .word addr).map UInt32.toNat
      = m'.view.load .word addr := m'.view_load .word addr
    _ = .ok (littleEndian (m'.view.bytes addr.toNat 4)) :=
        (if_pos hdvd).trans (if_pos ((view_within m' _ _).mpr hw))
    _ = .ok value.toNat := by rw [hbytes, littleEndian_digits, Nat.mod_eq_of_lt hlt]

/-- Words are cells of their own: a word that is stored changes no other word. -/
theorem load_word_store_word {m m' : Memory} {addr value : Word} (b : Word)
    (h : m.store .word addr value = .ok m') (hb : m.HasWord b) :
    m'.load .word b = if b = addr then .ok value else m.load .word b := by
  split
  · rename_i he
    rw [he]
    exact load_store_word h
  · rename_i hne
    have ha := (store_word_iff m addr value).mp ⟨m', h⟩
    have hn : b.toNat ≠ addr.toNat := fun he => hne (UInt32.toNat_inj.mp he)
    obtain ⟨p, hp⟩ := ha.1
    obtain ⟨q, hq⟩ := hb.1
    refine load_store_of_disjoint h ?_
    simp only [Width.bytes]
    omega

theorem byte_store_of_outside {m m' : Memory} {width : Width} {addr value : Word} {a : Nat}
    (h : m.store width addr value = .ok m') (ha : a < addr.toNat ∨ addr.toNat + width.bytes ≤ a) :
    m'.view.byte a = m.view.byte a := by
  rw [view_of_store h, ByteMap.put_byte, length_digits, if_neg (by omega)]

end Memory
end Rv32i
