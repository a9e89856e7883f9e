import Rv32i.Proofs.Placement

namespace Rv32i

namespace Elf

/-- The end of a segment in memory as a range of addresses counts it: with 32 bits, and without
what its part of the file has more than `memSize`. -/
def Segment.stop (s : Segment) : Word :=
  s.vaddr + UInt32.ofNat s.memSize

theorem Segment.toNat_stop {s : Segment} (hs : s.Sized) :
    s.stop.toNat = (s.vaddr.toNat + s.memSize) % 2 ^ 32 := by
  rw [stop, UInt32.toNat_add, UInt32.toNat_ofNat', Nat.mod_eq_of_lt hs.memSize_lt]

theorem Image.addressRange?_eq_some_iff (i : Image) (lo hi : Word) :
    i.addressRange? = some (lo, hi) ↔
      (i.segments.map Segment.vaddr).min? = some lo ∧
        (i.segments.map Segment.stop).max? = some hi := by
  unfold addressRange?
  cases i.segments with
  | nil => simp
  | cons s rest =>
    rw [List.map_cons, List.map_cons, List.min?_cons', List.max?_cons', List.foldl_map,
      List.foldl_map, Option.some_inj, Option.some_inj, Option.some_inj, Prod.mk.injEq]
    rfl

/-- The range goes from the lowest start to the highest end. -/
theorem Image.exists_addressRange? {i : Image} {s : Segment} (hs : s ∈ i.segments) :
    ∃ lo hi, i.addressRange? = some (lo, hi) ∧ (∀ t ∈ i.segments, lo ≤ t.vaddr ∧ t.stop ≤ hi) ∧
      ∃ t ∈ i.segments, t.stop = hi := by
  have hmin : (i.segments.map Segment.vaddr).min? ≠ none := by
    rw [ne_eq, List.min?_eq_none_iff, List.map_eq_nil_iff]
    exact List.ne_nil_of_mem hs
  have hmax : (i.segments.map Segment.stop).max? ≠ none := by
    rw [ne_eq, List.max?_eq_none_iff, List.map_eq_nil_iff]
    exact List.ne_nil_of_mem hs
  obtain ⟨lo, hlo⟩ := Option.ne_none_iff_exists'.mp hmin
  obtain ⟨hi, hhi⟩ := Option.ne_none_iff_exists'.mp hmax
  refine ⟨lo, hi, (addressRange?_eq_some_iff i lo hi).mpr ⟨hlo, hhi⟩, fun t ht => ?_, ?_⟩
  · exact ⟨(List.min?_eq_some_iff.mp hlo).2 _ (List.mem_map_of_mem ht),
      (List.max?_eq_some_iff.mp hhi).2 _ (List.mem_map_of_mem ht)⟩
  · exact List.mem_map.mp (List.max?_eq_some_iff.mp hhi).1

/-- For each segment with bytes some end, taken by the size in memory, is at or behind its own and
still an address. -/
def Image.EndsKnown (i : Image) : Prop :=
  ∀ s ∈ i.segments, 0 < s.extent → ∃ t ∈ i.segments,
    s.vaddr.toNat + s.extent ≤ t.vaddr.toNat + t.memSize ∧ t.vaddr.toNat + t.memSize < 2 ^ 32

def Image.InRange (i : Image) (a : Word) : Prop :=
  ∃ lo hi, i.addressRange? = some (lo, hi) ∧ lo ≤ a ∧ a < hi

/-- An address is in the range if a segment starts at or before it and the end of one, as long as
that end has 32 bits, lies behind it. -/
theorem Image.inRange_of_lt {i : Image} {s t : Segment} (hs : s ∈ i.segments)
    (ht : t ∈ i.segments) (hsized : t.Sized) {a : Word} (hl : s.vaddr.toNat ≤ a.toNat)
    (hu : a.toNat < t.vaddr.toNat + t.memSize) (htop : t.vaddr.toNat + t.memSize < 2 ^ 32) :
    i.InRange a := by
  obtain ⟨lo, hi, hrange, hbounds, _⟩ := exists_addressRange? hs
  refine ⟨lo, hi, hrange, ?_, ?_⟩
  · have hlo := (hbounds s hs).1
    rw [UInt32.le_iff_toNat_le] at hlo ⊢
    exact Nat.le_trans hlo hl
  · have hhi := (hbounds t ht).2
    rw [UInt32.le_iff_toNat_le, Segment.toNat_stop hsized, Nat.mod_eq_of_lt htop] at hhi
    rw [UInt32.lt_iff_toNat_lt]
    exact Nat.lt_of_lt_of_le hu hhi

end Elf

namespace ByteMap
open Elf

/-- What a segment brings to an address does not depend on what was there. -/
theorem deposit_byte_eq {b c : ByteMap} {s : Segment} (hs : s.Sized) {a : Nat} (ha : a < 2 ^ 32)
    (h : b.byte a = c.byte a ∨ s.Covers a) : (b.deposit s).byte a = (c.deposit s).byte a := by
  unfold deposit
  rw [put_byte, put_byte, put_byte, put_byte, List.length_replicate, s.toNat_zerosAt hs]
  by_cases hzeros : (s.vaddr.toNat + s.fileSize) % 2 ^ 32 ≤ a ∧
      a < (s.vaddr.toNat + s.fileSize) % 2 ^ 32 + (s.memSize - s.fileSize)
  · rw [if_pos hzeros, if_pos hzeros]
  · rw [if_neg hzeros, if_neg hzeros]
    by_cases hfile : s.vaddr.toNat ≤ a ∧ a < s.vaddr.toNat + s.data.length
    · rw [if_pos hfile, if_pos hfile]
    · rw [if_neg hfile, if_neg hfile]
      refine h.resolve_right fun hcovers => ?_
      -- behind the file part there is room for an address only where its end does not wrap
      have hlen := hs.length_data
      obtain ⟨hl, hu⟩ := hcovers
      have hend : (s.vaddr.toNat + s.fileSize) % 2 ^ 32 = s.vaddr.toNat + s.fileSize :=
        Nat.mod_eq_of_lt (by omega)
      rw [hend] at hzeros
      omega

theorem foldl_deposit_byte_eq {b c : ByteMap} {ss : List Segment} (hs : ∀ s ∈ ss, s.Sized)
    {a : Nat} (ha : a < 2 ^ 32) (h : b.byte a = c.byte a ∨ ∃ s ∈ ss, s.Covers a) :
    (ss.foldl deposit b).byte a = (ss.foldl deposit c).byte a := by
  induction ss generalizing b c with
  | nil => exact h.resolve_right (by simp)
  | cons s rest ih =>
    obtain ⟨hsized, hrest⟩ := List.forall_mem_cons.mp hs
    refine ih hrest ?_
    rcases h with heq | ⟨t, ht, hcovers⟩
    · exact .inl (deposit_byte_eq hsized ha (.inl heq))
    · rcases List.mem_cons.mp ht with rfl | ht
      · exact .inl (deposit_byte_eq hsized ha (.inr hcovers))
      · exact .inr ⟨t, ht, hcovers⟩

end ByteMap

namespace Load
open Elf Memory

theorem segments_deposit {r : Region} {m m' : Memory} (hm : m.Occupies r) {ss : List Segment}
    (h : segments m ss = (.ok (), m')) : m'.view = ss.foldl ByteMap.deposit m.view := by
  induction ss generalizing m with
  | nil =>
    cases h
    rfl
  | cons s rest ih =>
    have hplaced := placed hm s
    unfold segments at h
    split at h
    · rename_i m₁ hseg
      rw [hseg] at hplaced
      rw [ih (hplaced.occupies hm) h]
      cases hplaced with
      | complete _ hfile hzeros hview => rw [hview, List.foldl_cons]
    · cases h

end Load

/-- The memory of a region with the same byte everywhere. -/
def Memory.filled (r : Region) (value : UInt8) : Memory :=
  ⟨r.base, r.size, .flat value⟩

theorem Memory.filled_byte {r : Region} {value : UInt8} {a : Nat} (hl : r.base.toNat ≤ a)
    (hu : a < r.base.toNat + r.size.toNat) : (filled r value).view.byte a = value :=
  (view_byte hl hu).trans (Cells.get_flat _ _ _)

namespace Load
open Elf Memory

/-- A byte that a segment brings makes a difference in one memory at least. -/
theorem exists_changed {r : Region} (hr : r.Valid) {ss : List Segment} (hs : ∀ s ∈ ss, s.Sized)
    (hfits : ∀ s ∈ ss, r.Contains s ∨ r.Whole ∧ s.GoesRound) {s : Segment} (hmem : s ∈ ss)
    {a : Nat} (ha : a < 2 ^ 32) (hcovers : s.Covers a) :
    ∃ m m', m.Occupies r ∧ segments m ss = (.ok (), m') ∧ m'.view.byte a ≠ m.view.byte a := by
  have hin : r.base.toNat ≤ a ∧ a < r.base.toNat + r.size.toNat := by
    unfold Segment.Covers at hcovers
    rcases hfits s hmem with hc | ⟨hwhole, _⟩
    · unfold Region.Contains Region.Holds Segment.extent at hc
      omega
    · rw [hwhole.1, hwhole.2]
      exact ⟨Nat.zero_le a, Nat.lt_of_lt_of_le ha (Nat.le_add_left _ _)⟩
  -- two memories that differ at the address before, and agree there afterwards
  have h₀ : (filled r 0).Occupies r := ⟨rfl, rfl⟩
  have h₁ : (filled r 1).Occupies r := ⟨rfl, rfl⟩
  obtain ⟨m₀, hok₀⟩ := (segments_ok_iff hr h₀ hs).mpr hfits
  obtain ⟨m₁, hok₁⟩ := (segments_ok_iff hr h₁ hs).mpr hfits
  have hsame : m₀.view.byte a = m₁.view.byte a := by
    rw [segments_deposit h₀ hok₀, segments_deposit h₁ hok₁]
    exact ByteMap.foldl_deposit_byte_eq hs ha (.inr ⟨s, hmem, hcovers⟩)
  by_cases hchanged : m₀.view.byte a = (filled r 0).view.byte a
  · refine ⟨filled r 1, m₁, h₁, hok₁, ?_⟩
    rw [← hsame, hchanged, filled_byte hin.1 hin.2, filled_byte hin.1 hin.2]
    decide
  · exact ⟨filled r 0, m₀, h₀, hok₀, hchanged⟩

/-- Every byte that loading an image into the region changes is in the range. -/
def RangeHolds (r : Region) (i : Image) : Prop :=
  ∀ m m', m.Occupies r → segments m i.segments = (.ok (), m') →
    ∀ a : Word, m'.view.byte a.toNat ≠ m.view.byte a.toNat → i.InRange a

section
variable {r : Region} {i : Image} {s : Segment}

/-- Then the end of each segment is at or before an end that the range knows of. -/
theorem RangeHolds.exists_stop (hrange : RangeHolds r i) (hr : r.Valid)
    (hsized : ∀ s ∈ i.segments, s.Sized)
    (hfits : ∀ s ∈ i.segments, r.Contains s ∨ r.Whole ∧ s.GoesRound) (hs : s ∈ i.segments)
    (hpos : 0 < s.extent) : ∃ t ∈ i.segments, s.vaddr.toNat + s.extent ≤ t.stop.toNat := by
  have hv : s.vaddr.toNat < 2 ^ 32 := s.vaddr.toNat_lt
  -- the last address that the segment has
  obtain ⟨a, ha⟩ : ∃ a : Word, a.toNat = min (s.vaddr.toNat + s.extent) (2 ^ 32) - 1 :=
    ⟨UInt32.ofNat (min (s.vaddr.toNat + s.extent) (2 ^ 32) - 1), by
      rw [UInt32.toNat_ofNat', Nat.mod_eq_of_lt (by omega)]⟩
  have hcovers : s.Covers a.toNat := by
    change s.vaddr.toNat ≤ a.toNat ∧ a.toNat < s.vaddr.toNat + s.extent
    omega
  obtain ⟨m, m', hm, hok, hchanged⟩ := exists_changed hr hsized hfits hs a.toNat_lt hcovers
  obtain ⟨lo, hi, hsome, _, hlt⟩ := hrange m m' hm hok a hchanged
  obtain ⟨lo', hi', hsome', _, t, ht, hstop⟩ := i.exists_addressRange? hs
  cases hsome.symm.trans hsome'
  refine ⟨t, ht, ?_⟩
  have hhi : hi.toNat < 2 ^ 32 := hi.toNat_lt
  rw [UInt32.lt_iff_toNat_lt] at hlt
  rw [hstop]
  omega

theorem RangeHolds.endsKnown (hrange : RangeHolds r i) (hr : r.Valid)
    (hsized : ∀ s ∈ i.segments, s.Sized)
    (hfits : ∀ s ∈ i.segments, r.Contains s ∨ r.Whole ∧ s.GoesRound) : i.EndsKnown := by
  intro s hs hpos
  obtain ⟨t, ht, hle⟩ := hrange.exists_stop hr hsized hfits hs hpos
  have htop : t.vaddr.toNat + t.memSize < 2 ^ 32 := by
    by_cases hzero : t.extent = 0
    · have hv : t.vaddr.toNat < 2 ^ 32 := t.vaddr.toNat_lt
      unfold Segment.extent at hzero
      omega
    · -- what was shown of `s` holds of `t` too, and ends in the range have 32 bits
      obtain ⟨u, _, hle'⟩ := hrange.exists_stop hr hsized hfits ht (Nat.pos_of_ne_zero hzero)
      have hu : u.stop.toNat < 2 ^ 32 := u.stop.toNat_lt
      unfold Segment.extent at hle'
      omega
  rw [Segment.toNat_stop (hsized t ht), Nat.mod_eq_of_lt htop] at hle
  exact ⟨t, ht, hle, htop⟩

theorem inRange_of_endsKnown (hsized : ∀ s ∈ i.segments, s.Sized) (hends : i.EndsKnown)
    (hs : s ∈ i.segments) {a : Word} (hreach : r.Reached s a.toNat) : i.InRange a := by
  have hext : s.memSize ≤ s.extent := Nat.le_max_right _ _
  rcases hreach with ⟨hl, hu⟩ | ⟨_, ⟨htop, hlt⟩, _⟩
  · have hpos : 0 < s.extent := by
      change _ < s.vaddr.toNat + s.extent at hu
      omega
    obtain ⟨t, ht, hle, htop⟩ := hends s hs hpos
    exact i.inRange_of_lt hs ht (hsized t ht) hl (Nat.lt_of_lt_of_le hu hle) htop
  · -- zeros that go round end behind the last address, and no known end lies there
    obtain ⟨t, _, hle, htop'⟩ := hends s hs (by omega)
    omega

/-- A segment that has room in memory for its part of the file and ends before the last address is
in the range as a whole. -/
theorem inRange_of_regular (hsized : ∀ s ∈ i.segments, s.Sized) (hs : s ∈ i.segments) {a : Word}
    (hreach : r.Reached s a.toNat)
    (hregular : ¬ (s.memSize < s.fileSize ∨ 2 ^ 32 ≤ s.vaddr.toNat + s.memSize)) :
    i.InRange a := by
  rcases hreach with ⟨hl, hu⟩ | ⟨_, ⟨htop, hlt⟩, _⟩
  · exact i.inRange_of_lt hs hs (hsized s hs) hl (by omega) (by omega)
  · omega

end

/-- The range of an image against what loading it changes. A byte outside of the range belongs to a
segment with more bytes in the file than in memory, or to one that goes up to the last address or
beyond. The range holds every byte that loading changes, whatever was there before, if and only if
for each segment some end, taken by the size in memory, is at or behind its own and still an
address. -/
theorem range_covers_changes_iff {r : Region} (hr : r.check = .ok ()) {file : List UInt8}
    {i : Image} (hi : Image.read file = .ok i) {m₀ : Memory} (hm₀ : m₀.Occupies r)
    {loaded₀ : Loaded} (hl₀ : (image m₀ i).1 = .ok loaded₀) :
    (∀ m : Memory, m.Occupies r → ∀ loaded, (image m i).1 = .ok loaded → ∀ a : Word,
      (image m i).2.view.byte a.toNat ≠ m.view.byte a.toNat →
        ∃ lo hi, i.addressRange? = some (lo, hi) ∧ (lo ≤ a ∧ a < hi ∨
          ∃ s ∈ i.segments, r.Reached s a.toNat ∧
            (s.memSize < s.fileSize ∨ 2 ^ 32 ≤ s.vaddr.toNat + s.memSize))) ∧
    ((∀ m : Memory, m.Occupies r → ∀ loaded, (image m i).1 = .ok loaded → ∀ a : Word,
      (image m i).2.view.byte a.toNat ≠ m.view.byte a.toNat →
        ∃ lo hi, i.addressRange? = some (lo, hi) ∧ lo ≤ a ∧ a < hi) ↔
      ∀ s ∈ i.segments, 0 < s.extent → ∃ t ∈ i.segments,
        s.vaddr.toNat + s.extent ≤ t.vaddr.toNat + t.memSize ∧
          t.vaddr.toNat + t.memSize < 2 ^ 32) := by
  have hvalid : r.Valid := (Region.check_eq_ok_iff r).mp hr
  have hsized : ∀ s ∈ i.segments, s.Sized := Image.sized_of_read hi
  have hreached : ∀ m : Memory, m.Occupies r → ∀ a,
      (image m i).2.view.byte a ≠ m.view.byte a → ∃ s ∈ i.segments, r.Reached s a := by
    intro m hm a ha
    rw [image_snd] at ha
    exact segments_reached hvalid hm hsized ha
  refine ⟨fun m hm _ _ a ha => ?_, fun hall => ?_, fun hends m hm _ _ a ha => ?_⟩
  · obtain ⟨s, hs, hreach⟩ := hreached m hm _ ha
    by_cases hirregular : s.memSize < s.fileSize ∨ 2 ^ 32 ≤ s.vaddr.toNat + s.memSize
    · obtain ⟨lo, hi, hrange, _⟩ := i.exists_addressRange? hs
      exact ⟨lo, hi, hrange, .inr ⟨s, hs, hreach, hirregular⟩⟩
    · obtain ⟨lo, hi, hrange, hin⟩ := inRange_of_regular hsized hs hreach hirregular
      exact ⟨lo, hi, hrange, .inl hin⟩
  · have hfits := (segments_ok_iff hvalid hm₀ hsized).mp ((image_ok_iff m₀ i).mp ⟨_, hl₀⟩)
    have hrange : RangeHolds r i := by
      intro m m' hm hok a ha
      obtain ⟨loaded, hloaded⟩ := (image_ok_iff m i).mpr ⟨m', hok⟩
      refine hall m hm loaded hloaded a ?_
      rwa [image_snd, hok]
    exact hrange.endsKnown hvalid hsized hfits
  · obtain ⟨s, hs, hreach⟩ := hreached m hm _ ha
    exact inRange_of_endsKnown hsized hends hs hreach

/-- A segment with more bytes in the file than in memory, and zeros of another one behind it: the
range goes on up to the end of these. -/
theorem range_covers_changes_iff_zeros :
    let file := encode 0x100 [⟨1, 0, 0x100, 0, [1, 2, 3, 4, 5, 6, 7, 8], 4, 6, 4⟩,
      ⟨1, 0, 0x106, 0, [], 8, 6, 4⟩]
    let i : Image := ⟨0x100, [⟨0x100, 8, 4, [1, 2, 3, 4, 5, 6, 7, 8], false, true⟩,
      ⟨0x106, 0, 8, [], false, true⟩], []⟩
    Image.read file = .ok i ∧ i.addressRange? = some (0x100, 0x10E) ∧
      ∀ m : Memory, m.Occupies ⟨0, 0x200⟩ → ∀ loaded, (image m i).1 = .ok loaded → ∀ a : Word,
        (image m i).2.view.byte a.toNat ≠ m.view.byte a.toNat → 0x100 ≤ a ∧ a < 0x10E := by
  intro file i
  have hr : Region.check ⟨0, 0x200⟩ = .ok () := by decide
  have hread : Image.read file = .ok i := by decide +kernel
  have hrange : i.addressRange? = some (0x100, 0x10E) := by decide
  have hloaded : (image (.empty 0 0x200) i).1 = .ok ⟨0x100, 12, none, none⟩ := by decide +kernel
  have hempty : (Memory.empty 0 0x200).Occupies ⟨0, 0x200⟩ := ⟨rfl, rfl⟩
  refine ⟨hread, hrange, fun m hm loaded hl a ha => ?_⟩
  obtain ⟨_, hiff⟩ := range_covers_changes_iff hr hread hempty hloaded
  obtain ⟨lo, hi, hsome, hin⟩ := hiff.mpr (by decide) m hm loaded hl a ha
  cases hrange.symm.trans hsome
  exact hin

/-- Of two segments the range has only the first one, since the second one goes up to the last
address. -/
theorem range_misses_last_segment :
    let file := encode 0xFFFFFFF0 [⟨1, 0, 0xFFFFFFF0, 0, [1, 2, 3, 4], 4, 6, 4⟩,
      ⟨1, 0, 0xFFFFFFFC, 0, [5, 6, 7, 8], 4, 6, 4⟩]
    let i : Image := ⟨0xFFFFFFF0, [⟨0xFFFFFFF0, 4, 4, [1, 2, 3, 4], false, true⟩,
      ⟨0xFFFFFFFC, 4, 4, [5, 6, 7, 8], false, true⟩], []⟩
    let r : Region := ⟨0xFFFFFFF0, 16⟩
    let m := Memory.empty 0xFFFFFFF0 16
    r.check = .ok () ∧ m.Occupies r ∧ Image.read file = .ok i ∧
      (∃ loaded, (image m i).1 = .ok loaded) ∧
      (image m i).2.view.byte 0xFFFFFFFC ≠ m.view.byte 0xFFFFFFFC ∧
      i.addressRange? = some (0xFFFFFFF0, 0xFFFFFFF4) ∧
      ¬ (0xFFFFFFFC : Word) < 0xFFFFFFF4 := by
  intro file i r m
  have hloaded : (image m i).1 = .ok ⟨0xFFFFFFF0, 8, none, none⟩ := by decide +kernel
  exact ⟨by decide, ⟨rfl, rfl⟩, by decide +kernel, ⟨_, hloaded⟩, by decide +kernel, by decide,
    by decide⟩

end Load
end Rv32i
