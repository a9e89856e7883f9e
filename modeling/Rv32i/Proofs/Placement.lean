import Rv32i.Proofs.ImageFile
import Rv32i.Proofs.Segments

namespace Rv32i

namespace Elf.Segment

/-- How many addresses a segment takes. -/
def extent (s : Segment) : Nat :=
  max s.fileSize s.memSize

/-- Where the zeros of a segment start. The sum has 32 bits. -/
def zerosAt (s : Segment) : Word :=
  s.vaddr + UInt32.ofNat s.fileSize

/-- The part of the file ends with the last of all addresses, and there are zeros to come. -/
def GoesRound (s : Segment) : Prop :=
  s.vaddr.toNat + s.fileSize = 2 ^ 32 ∧ s.fileSize < s.memSize

theorem toNat_zerosAt {s : Segment} (hs : s.Sized) :
    s.zerosAt.toNat = (s.vaddr.toNat + s.fileSize) % 2 ^ 32 := by
  rw [zerosAt, UInt32.toNat_add, UInt32.toNat_ofNat', Nat.mod_eq_of_lt hs.fileSize_lt]

end Elf.Segment

namespace Region
open Elf

/-- The region of all addresses. -/
def Whole (r : Region) : Prop :=
  r.base = 0 ∧ r.size.toNat = 2 ^ 32

/-- All addresses of a segment lie in the region, or it has none. -/
def Contains (r : Region) (s : Segment) : Prop :=
  s.extent = 0 ∨ r.Holds s.vaddr s.extent

/-- The region has room for the file part of a segment. -/
def TakesFile (r : Region) (s : Segment) : Prop :=
  s.data = [] ∨ r.Holds s.vaddr s.data.length

/-- The region has room for the zeros of a segment, where these are put. -/
def TakesZeros (r : Region) (s : Segment) : Prop :=
  s.memSize ≤ s.fileSize ∨ r.Holds s.zerosAt (s.memSize - s.fileSize)

/-- Addresses to which a segment brings bytes. Zeros behind the last address are put down from the
first one on, for which only the region of all addresses has room. -/
def Reached (r : Region) (s : Segment) (a : Nat) : Prop :=
  s.Covers a ∨ r.Whole ∧ s.GoesRound ∧ a < s.memSize - s.fileSize

/-- With one exception the two tests say that the segment lies in the region: in the region of all
addresses zeros may go on behind the last address from the first one on. -/
theorem takes_iff {r : Region} (hr : r.Valid) {s : Segment} (hs : s.Sized) :
    r.TakesFile s ∧ r.TakesZeros s ↔ r.Contains s ∨ r.Whole ∧ s.GoesRound := by
  have hv : s.vaddr.toNat < 2 ^ 32 := s.vaddr.toNat_lt
  have hdata : s.data = [] ↔ s.fileSize = 0 := by
    rw [← hs.length_data, List.length_eq_zero_iff]
  have hbase : r.base = 0 ↔ r.base.toNat = 0 := UInt32.toNat_inj.symm
  have hzeros := s.toNat_zerosAt hs
  obtain ⟨hlength, hfile, hmem⟩ := hs
  obtain ⟨_, hstop⟩ := hr
  unfold TakesFile TakesZeros Contains Whole Holds Segment.GoesRound Segment.extent
  simp only [hdata, hlength, hbase, hzeros]
  by_cases hend : s.vaddr.toNat + s.fileSize < 2 ^ 32
  · -- nothing wraps, and the zeros follow on the file part
    rw [Nat.mod_eq_of_lt hend]
    omega
  · -- the file part ends with the last address, or else there is no room for it
    omega

/-- The zeros of a segment, if there is room for them, go to the addresses behind its file part. -/
theorem reached_of_zeros {r : Region} (hr : r.Valid) {s : Segment} (hs : s.Sized)
    (hfile : r.TakesFile s) (hzeros : r.TakesZeros s) {a : Nat} (hl : s.zerosAt.toNat ≤ a)
    (hu : a < s.zerosAt.toNat + (s.memSize - s.fileSize)) : r.Reached s a := by
  have hv : s.vaddr.toNat < 2 ^ 32 := s.vaddr.toNat_lt
  rw [s.toNat_zerosAt hs] at hl hu
  unfold Reached Segment.Covers
  rcases (takes_iff hr hs).mp ⟨hfile, hzeros⟩ with hin | ⟨hwhole, hround⟩
  · unfold Contains Holds Segment.extent at hin
    have hstop := hr.2
    left
    by_cases htop : s.vaddr.toNat + s.fileSize < 2 ^ 32
    · rw [Nat.mod_eq_of_lt htop] at hl hu
      omega
    · omega
  · rw [hround.1, Nat.mod_self, Nat.zero_add] at hu
    exact .inr ⟨hwhole, hround, hu⟩

end Region

namespace Memory

/-- The memory is that of a region. -/
structure Occupies (m : Memory) (r : Region) : Prop where
  base : m.base = r.base
  size : m.size = r.size.toNat

theorem Occupies.within_iff {m : Memory} {r : Region} (h : m.Occupies r) (addr : Word)
    (count : Nat) : m.view.Within addr.toNat count ↔ r.Holds addr count := by
  rw [view_within, h.base, h.size]
  rfl

theorem Occupies.of_view {m m' : Memory} {r : Region} (h : m.Occupies r) {b : ByteMap}
    (hv : m'.view = b) (hb : b.base = m.base) (hs : b.size = m.size) : m'.Occupies r :=
  ⟨(congrArg ByteMap.base hv).trans (hb.trans h.base),
    (congrArg ByteMap.size hv).trans (hs.trans h.size)⟩

theorem fill_of_within {m : Memory} {addr : Word} {count : Nat} {value : UInt8}
    (hw : m.view.Within addr.toNat count) : ∃ m', m.fill addr count value = .ok m' :=
  ok_of_map_view (m.view_fill addr count value) (.inr (by rwa [List.length_replicate]))

end Memory

/-- The map with the file part of a segment and its zeros put in, both where addresses of 32 bits
lead them. -/
def ByteMap.deposit (b : ByteMap) (s : Elf.Segment) : ByteMap :=
  (b.put s.vaddr.toNat s.data).put s.zerosAt.toNat (List.replicate (s.memSize - s.fileSize) 0)

namespace Load
open Elf Memory

/-- What can come of a segment: it is refused at once, or after its file part, or all of it is put
into memory. -/
inductive Placed (r : Region) (m : Memory) (s : Segment) :
    Except AccessError Unit × Memory → Prop where
  | refused (e : AccessError) (hfile : ¬ r.TakesFile s) : Placed r m s (.error e, m)
  | cut (e : AccessError) (m' : Memory) (hfile : r.TakesFile s) (hzeros : ¬ r.TakesZeros s)
      (hview : m'.view = m.view.put s.vaddr.toNat s.data) : Placed r m s (.error e, m')
  | complete (m' : Memory) (hfile : r.TakesFile s) (hzeros : r.TakesZeros s)
      (hview : m'.view = m.view.deposit s) : Placed r m s (.ok (), m')

theorem placed {r : Region} {m : Memory} (hm : m.Occupies r) (s : Segment) :
    Placed r m s (segment m s) := by
  unfold segment
  split
  · rename_i e hwrite
    refine .refused e fun hfile => ?_
    obtain ⟨m', hok⟩ := write_of_within (hfile.imp_right (hm.within_iff _ _).mpr)
    cases hwrite.symm.trans hok
  · rename_i m₁ hwrite
    obtain ⟨hfile, hview⟩ := view_of_write hwrite
    replace hfile : r.TakesFile s := hfile.imp_right (hm.within_iff _ _).mp
    have hm₁ : m₁.Occupies r := hm.of_view hview rfl rfl
    split
    · rename_i hlt
      unfold attempt
      split
      · rename_i m₂ hfill
        obtain ⟨hroom, hview'⟩ := view_of_fill hfill
        have hsome : List.replicate (s.memSize - s.fileSize) (0 : UInt8) ≠ [] := by
          rw [ne_eq, List.replicate_eq_nil_iff]
          omega
        replace hroom := hroom.resolve_left hsome
        rw [List.length_replicate] at hroom
        refine .complete m₂ hfile (.inr ((hm₁.within_iff _ _).mp hroom)) ?_
        rw [hview', hview]
        rfl
      · rename_i e hfill
        refine .cut e m₁ hfile (fun hzeros => ?_) hview
        have hroom := hzeros.resolve_left (Nat.not_le_of_lt hlt)
        obtain ⟨m', hok⟩ := fill_of_within ((hm₁.within_iff _ _).mpr hroom)
        cases hfill.symm.trans hok
    · rename_i hge
      refine .complete m₁ hfile (.inl (Nat.le_of_not_lt hge)) ?_
      rw [ByteMap.deposit, Nat.sub_eq_zero_of_le (Nat.le_of_not_lt hge), List.replicate_zero,
        ByteMap.put_nil, hview]

theorem Placed.occupies {r : Region} {m : Memory} {s : Segment}
    {x : Except AccessError Unit × Memory} (h : Placed r m s x) (hm : m.Occupies r) :
    x.2.Occupies r := by
  cases h with
  | refused e hfile => exact hm
  | cut e m' hfile hzeros hview => exact hm.of_view hview rfl rfl
  | complete m' hfile hzeros hview => exact hm.of_view hview rfl rfl

/-- One segment changes bytes at the addresses that it reaches only, whatever comes of it. -/
theorem Placed.reached {r : Region} (hr : r.Valid) {m : Memory} {s : Segment} (hs : s.Sized)
    {x : Except AccessError Unit × Memory} (h : Placed r m s x) {a : Nat}
    (ha : x.2.view.byte a ≠ m.view.byte a) : r.Reached s a := by
  have hfilePart : ∀ {b : ByteMap}, (b.put s.vaddr.toNat s.data).byte a ≠ b.byte a →
      r.Reached s a := by
    intro b hb
    rw [ByteMap.put_byte] at hb
    split at hb
    · rename_i hin
      rw [hs.length_data] at hin
      exact .inl ⟨hin.1, Nat.lt_of_lt_of_le hin.2 (Nat.add_le_add_left (Nat.le_max_left _ _) _)⟩
    · exact absurd rfl hb
  cases h with
  | refused e hfile => exact absurd rfl ha
  | cut e m' hfile hzeros hview =>
    rw [hview] at ha
    exact hfilePart ha
  | complete m' hfile hzeros hview =>
    rw [hview, ByteMap.deposit, ByteMap.put_byte, List.length_replicate] at ha
    split at ha
    · rename_i hin
      exact Region.reached_of_zeros hr hs hfile hzeros hin.1 hin.2
    · exact hfilePart ha

theorem segment_ok_iff {r : Region} (hr : r.Valid) {m : Memory} (hm : m.Occupies r) {s : Segment}
    (hs : s.Sized) :
    (∃ m', segment m s = (.ok (), m')) ↔ r.Contains s ∨ r.Whole ∧ s.GoesRound := by
  rw [← Region.takes_iff hr hs]
  have h := placed hm s
  generalize segment m s = x at h
  cases h with
  | refused e hfile => exact iff_of_false nofun fun ht => hfile ht.1
  | cut e m' hfile hzeros hview => exact iff_of_false nofun fun ht => hzeros ht.2
  | complete m' hfile hzeros hview => exact iff_of_true ⟨m', rfl⟩ ⟨hfile, hzeros⟩

/-- Segments are put into memory one after the other, so all of them are if each of them would
be. -/
theorem segments_ok_iff {r : Region} (hr : r.Valid) {m : Memory} (hm : m.Occupies r)
    {ss : List Segment} (hs : ∀ s ∈ ss, s.Sized) :
    (∃ m', segments m ss = (.ok (), m')) ↔
      ∀ s ∈ ss, r.Contains s ∨ r.Whole ∧ s.GoesRound := by
  induction ss generalizing m with
  | nil => exact iff_of_true ⟨m, rfl⟩ nofun
  | cons s rest ih =>
    obtain ⟨hsized, hrest⟩ := List.forall_mem_cons.mp hs
    have hstep := segment_ok_iff hr hm hsized
    have hm₁ := (placed hm s).occupies hm
    rw [List.forall_mem_cons, ← hstep]
    unfold segments
    cases hseg : segment m s with
    | mk answer m₁ =>
      rw [hseg] at hm₁
      cases answer with
      | ok u => simp [ih hm₁ hrest]
      | error e => simp

theorem segments_occupies {r : Region} {m : Memory} (hm : m.Occupies r) (ss : List Segment) :
    (segments m ss).2.Occupies r := by
  induction ss generalizing m with
  | nil => exact hm
  | cons s rest ih =>
    have hm₁ := (placed hm s).occupies hm
    unfold segments
    split
    · rename_i m₁ hseg
      rw [hseg] at hm₁
      exact ih hm₁
    · rename_i e m₁ hseg
      rwa [hseg] at hm₁

theorem segments_reached {r : Region} (hr : r.Valid) {m : Memory} (hm : m.Occupies r)
    {ss : List Segment} (hs : ∀ s ∈ ss, s.Sized) {a : Nat}
    (ha : (segments m ss).2.view.byte a ≠ m.view.byte a) : ∃ s ∈ ss, r.Reached s a := by
  induction ss generalizing m with
  | nil => exact absurd rfl ha
  | cons s rest ih =>
    obtain ⟨hsized, hrest⟩ := List.forall_mem_cons.mp hs
    have hplaced := placed hm s
    by_cases hfirst : (segment m s).2.view.byte a = m.view.byte a
    · unfold segments at ha
      split at ha
      · rename_i m₁ hseg
        rw [hseg] at hplaced hfirst
        rw [← hfirst] at ha
        obtain ⟨t, ht, hreached⟩ := ih (hplaced.occupies hm) hrest ha
        exact ⟨t, List.mem_cons_of_mem s ht, hreached⟩
      · rename_i e m₁ hseg
        rw [hseg] at hfirst
        exact absurd hfirst ha
    · exact ⟨s, List.mem_cons_self, hplaced.reached hr hsized hfirst⟩

theorem image_ok_iff (m : Memory) (i : Image) :
    (∃ loaded, (image m i).1 = .ok loaded) ↔ ∃ m', segments m i.segments = (.ok (), m') := by
  unfold image
  cases segments m i.segments with
  | mk answer m' => cases answer <;> simp

theorem image_snd (m : Memory) (i : Image) : (image m i).2 = (segments m i.segments).2 := by
  unfold image
  split <;> simp_all

/-- Which images are accepted, and what loading may change even if it fails: the addresses of the
segments, and in the region of all addresses also the first ones if a segment's zeros would start
behind the last one. -/
theorem image_accepted_iff {r : Region} (hr : r.check = .ok ()) {m : Memory} (hm : m.Occupies r)
    {file : List UInt8} {i : Image} (hi : Image.read file = .ok i) :
    ((∃ loaded, (image m i).1 = .ok loaded) ↔
      ∀ s ∈ i.segments, (s.extent = 0 ∨ r.Holds s.vaddr s.extent) ∨ r.Whole ∧ s.GoesRound) ∧
    (image m i).2.Occupies r ∧
    ∀ a, (image m i).2.view.byte a ≠ m.view.byte a →
      ∃ s ∈ i.segments, s.Covers a ∨ r.Whole ∧ s.GoesRound ∧ a < s.memSize - s.fileSize := by
  have hvalid : r.Valid := (Region.check_eq_ok_iff r).mp hr
  have hsized := Image.sized_of_read hi
  rw [image_ok_iff, image_snd]
  exact ⟨segments_ok_iff hvalid hm hsized, segments_occupies hm i.segments,
    fun a ha => segments_reached hvalid hm hsized ha⟩

/-- The last bytes of a segment may be the last ones that have an address. -/
theorem image_accepted_iff_top :
    let file := encode 0xFFFFFFF8 [⟨1, 0, 0xFFFFFFF8, 0, [1, 2, 3, 4], 8, 6, 4⟩]
    let s : Segment := ⟨0xFFFFFFF8, 4, 8, [1, 2, 3, 4], false, true⟩
    let i : Image := ⟨0xFFFFFFF8, [s], []⟩
    let m := Memory.empty 0xFFFFFFF0 16
    Image.read file = .ok i ∧ (∃ loaded, (image m i).1 = .ok loaded) ∧
      ∀ a, (image m i).2.view.byte a ≠ m.view.byte a → s.Covers a := by
  intro file s i m
  have hr : Region.check ⟨0xFFFFFFF0, 16⟩ = .ok () := by decide
  have hread : Image.read file = .ok i := by decide +kernel
  obtain ⟨haccepted, _, hchanged⟩ := image_accepted_iff hr (m := m) ⟨rfl, rfl⟩ hread
  refine ⟨hread, haccepted.mpr fun t ht => ?_, fun a ha => ?_⟩
  · obtain rfl := List.mem_singleton.mp ht
    refine .inl (.inr ?_)
    unfold Region.Holds
    decide
  · obtain ⟨t, ht, h | h⟩ := hchanged a ha
    · obtain rfl := List.mem_singleton.mp ht
      exact h
    · exact absurd h.1.1 (by decide)

/-- In the region of all addresses a segment is accepted that goes on behind the last address, and
its zeros are put down at the first one. -/
theorem image_accepted_behind_end :
    let file := encode 0 [⟨1, 0, 0xFFFFFFFC, 0, [1, 2, 3, 4], 8, 6, 4⟩]
    let s : Segment := ⟨0xFFFFFFFC, 4, 8, [1, 2, 3, 4], false, true⟩
    let i : Image := ⟨0, [s], []⟩
    let r : Region := ⟨0, 0x100000000⟩
    let m : Memory := ⟨0, 0x100000000, .flat 0xFF⟩
    r.check = .ok () ∧ m.Occupies r ∧ Image.read file = .ok i ∧
      (∃ loaded, (image m i).1 = .ok loaded) ∧ ¬ (s.extent = 0 ∨ r.Holds s.vaddr s.extent) ∧
      (image m i).2.view.byte 0 ≠ m.view.byte 0 ∧ ¬ s.Covers 0 := by
  intro file s i r m
  have hloaded : (image m i).1 = .ok ⟨0, 8, none, none⟩ := by decide +kernel
  refine ⟨by decide, ⟨rfl, rfl⟩, by decide +kernel, ⟨_, hloaded⟩, ?_, by decide +kernel, by decide⟩
  unfold Region.Holds
  decide

end Load
end Rv32i
