import Rv32i.Program.Load
import Rv32i.Proofs.Words

namespace Rv32i

namespace Elf.Segment

/-- What a segment is in memory: its part of the file, and zeros behind it as far as it goes on. -/
def contents (s : Segment) : List UInt8 :=
  s.data ++ List.replicate (s.memSize - s.fileSize) 0

/-- The address belongs to the segment, to its part of the file or to the zeros behind it. -/
def Covers (s : Segment) (a : Nat) : Prop :=
  s.vaddr.toNat ≤ a ∧ a < s.vaddr.toNat + max s.fileSize s.memSize

instance (s : Segment) (a : Nat) : Decidable (s.Covers a) :=
  inferInstanceAs (Decidable (_ ∧ _))

theorem length_contents {s : Segment} (hl : s.data.length = s.fileSize) :
    s.contents.length = max s.fileSize s.memSize := by
  simp only [contents, List.length_append, List.length_replicate, hl]
  omega

/-- Behind its part of the file a segment is zero. -/
theorem getD_contents (s : Segment) (i : Nat) : s.contents.getD i 0 = s.data.getD i 0 := by
  by_cases hi : i < s.data.length
  · rw [contents, List.getD_append _ _ _ _ hi]
  · have hle : s.data.length ≤ i := Nat.le_of_not_lt hi
    rw [contents, List.getD_append_right _ _ _ _ hle, List.getD_eq_default _ _ hle]
    by_cases hz : i - s.data.length < s.memSize - s.fileSize
    · exact List.getD_replicate 0 hz
    · exact List.getD_eq_default _ _ (by simpa using hz)

end Elf.Segment

namespace ByteMap
open Elf

/-- The map with the contents of a segment put in. -/
def place (b : ByteMap) (s : Segment) : ByteMap :=
  b.put s.vaddr.toNat s.contents

theorem place_byte_of_covers (b : ByteMap) {s : Segment} (hl : s.data.length = s.fileSize)
    {a : Nat} (h : s.Covers a) : (b.place s).byte a = s.data.getD (a - s.vaddr.toNat) 0 := by
  rw [place, put_byte, Segment.length_contents hl]
  exact (if_pos h).trans (s.getD_contents _)

theorem place_byte_of_not_covers (b : ByteMap) {s : Segment} (hl : s.data.length = s.fileSize)
    {a : Nat} (h : ¬ s.Covers a) : (b.place s).byte a = b.byte a := by
  rw [place, put_byte, Segment.length_contents hl]
  exact if_neg h

theorem foldl_place_geometry (b : ByteMap) (segments : List Segment) :
    (segments.foldl place b).base = b.base ∧ (segments.foldl place b).size = b.size := by
  induction segments generalizing b with
  | nil => exact ⟨rfl, rfl⟩
  | cons s rest ih => exact ih (b.place s)

theorem foldl_place_byte_of_not_covers (b : ByteMap) {segments : List Segment}
    (hl : ∀ s ∈ segments, s.data.length = s.fileSize) {a : Nat}
    (h : ∀ s ∈ segments, ¬ s.Covers a) : (segments.foldl place b).byte a = b.byte a := by
  induction segments generalizing b with
  | nil => rfl
  | cons s rest ih =>
    obtain ⟨hls, hlrest⟩ := List.forall_mem_cons.mp hl
    obtain ⟨hs, hrest⟩ := List.forall_mem_cons.mp h
    rw [List.foldl_cons, ih _ hlrest hrest]
    exact b.place_byte_of_not_covers hls hs

/-- Of all segments that have a byte for an address the last one decides. -/
theorem foldl_place_byte_of_last (b : ByteMap) (before : List Segment) {s : Segment}
    {after : List Segment} (hl : ∀ t ∈ s :: after, t.data.length = t.fileSize) {a : Nat}
    (hs : s.Covers a) (hafter : ∀ t ∈ after, ¬ t.Covers a) :
    ((before ++ s :: after).foldl place b).byte a = s.data.getD (a - s.vaddr.toNat) 0 := by
  obtain ⟨hls, hlafter⟩ := List.forall_mem_cons.mp hl
  rw [List.foldl_append, List.foldl_cons, foldl_place_byte_of_not_covers _ hlafter hafter]
  exact place_byte_of_covers _ hls hs

end ByteMap

namespace Memory

/-- The region does not hold every address, and no address of it has more than 32 bits. Only in the
region of all addresses can a segment run past the last address and go on at the first. -/
structure Bounded (m : Memory) : Prop where
  stop_le : m.base.toNat + m.size ≤ 2 ^ 32
  not_all : ¬ (m.base = 0 ∧ m.size = 2 ^ 32)

theorem Bounded.congr {m m' : Memory} (h : m.Bounded)
    (hg : m'.base = m.base ∧ m'.size = m.size) : m'.Bounded := by
  obtain ⟨hstop, hall⟩ := h
  rw [← hg.1, ← hg.2] at hstop hall
  exact ⟨hstop, hall⟩

end Memory

namespace Load
open Elf Memory

/-- The zeros of a segment start where its part of the file ends. The sum of the two numbers wraps
at the last address only, and behind that no region but the full one has room. -/
theorem toNat_zeros_start {m : Memory} (hm : m.Bounded) {s : Segment}
    (hl : s.data.length = s.fileSize) (hd : s.fileSize < 2 ^ 32)
    (hfile : s.data = [] ∨ m.view.Within s.vaddr.toNat s.fileSize)
    (hzeros : m.base.toNat ≤ (s.vaddr + UInt32.ofNat s.fileSize).toNat) :
    (s.vaddr + UInt32.ofNat s.fileSize).toNat = s.vaddr.toNat + s.fileSize := by
  have hsum : (s.vaddr + UInt32.ofNat s.fileSize).toNat =
      (s.vaddr.toNat + s.fileSize) % 2 ^ 32 := by
    rw [UInt32.toNat_add, UInt32.toNat_ofNat', Nat.mod_eq_of_lt hd]
  have hv : s.vaddr.toNat < 2 ^ 32 := s.vaddr.toNat_lt
  rw [hsum]
  refine Nat.mod_eq_of_lt ?_
  rcases hfile with he | hw
  · have hzero : s.fileSize = 0 := hl.symm.trans (congrArg List.length he)
    omega
  · obtain ⟨hstart, hu⟩ := (view_within m _ _).mp hw
    have hstop := hm.stop_le
    by_contra hge
    have htop : s.vaddr.toNat + s.fileSize = 2 ^ 32 := by omega
    rw [hsum, htop, Nat.mod_self] at hzeros
    refine hm.not_all ⟨UInt32.toNat_inj.mp (Nat.le_zero.mp hzeros), ?_⟩
    omega

theorem segment_view {m m' : Memory} (hm : m.Bounded) {s : Segment}
    (hl : s.data.length = s.fileSize) (hd : s.fileSize < 2 ^ 32)
    (h : segment m s = (.ok (), m')) : m'.view = m.view.place s := by
  unfold segment at h
  split at h
  · cases h
  · rename_i m₁ hwrite
    obtain ⟨hfile, hview⟩ := view_of_write hwrite
    rw [hl] at hfile
    split at h
    · rename_i hlt
      unfold attempt at h
      split at h
      · rename_i hfill
        cases h
        obtain ⟨hzeros, hview'⟩ := view_of_fill hfill
        have hpos : List.replicate (s.memSize - s.fileSize) (0 : UInt8) ≠ [] := by
          rw [ne_eq, List.replicate_eq_nil_iff]
          omega
        have hbase : m₁.base = m.base := (write_geometry hwrite).1
        obtain ⟨hstart, _⟩ := (view_within m₁ _ _).mp (hzeros.resolve_left hpos)
        rw [hbase] at hstart
        have happend := m.view.put_append s.vaddr.toNat s.data
          (List.replicate (s.memSize - s.fileSize) 0)
        rw [hl] at happend
        rw [hview', hview, toNat_zeros_start hm hl hd hfile hstart]
        exact happend
      · cases h
    · rename_i hge
      cases h
      have hnone : s.memSize - s.fileSize = 0 := by omega
      rw [hview, ByteMap.place, Segment.contents, hnone, List.replicate_zero, List.append_nil]

theorem segments_view {m m' : Memory} (hm : m.Bounded) {ss : List Segment}
    (hd : ∀ s ∈ ss, s.data.length = s.fileSize ∧ s.fileSize < 2 ^ 32)
    (h : segments m ss = (.ok (), m')) :
    m'.view = ss.foldl ByteMap.place m.view := by
  induction ss generalizing m with
  | nil =>
    cases h
    rfl
  | cons s rest ih =>
    unfold segments at h
    split at h
    · rename_i m₁ hs
      obtain ⟨hfirst, hrest⟩ := List.forall_mem_cons.mp hd
      have hview := segment_view hm hfirst.1 hfirst.2 hs
      have hm₁ : m₁.Bounded :=
        hm.congr ⟨congrArg ByteMap.base hview, congrArg ByteMap.size hview⟩
      rw [ih hm₁ hrest h, hview]
      rfl
    · cases h

/-- What loading an image tells and leaves in memory: each byte is that of the last segment with the
address, and addresses of no segment keep theirs. -/
theorem image_last_segment_decides {m m' : Memory} (hm : m.Bounded) {i : Image}
    (hd : ∀ s ∈ i.segments, s.data.length = s.fileSize ∧ s.fileSize < 2 ^ 32) {loaded : Loaded}
    (h : image m i = (.ok loaded, m')) :
    m'.base = m.base ∧ m'.size = m.size ∧
    (∀ a, m.view.Within a 1 →
      (∀ before s after, i.segments = before ++ s :: after → s.Covers a →
        (∀ t ∈ after, ¬ t.Covers a) →
          m'.view.byte a = s.data.getD (a - s.vaddr.toNat) 0) ∧
      ((∀ s ∈ i.segments, ¬ s.Covers a) → m'.view.byte a = m.view.byte a)) ∧
    loaded.entry = i.entry ∧
    loaded.tohost = (i.symbols.find? (·.name = "tohost")).map (·.addr) ∧
    loaded.fromhost = (i.symbols.find? (·.name = "fromhost")).map (·.addr) := by
  unfold image at h
  split at h
  · cases h
  · rename_i hs
    cases h
    have hl : ∀ s ∈ i.segments, s.data.length = s.fileSize := fun s hmem => (hd s hmem).1
    have hview := segments_view hm hd hs
    obtain ⟨hbase, hsize⟩ := m.view.foldl_place_geometry i.segments
    rw [← hview] at hbase hsize
    refine ⟨hbase, hsize, fun a _ => ⟨?_, ?_⟩, rfl, rfl, rfl⟩
    · intro before s after hsplit hcovers hafter
      rw [hsplit, List.forall_mem_append] at hl
      rw [hview, hsplit]
      exact ByteMap.foldl_place_byte_of_last _ before hl.2 hcovers hafter
    · intro hnone
      rw [hview]
      exact ByteMap.foldl_place_byte_of_not_covers _ hl hnone

/-- Zeros of one segment lie over the file part of another, and a third one lies over some of
them. -/
theorem image_last_segment_decides_overlaps :
    let first : Segment := ⟨0x104, 6, 6, [1, 2, 3, 4, 5, 6], true, false⟩
    let second : Segment := ⟨0x106, 0, 4, [], false, true⟩
    let third : Segment := ⟨0x107, 1, 2, [7], false, true⟩
    let symbols : List Symbol := [⟨"fromhost", 0x118⟩, ⟨"tohost", 0x110⟩, ⟨"tohost", 0x114⟩]
    ∃ loaded m', image (.empty 0x100 32) ⟨0x104, [first, second, third], symbols⟩ =
        (.ok loaded, m') ∧
      m'.view.byte 0x105 = 2 ∧ m'.view.byte 0x106 = 0 ∧ m'.view.byte 0x107 = 7 ∧
      m'.view.byte 0x10A = 0 ∧ loaded.entry = 0x104 ∧ loaded.tohost = some 0x110 := by
  intro first second third symbols
  let i : Image := ⟨0x104, [first, second, third], symbols⟩
  have hm : (Memory.empty 0x100 32).Bounded := ⟨by decide, by decide⟩
  have hd : ∀ s ∈ i.segments, s.data.length = s.fileSize ∧ s.fileSize < 2 ^ 32 := by decide
  have hok : image (.empty 0x100 32) i =
      (.ok ⟨0x104, 12, some 0x110, some 0x118⟩, (image (.empty 0x100 32) i).2) := by
    decide
  obtain ⟨_, _, hbyte, hentry, htohost, _⟩ := image_last_segment_decides hm hd hok
  exact ⟨_, _, hok,
    (hbyte 0x105 (by decide)).1 [] first [second, third] rfl (by decide) (by decide),
    (hbyte 0x106 (by decide)).1 [first] second [third] rfl (by decide) (by decide),
    (hbyte 0x107 (by decide)).1 [first, second] third [] rfl (by decide) (by decide),
    (hbyte 0x10A (by decide)).2 (by decide), hentry, htohost⟩

end Load
end Rv32i
