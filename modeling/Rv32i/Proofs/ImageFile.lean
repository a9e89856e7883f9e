import Mathlib.Data.List.Forall2
import Mathlib.Data.Nat.Bitwise
import Rv32i.Proofs.Start

namespace Rv32i

/-- A pass over a list succeeds if it does so on each element, and keeps their order. -/
theorem mapM_eq_ok_iff {ε α β : Type} (f : α → Except ε β) (xs : List α) (ys : List β) :
    xs.mapM f = .ok ys ↔ List.Forall₂ (fun x y => f x = .ok y) xs ys := by
  induction xs generalizing ys with
  | nil =>
    rw [List.mapM_nil, List.forall₂_nil_left_iff]
    exact ⟨fun h => (Except.ok.inj h).symm, fun h => congrArg Except.ok h.symm⟩
  | cons x xs ih =>
    rw [List.mapM_cons, except_bind_eq_ok]
    simp only [except_bind_eq_ok, ih]
    constructor
    · rintro ⟨y, hy, rest, hrest, h⟩
      cases h
      exact .cons hy hrest
    · intro h
      cases h with
      | cons hy hrest => exact ⟨_, hy, _, hrest, rfl⟩

theorem exists_of_mem_mapM {ε α β : Type} {f : α → Except ε β} {xs : List α} {ys : List β}
    (h : xs.mapM f = .ok ys) {y : β} (hy : y ∈ ys) : ∃ x ∈ xs, f x = .ok y := by
  replace h := (mapM_eq_ok_iff f xs ys).mp h
  induction h with
  | nil => cases hy
  | cons hx _ ih =>
    rcases List.mem_cons.mp hy with rfl | hy
    · exact ⟨_, List.mem_cons_self, hx⟩
    · obtain ⟨x, hmem, hfx⟩ := ih hy
      exact ⟨x, List.mem_cons_of_mem _ hmem, hfx⟩

namespace Elf

/-- The layout of the files that this machine takes. -/
def Layout.narrowLittle : Layout :=
  ⟨false, false⟩

theorem targetFault?_eq_none_iff (h : Header) :
    targetFault? h = none ↔ h.machine = riscv ∧ h.layout = .narrowLittle := by
  obtain ⟨⟨wide, big⟩, machine⟩ := h
  unfold targetFault? Layout.narrowLittle
  by_cases hm : machine = riscv
  · cases wide <;> cases big <;> simp [hm]
  · simp [hm]

theorem requireSize_eq_ok_iff (n k : Nat) : requireSize n = .ok k ↔ n < 2 ^ 64 ∧ n = k := by
  unfold requireSize checkedSize
  by_cases h : n < UInt64.size
  · simp only [if_pos h, Except.ok.injEq]
    exact ⟨fun hk => ⟨h, hk⟩, fun hk => hk.2⟩
  · simp only [if_neg h, reduceCtorEq, false_iff]
    exact fun hk => h hk.1

theorem length_of_slice {file bytes : List UInt8} {start stop : Nat}
    (h : slice file start stop = .ok bytes) : bytes.length = stop - start := by
  unfold slice at h
  split at h
  · rename_i hin
    cases h
    rw [List.length_take, List.length_drop]
    omega
  · cases h

/-- As many bytes are read as were asked for. -/
theorem File.length_of_data {f : File} {offset size : Nat} {bytes : List UInt8}
    (h : f.data offset size = .ok bytes) : bytes.length = size := by
  obtain ⟨stop, hstop, h⟩ := (except_bind_eq_ok _ _ _).mp h
  obtain ⟨_, rfl⟩ := (requireSize_eq_ok_iff _ _).mp hstop
  rw [length_of_slice h, Nat.add_sub_cancel_left]

theorem Layout.number_lt (layout : Layout) (bytes : List UInt8) (offset count : Nat) :
    layout.number bytes offset count < 256 ^ count := by
  have hbound : ∀ field : List UInt8, field.length ≤ count → littleEndian field < 256 ^ count := by
    intro field hl
    exact Nat.lt_of_lt_of_le (littleEndian_lt field) (Nat.pow_le_pow_right (by decide) hl)
  have hl : ((bytes.drop offset).take count).length ≤ count := List.length_take_le _ _
  unfold Layout.number
  split
  · exact hbound _ (by rwa [List.length_reverse])
  · exact hbound _ hl

/-- The bytes stand in the file from `offset` on. -/
def StandsAt (file : List UInt8) (offset : Nat) (bytes : List UInt8) : Prop :=
  ∃ front back, front.length = offset ∧ file = front ++ (bytes ++ back)

namespace StandsAt
variable {file bytes : List UInt8} {offset : Nat}

theorem le_length (h : StandsAt file offset bytes) : offset + bytes.length ≤ file.length := by
  obtain ⟨front, back, rfl, rfl⟩ := h
  simp only [List.length_append]
  omega

theorem take_drop (h : StandsAt file offset bytes) :
    (file.drop offset).take bytes.length = bytes := by
  obtain ⟨front, back, rfl, rfl⟩ := h
  rw [List.drop_left, List.take_left]

theorem slice_eq (h : StandsAt file offset bytes) :
    slice file offset (offset + bytes.length) = .ok bytes := by
  rw [slice, if_pos ⟨Nat.le_add_right _ _, h.le_length⟩, Nat.add_sub_cancel_left, h.take_drop]

theorem data_eq {f : File} (h : StandsAt f.bytes offset bytes)
    (hfit : offset + bytes.length < 2 ^ 64) : f.data offset bytes.length = .ok bytes := by
  rw [File.data, (requireSize_eq_ok_iff _ _).mpr ⟨hfit, rfl⟩]
  exact h.slice_eq

/-- What stands in the first part of a file stands there without the rest of it. -/
theorem take (h : StandsAt file offset bytes) {n : Nat} (hn : offset + bytes.length ≤ n) :
    StandsAt (file.take n) offset bytes := by
  obtain ⟨front, back, rfl, rfl⟩ := h
  refine ⟨front, back.take (n - front.length - bytes.length), rfl, ?_⟩
  rw [List.take_append, List.take_append, List.take_of_length_le (by omega),
    List.take_of_length_le (by omega)]

theorem number_eq {count n : Nat} (h : StandsAt file offset (digits count n))
    (hn : n < 256 ^ count) : Layout.narrowLittle.number file offset count = n := by
  have hfield := h.take_drop
  rw [length_digits] at hfield
  calc Layout.narrowLittle.number file offset count
      = littleEndian ((file.drop offset).take count) := rfl
    _ = n := by rw [hfield, littleEndian_digits, Nat.mod_eq_of_lt hn]

/-- A number in the first part of a file is read as it was written. -/
theorem number_take {count n k : Nat} (h : StandsAt file offset (digits count n))
    (hk : offset + count ≤ k) (hn : n < 256 ^ count) :
    Layout.narrowLittle.number (file.take k) offset count = n :=
  (h.take (by rwa [length_digits])).number_eq hn

end StandsAt

/-- A row of the table of program headers, with the bytes of the file that it stands for. -/
structure ProgramHeader where
  type : Word
  offset : Word
  vaddr : Word
  paddr : Word
  bytes : List UInt8
  memSize : Word
  flags : Word
  align : Word

namespace ProgramHeader

def words (h : ProgramHeader) : List Word :=
  [h.type, h.offset, h.vaddr, h.paddr, UInt32.ofNat h.bytes.length, h.memSize, h.flags, h.align]

/-- The row as it stands in a file. -/
def row (h : ProgramHeader) : List UInt8 :=
  Memory.bytesOfWords h.words

/-- The row as it is read from a file. -/
def header (h : ProgramHeader) : SegmentHeader where
  type := h.type.toNat
  offset := h.offset.toNat
  vaddr := h.vaddr.toNat
  fileSize := h.bytes.length
  memSize := h.memSize.toNat
  flags := h.flags.toNat

/-- What the row puts into memory. Bit 0 of the flags is for execution, bit 1 for writes. -/
def segment (h : ProgramHeader) : Segment where
  vaddr := h.vaddr
  fileSize := h.bytes.length
  memSize := h.memSize.toNat
  data := h.bytes
  executable := h.flags &&& 1 ≠ 0
  writable := h.flags &&& 2 ≠ 0

theorem length_row (h : ProgramHeader) : h.row.length = 32 :=
  Memory.length_bytesOfWords h.words

theorem standsAt_row (h : ProgramHeader) (front : List Word) {back : List Word} {w : Word}
    (hw : h.words = front ++ w :: back) :
    StandsAt h.row (4 * front.length) (digits 4 w.toNat) := by
  refine ⟨Memory.bytesOfWords front, Memory.bytesOfWords back, Memory.length_bytesOfWords front, ?_⟩
  rw [row, hw, ← Word.toBytes_eq_digits]
  exact List.flatMap_append

/-- Each word of a row is read where it stands. -/
theorem number_row (h : ProgramHeader) (front : List Word) {back : List Word} {w : Word}
    (hw : h.words = front ++ w :: back) :
    Layout.narrowLittle.number h.row (4 * front.length) 4 = w.toNat :=
  (h.standsAt_row front hw).number_eq w.toNat_lt

theorem segmentRow_row {h : ProgramHeader} (hl : h.bytes.length < 2 ^ 32) :
    Layout.narrowLittle.segmentRow h.row = h.header := by
  have htype : Layout.narrowLittle.number h.row 0 4 = h.type.toNat :=
    h.number_row [] rfl
  have hoffset : Layout.narrowLittle.number h.row 4 4 = h.offset.toNat :=
    h.number_row [_] rfl
  have hvaddr : Layout.narrowLittle.number h.row 8 4 = h.vaddr.toNat :=
    h.number_row [_, _] rfl
  have hsize : Layout.narrowLittle.number h.row 16 4 = h.bytes.length := by
    refine (h.number_row [_, _, _, _] rfl).trans ?_
    rw [UInt32.toNat_ofNat', Nat.mod_eq_of_lt hl]
  have hmem : Layout.narrowLittle.number h.row 20 4 = h.memSize.toNat :=
    h.number_row [_, _, _, _, _] rfl
  have hflags : Layout.narrowLittle.number h.row 24 4 = h.flags.toNat :=
    h.number_row [_, _, _, _, _, _] rfl
  rw [header, ← htype, ← hoffset, ← hvaddr, ← hsize, ← hmem, ← hflags]
  rfl

end ProgramHeader

theorem mask_ne_zero_iff (w mask : Word) : w.toNat &&& mask.toNat ≠ 0 ↔ w &&& mask ≠ 0 := by
  rw [← UInt32.toNat_and, ne_eq, ne_eq, ← UInt32.toNat_inj]
  rfl

/-- A row becomes the segment with the bytes that stand where it says. -/
theorem readSegment_header {f : File} {h : ProgramHeader}
    (hb : StandsAt f.bytes h.offset.toNat h.bytes) (hl : h.bytes.length < 2 ^ 32) :
    readSegment f h.header = .ok h.segment := by
  have hoffset : h.offset.toNat < 2 ^ 32 := h.offset.toNat_lt
  have hdata : f.data h.header.offset h.header.fileSize = .ok h.bytes := hb.data_eq (by omega)
  have hx := mask_ne_zero_iff h.flags 1
  have hw := mask_ne_zero_iff h.flags 2
  rw [readSegment, hdata]
  change Except.ok (Segment.mk (UInt32.ofNat h.vaddr.toNat) _ _ h.bytes
    (decide (h.flags.toNat &&& (1 : Word).toNat ≠ 0))
    (decide (h.flags.toNat &&& (2 : Word).toNat ≠ 0))) = _
  rw [UInt32.ofNat_toNat, decide_eq_decide.mpr hx, decide_eq_decide.mpr hw]
  rfl

/-- A table of whole entries is cut into these entries. -/
theorem entries_flatten {size fuel : Nat} {rows : List (List UInt8)} (hpos : 0 < size)
    (hrows : ∀ row ∈ rows, row.length = size) (hfuel : rows.length ≤ fuel) :
    entries size fuel rows.flatten = rows := by
  induction rows generalizing fuel with
  | nil =>
    cases fuel with
    | zero => rfl
    | succ fuel => exact if_pos hpos
  | cons row rows ih =>
    obtain ⟨hrow, hrest⟩ := List.forall_mem_cons.mp hrows
    cases fuel with
    | zero => cases hfuel
    | succ fuel =>
      have hlong : ¬ (row ++ rows.flatten).length < size := by
        rw [List.length_append]
        omega
      rw [List.flatten_cons, entries, if_neg hlong, List.take_left' hrow, List.drop_left' hrow,
        ih hrest (Nat.le_of_succ_le_succ hfuel)]

theorem length_rows (headers : List ProgramHeader) :
    (headers.flatMap ProgramHeader.row).length = 32 * headers.length := by
  rw [List.length_flatMap, funext ProgramHeader.length_row]
  simp [Nat.mul_comm]

theorem tableEntries_rows (headers : List ProgramHeader) :
    tableEntries 32 (headers.flatMap ProgramHeader.row) = headers.map ProgramHeader.row := by
  have hrows : ∀ row ∈ headers.map ProgramHeader.row, row.length = 32 := by
    intro row hrow
    obtain ⟨h, _, rfl⟩ := List.mem_map.mp hrow
    exact h.length_row
  rw [tableEntries, length_rows, List.flatMap_def]
  refine entries_flatten (by decide) hrows ?_
  rw [List.length_map]
  omega

theorem readSegments_headers {f : File} {headers : List ProgramHeader}
    (hf : f.segments = headers.map ProgramHeader.header)
    (hb : ∀ h ∈ headers, StandsAt f.bytes h.offset.toNat h.bytes)
    (hl : ∀ h ∈ headers, h.bytes.length < 2 ^ 32) :
    readSegments f = .ok ((headers.filter (·.type = 1)).map ProgramHeader.segment) := by
  have htype : (fun h : ProgramHeader => decide (h.header.type = loadable)) =
      fun h => decide (h.type = 1) := by
    funext h
    rw [decide_eq_decide]
    exact UInt32.toNat_inj (b := 1)
  rw [readSegments, hf, List.filter_map, Function.comp_def, htype, mapM_eq_ok_iff,
    List.forall₂_map_left_iff, List.forall₂_map_right_iff, List.forall₂_same]
  intro h hh
  have hmem := (List.mem_filter.mp hh).1
  exact readSegment_header (hb h hmem) (hl h hmem)

theorem readTable_of_standsAt {file table : List UInt8} {offset size count : Nat}
    (h : StandsAt file offset table) (hl : table.length = size * count)
    (hfit : offset + size * count < 2 ^ 64) :
    readTable file offset size size count = .ok table := by
  have hsize : requireSize (size * count) = .ok (size * count) :=
    (requireSize_eq_ok_iff _ _).mpr ⟨Nat.lt_of_le_of_lt (Nat.le_add_left _ offset) hfit, rfl⟩
  have hstop : requireSize (offset + size * count) = .ok (offset + size * count) :=
    (requireSize_eq_ok_iff _ _).mpr ⟨hfit, rfl⟩
  have hslice := h.slice_eq
  rw [hl] at hslice
  rw [readTable, if_neg (not_not_intro rfl)]
  calc (requireSize (size * count) >>= fun n => requireSize (offset + n) >>= slice file offset)
      = slice file offset (offset + size * count) := by rw [hsize]; exact congrArg (· >>= _) hstop
    _ = .ok table := hslice

/-- A file in the form of this machine: its header names the entry, there are no sections, and the
program headers stand in a table behind the header, each of them with its bytes somewhere in the
file. All else in the header is free. -/
structure LaidOut (entry : Word) (headers : List ProgramHeader) (file : List UInt8) : Prop where
  ident : StandsAt file 0 [0x7F, 0x45, 0x4C, 0x46, 1, 1, 1]
  machine : StandsAt file 18 (digits 2 0xF3)
  start : StandsAt file 24 (digits 4 entry.toNat)
  phoff : StandsAt file 28 (digits 4 52)
  shoff : StandsAt file 32 (digits 4 0)
  phentsize : StandsAt file 42 (digits 2 32)
  phnum : StandsAt file 44 (digits 2 headers.length)
  table : StandsAt file 52 (headers.flatMap ProgramHeader.row)
  bytes : ∀ h ∈ headers, StandsAt file h.offset.toNat h.bytes

/-- The numbers in the header of a small file with the lowest bytes first. -/
def Header.narrow (bytes : List UInt8) : Header :=
  let number := Layout.narrowLittle.number bytes
  { layout := .narrowLittle
    machine := number 18 2
    entry := number 24 4
    phoff := number 28 4
    shoff := number 32 4
    phentsize := number 42 2
    phnum := number 44 2
    shentsize := number 46 2
    shnum := number 48 2 }

namespace LaidOut
variable {entry : Word} {headers : List ProgramHeader} {file : List UInt8}

theorem length_ge (h : LaidOut entry headers file) : 52 ≤ file.length :=
  Nat.le_of_add_right_le h.table.le_length

theorem readLayout_eq (h : LaidOut entry headers file) :
    readLayout file = .ok Layout.narrowLittle := by
  have hlen := h.length_ge
  obtain ⟨front, back, hfront, rfl⟩ := h.ident
  obtain rfl : front = [] := List.eq_nil_of_length_eq_zero hfront
  have hslice : slice ([] ++ ([0x7F, 0x45, 0x4C, 0x46, 1, 1, 1] ++ back)) 0 16 =
      .ok (0x7F :: 0x45 :: 0x4C :: 0x46 :: 1 :: 1 :: 1 :: back.take 9) :=
    if_pos ⟨Nat.zero_le 16, Nat.le_trans (by decide) hlen⟩
  rw [readLayout, hslice]
  rfl

theorem readHeader_eq (h : LaidOut entry headers file) :
    readHeader file = .ok (Header.narrow (file.take 52)) := by
  have hslice : slice file 0 52 = .ok (file.take 52) := if_pos ⟨Nat.zero_le 52, h.length_ge⟩
  rw [readHeader, h.readLayout_eq]
  exact congrArg (· >>= fun bytes => pure (Header.narrow bytes)) hslice

theorem segmentTable_eq (h : LaidOut entry headers file) (hn : headers.length < 65535) :
    segmentTable file (Header.narrow (file.take 52)) = .ok (headers.flatMap ProgramHeader.row) := by
  have hphoff : (Header.narrow (file.take 52)).phoff = 52 :=
    h.phoff.number_take (by decide) (by decide)
  have hentsize : (Header.narrow (file.take 52)).phentsize = 32 :=
    h.phentsize.number_take (by decide) (by decide)
  have hphnum : (Header.narrow (file.take 52)).phnum = headers.length :=
    h.phnum.number_take (by decide) (by omega)
  have hcount : headers.length ≠ 0xFFFF := by omega
  have htable := readTable_of_standsAt h.table (length_rows headers) (by omega)
  rw [segmentTable, hphoff, hphnum, hentsize, if_neg hcount]
  exact htable

/-- No sections: there is nothing to read, and so no symbol. -/
theorem sectionTable_eq (h : LaidOut entry headers file) :
    sectionTable file (Header.narrow (file.take 52)) = .ok [] := by
  have hshoff : (Header.narrow (file.take 52)).shoff = 0 :=
    h.shoff.number_take (by decide) (by decide)
  rw [sectionTable, if_pos hshoff]
  rfl

theorem targetFault?_eq (h : LaidOut entry headers file) :
    targetFault? (Header.narrow (file.take 52)) = none :=
  (targetFault?_eq_none_iff _).mpr ⟨h.machine.number_take (by decide) (by decide), rfl⟩

end LaidOut

/-- All that has to go well for a file to be read. -/
theorem File.read_eq_ok_iff (bytes : List UInt8) (f : File) :
    File.read bytes = .ok f ↔ ∃ header sections segments,
      readHeader bytes = .ok header ∧ sectionTable bytes header = .ok sections ∧
      segmentTable bytes header = .ok segments ∧
      f = ⟨bytes, header,
        (tableEntries header.layout.sectionSize sections).map header.layout.sectionRow,
        (tableEntries header.layout.segmentSize segments).map header.layout.segmentRow⟩ := by
  unfold File.read
  simp only [except_bind_eq_ok]
  constructor
  · rintro ⟨header, hheader, sections, hsections, segments, hsegments, h⟩
    cases h
    exact ⟨header, sections, segments, hheader, hsections, hsegments, rfl⟩
  · rintro ⟨header, sections, segments, hheader, hsections, hsegments, rfl⟩
    exact ⟨header, hheader, sections, hsections, segments, hsegments, rfl⟩

/-- All that has to go well for an image to be read. -/
theorem Image.read_eq_ok_iff (bytes : List UInt8) (i : Image) :
    Image.read bytes = .ok i ↔ ∃ file segments,
      File.read bytes = .ok file ∧ targetFault? file.header = none ∧
      readSegments file = .ok segments ∧
      i = ⟨UInt32.ofNat file.header.entry, segments, readSymbols file⟩ := by
  unfold Image.read
  simp only [except_bind_eq_ok, mapError_eq_ok]
  constructor
  · rintro ⟨file, hfile, h⟩
    cases hfault : targetFault? file.header with
    | some fault =>
      rw [hfault] at h
      cases h
    | none =>
      simp only [hfault, except_bind_eq_ok, mapError_eq_ok] at h
      obtain ⟨segments, hsegments, h⟩ := h
      cases h
      exact ⟨file, segments, hfile, hfault, hsegments, rfl⟩
  · rintro ⟨file, segments, hfile, hfault, hsegments, rfl⟩
    refine ⟨file, hfile, ?_⟩
    simp only [hfault, except_bind_eq_ok, mapError_eq_ok]
    exact ⟨segments, hsegments, rfl⟩

/-- A segment as it comes from a file: it has as many bytes as its header says, and both of its
sizes have 32 bits. -/
structure Segment.Sized (s : Segment) : Prop where
  length_data : s.data.length = s.fileSize
  fileSize_lt : s.fileSize < 2 ^ 32
  memSize_lt : s.memSize < 2 ^ 32

theorem readSegment_sized {f : File} {row : List UInt8} {s : Segment}
    (h : readSegment f (Layout.narrowLittle.segmentRow row) = .ok s) : s.Sized := by
  obtain ⟨data, hdata, h⟩ := (except_bind_eq_ok _ _ _).mp h
  cases h
  exact ⟨File.length_of_data hdata, Layout.number_lt _ _ _ 4, Layout.number_lt _ _ _ 4⟩

/-- Every segment that is read has as many bytes as its header says. -/
theorem Image.sized_of_read {bytes : List UInt8} {i : Image} (h : Image.read bytes = .ok i) :
    ∀ s ∈ i.segments, s.Sized := by
  obtain ⟨file, segments, hfile, hfault, hsegments, rfl⟩ := (read_eq_ok_iff bytes i).mp h
  obtain ⟨header, sections, table, _, _, _, rfl⟩ := (File.read_eq_ok_iff bytes file).mp hfile
  obtain ⟨_, hlayout⟩ := (targetFault?_eq_none_iff header).mp hfault
  intro s hs
  obtain ⟨row, hrow, hread⟩ := exists_of_mem_mapM hsegments hs
  rw [List.mem_filter, List.mem_map] at hrow
  obtain ⟨⟨entry, _, rfl⟩, _⟩ := hrow
  rw [hlayout] at hread
  exact readSegment_sized hread

namespace LaidOut
variable {entry : Word} {headers : List ProgramHeader} {file : List UInt8}

theorem length_bytes (h : LaidOut entry headers file) (hsize : file.length < 2 ^ 32) :
    ∀ p ∈ headers, p.bytes.length < 2 ^ 32 := fun p hp =>
  Nat.lt_of_le_of_lt (Nat.le_of_add_left_le (h.bytes p hp).le_length) hsize

theorem readFile (h : LaidOut entry headers file) (hn : headers.length < 65535)
    (hsize : file.length < 2 ^ 32) : File.read file =
      .ok ⟨file, Header.narrow (file.take 52), [], headers.map ProgramHeader.header⟩ := by
  have hrows : (headers.map ProgramHeader.row).map Layout.narrowLittle.segmentRow =
      headers.map ProgramHeader.header := by
    rw [List.map_map]
    refine List.map_congr_left fun p hp => ?_
    exact ProgramHeader.segmentRow_row (h.length_bytes hsize p hp)
  refine (File.read_eq_ok_iff _ _).mpr
    ⟨_, _, _, h.readHeader_eq, h.sectionTable_eq, h.segmentTable_eq hn, ?_⟩
  rw [← hrows, ← tableEntries_rows]
  rfl

theorem read (h : LaidOut entry headers file) (hn : headers.length < 65535)
    (hsize : file.length < 2 ^ 32) : Image.read file =
      .ok ⟨entry, (headers.filter (·.type = 1)).map ProgramHeader.segment, []⟩ := by
  have hentry : (Header.narrow (file.take 52)).entry = entry.toNat :=
    h.start.number_take (by decide) entry.toNat_lt
  refine (Image.read_eq_ok_iff _ _).mpr ⟨_, _, h.readFile hn hsize, h.targetFault?_eq,
    readSegments_headers rfl h.bytes (h.length_bytes hsize), ?_⟩
  rw [hentry, UInt32.ofNat_toNat]
  rfl

end LaidOut

/-- The headers with their bytes one after the other in the file, from `offset` on. -/
def consecutive : Nat → List ProgramHeader → List ProgramHeader
  | _, [] => []
  | offset, h :: rest =>
    { h with offset := UInt32.ofNat offset } :: consecutive (offset + h.bytes.length) rest

/-- The parts of a file header for a table of `count` program headers behind it. -/
def headerParts (entry : Word) (count : Nat) : List (List UInt8) :=
  [[0x7F, 0x45, 0x4C, 0x46, 1, 1, 1], List.replicate 9 0, digits 2 2, digits 2 0xF3, digits 4 1,
   digits 4 entry.toNat, digits 4 52, digits 4 0, digits 4 0, digits 2 52, digits 2 32,
   digits 2 count, digits 2 40, digits 2 0, digits 2 0]

/-- A file with header, table and the bytes of the program headers in this order. -/
def encode (entry : Word) (headers : List ProgramHeader) : List UInt8 :=
  let placed := consecutive (52 + 32 * headers.length) headers
  (headerParts entry headers.length ++
    [placed.flatMap ProgramHeader.row, headers.flatMap ProgramHeader.bytes]).flatten

theorem standsAt_flatten {parts : List (List UInt8)} {part : List UInt8} {offset : Nat}
    (front : List (List UInt8)) {back : List (List UInt8)} (hp : parts = front ++ part :: back)
    (ho : front.flatten.length = offset) : StandsAt parts.flatten offset part := by
  refine ⟨front.flatten, back.flatten, ho, ?_⟩
  rw [hp, List.flatten_append, List.flatten_cons]

theorem length_consecutive (offset : Nat) (headers : List ProgramHeader) :
    (consecutive offset headers).length = headers.length := by
  induction headers generalizing offset with
  | nil => rfl
  | cons h rest ih => exact congrArg (· + 1) (ih _)

/-- Where the bytes stand in the file makes no difference to the segments. -/
theorem segments_consecutive (offset : Nat) (headers : List ProgramHeader) :
    ((consecutive offset headers).filter (·.type = 1)).map ProgramHeader.segment =
      (headers.filter (·.type = 1)).map ProgramHeader.segment := by
  induction headers generalizing offset with
  | nil => rfl
  | cons h rest ih =>
    by_cases ht : h.type = 1
    · simp only [consecutive, List.filter_cons, ht, decide_true, if_true, List.map_cons, ih]
      rfl
    · simp only [consecutive, List.filter_cons, ht, decide_false, Bool.false_eq_true, if_false, ih]

theorem standsAt_consecutive {front : List UInt8} {offset : Nat} {headers : List ProgramHeader}
    (ho : front.length = offset)
    (hsize : (front ++ headers.flatMap ProgramHeader.bytes).length < 2 ^ 32) :
    ∀ h ∈ consecutive offset headers,
      StandsAt (front ++ headers.flatMap ProgramHeader.bytes) h.offset.toNat h.bytes := by
  induction headers generalizing front offset with
  | nil => exact nofun
  | cons p rest ih =>
    rw [List.flatMap_cons] at hsize ⊢
    refine List.forall_mem_cons.mpr ⟨⟨front, rest.flatMap ProgramHeader.bytes, ?_, rfl⟩, ?_⟩
    · rw [List.length_append, ho] at hsize
      rw [UInt32.toNat_ofNat', Nat.mod_eq_of_lt (Nat.lt_of_add_right_lt hsize), ho]
    · rw [← List.append_assoc] at hsize ⊢
      exact ih (by rw [List.length_append, ho]) hsize

theorem laidOut_encode {entry : Word} {headers : List ProgramHeader}
    (hsize : (encode entry headers).length < 2 ^ 32) :
    LaidOut entry (consecutive (52 + 32 * headers.length) headers) (encode entry headers) where
  ident := standsAt_flatten [] rfl rfl
  machine := standsAt_flatten [_, _, _] rfl rfl
  start := standsAt_flatten [_, _, _, _, _] rfl rfl
  phoff := standsAt_flatten [_, _, _, _, _, _] rfl rfl
  shoff := standsAt_flatten [_, _, _, _, _, _, _] rfl rfl
  phentsize := standsAt_flatten [_, _, _, _, _, _, _, _, _, _] rfl rfl
  phnum := by
    rw [length_consecutive]
    exact standsAt_flatten [_, _, _, _, _, _, _, _, _, _, _] rfl rfl
  table := standsAt_flatten (headerParts entry headers.length) rfl rfl
  bytes := by
    have hfile : encode entry headers = ((headerParts entry headers.length).flatten ++
        (consecutive (52 + 32 * headers.length) headers).flatMap ProgramHeader.row) ++
          headers.flatMap ProgramHeader.bytes := by
      simp only [encode, List.flatten_append, List.flatten_cons, List.flatten_nil,
        List.append_nil, List.append_assoc]
    rw [hfile] at hsize ⊢
    refine standsAt_consecutive ?_ hsize
    rw [List.length_append, length_rows, length_consecutive]
    rfl

/-- A file laid out for this machine is read as what it was made of: the entry, the loadable headers
as segments in the order of the table, and no symbols. Every list of headers has such a file. -/
theorem laid_out_files_read_back (entry : Word) (headers : List ProgramHeader)
    (hn : headers.length < 65535) :
    (∀ file, LaidOut entry headers file → file.length < 2 ^ 32 →
      Image.read file =
        .ok ⟨entry, (headers.filter (·.type = 1)).map ProgramHeader.segment, []⟩) ∧
    ((encode entry headers).length < 2 ^ 32 →
      Image.read (encode entry headers) =
        .ok ⟨entry, (headers.filter (·.type = 1)).map ProgramHeader.segment, []⟩) := by
  refine ⟨fun file h hsize => h.read hn hsize, fun hsize => ?_⟩
  rw [← segments_consecutive (52 + 32 * headers.length) headers]
  exact (laidOut_encode hsize).read (by rwa [length_consecutive]) hsize

/-- Two loadable headers, one of them all zeros in memory, and a note between them. -/
theorem laid_out_files_read_back_note :
    Image.read (encode 0x100 [⟨1, 0, 0x100, 0x100, [0x13, 0, 0, 0], 4, 5, 4⟩,
        ⟨4, 0, 0, 0, [7, 8, 9], 3, 4, 1⟩, ⟨1, 0, 0x200, 0x200, [], 64, 6, 4⟩]) =
      .ok ⟨0x100, [⟨0x100, 4, 4, [0x13, 0, 0, 0], true, false⟩,
        ⟨0x200, 0, 64, [], false, true⟩], []⟩ :=
  (laid_out_files_read_back _ _ (by decide)).2 (by decide +kernel)

end Elf
end Rv32i
