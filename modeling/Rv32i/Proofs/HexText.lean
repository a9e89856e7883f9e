import Mathlib.Data.List.Forall2
import Mathlib.Data.List.TakeWhile
import Mathlib.Data.Nat.Digits.Defs
import Rv32i.Program.Hex
import Rv32i.Text.Print
import Rv32i.Text.Utf8

namespace Rv32i

namespace Text

theorem dropWhile_of_forall_not {p : Char → Bool} {cs : List Char} (h : ∀ c ∈ cs, p c = false) :
    cs.dropWhile p = cs := by
  cases cs with
  | nil => rfl
  | cons c cs => rw [List.dropWhile_cons_of_neg (by simp [h c List.mem_cons_self])]

theorem dropEndWhile_of_forall_not {p : Char → Bool} {cs : List Char}
    (h : ∀ c ∈ cs, p c = false) : dropEndWhile p cs = cs := by
  have hr : ∀ c ∈ cs.reverse, p c = false := fun c hc => h c (List.mem_reverse.mp hc)
  rw [dropEndWhile, dropWhile_of_forall_not hr, List.reverse_reverse]

theorem trim_of_no_blank {cs : List Char} (h : ∀ c ∈ cs, isBlank c = false) : trim cs = cs := by
  rw [trim, dropWhile_of_forall_not h, dropEndWhile_of_forall_not h]

theorem linesFrom_newline (read line rest : List Char) (h : '\n' ∉ line) :
    linesFrom read (line ++ '\n' :: rest) =
      dropReturn (read.reverse ++ line) :: linesFrom [] rest := by
  induction line generalizing read with
  | nil => simp [linesFrom]
  | cons c line ih =>
    rw [List.mem_cons, not_or] at h
    rw [List.cons_append, linesFrom, if_neg (Ne.symm h.1), ih _ h.2, List.reverse_cons,
      List.append_assoc, List.singleton_append]

theorem linesFrom_last (read line : List Char) (h : '\n' ∉ line) (hne : read.reverse ++ line ≠ []) :
    linesFrom read line = [read.reverse ++ line] := by
  induction line generalizing read with
  | nil =>
    rw [List.append_nil] at hne ⊢
    have hread : read.isEmpty = false := by simpa using hne
    rw [linesFrom, hread]
    rfl
  | cons c line ih =>
    rw [List.mem_cons, not_or] at h
    have hlist : read.reverse ++ c :: line = (c :: read).reverse ++ line := by simp
    rw [linesFrom, if_neg (Ne.symm h.1), hlist]
    exact ih _ h.2 (by simp)

theorem dropReturn_of_not_mem {line : List Char} (h : '\r' ∉ line) : dropReturn line = line := by
  rw [dropReturn, if_neg fun hl => h (List.mem_of_getLast? hl)]

/-- The character stands for the number `d`, from ten on as a letter of either case. -/
def HexDigit (c : Char) (d : Nat) : Prop :=
  d < 16 ∧ (c = Nat.digitChar d ∨ c = (Nat.digitChar d).toUpper)

instance (c : Char) (d : Nat) : Decidable (HexDigit c d) :=
  inferInstanceAs (Decidable (_ ∧ _))

/-- What holds of the sixteen digits in both cases holds of every digit. -/
theorem HexDigit.all {P : Char → Nat → Prop} {c : Char} {d : Nat} (h : HexDigit c d)
    (hp : ∀ d < 16, P (Nat.digitChar d) d ∧ P (Nat.digitChar d).toUpper d) : P c d := by
  obtain ⟨hd, rfl | rfl⟩ := h
  · exact (hp d hd).1
  · exact (hp d hd).2

theorem HexDigit.digit? {c : Char} {d : Nat} (h : HexDigit c d) : digit? 16 c = some d :=
  h.all (P := fun c d => Text.digit? 16 c = some d) (by decide)

theorem foldl_eq_ofDigits (base : Nat) (ds : List Nat) (value : Nat) :
    ds.foldl (fun v d => v * base + d) value =
      value * base ^ ds.length + Nat.ofDigits base ds.reverse := by
  induction ds generalizing value with
  | nil => simp
  | cons d ds ih =>
    rw [List.foldl_cons, ih, List.reverse_cons, Nat.ofDigits_append, List.length_reverse,
      Nat.ofDigits_singleton, List.length_cons, pow_succ]
    ring

/-- Digits are read to their value. On the way it only grows, so it is in range all the time if
it is in the end. -/
theorem readDigits_of_digits {base bound : Nat} (hbase : 0 < base) {cs : List Char} {ds : List Nat}
    (h : List.Forall₂ (fun c d => digit? base c = some d) cs ds) (value : Nat)
    (hv : ds.foldl (fun v d => v * base + d) value < bound) :
    readDigits base bound value cs = .ok (ds.foldl (fun v d => v * base + d) value) := by
  induction h generalizing value with
  | nil => rfl
  | @cons c d cs ds hc _ ih =>
    rw [List.foldl_cons] at hv ⊢
    have hnow : value * base + d < bound := by
      have hgrow := foldl_eq_ofDigits base ds (value * base + d)
      have hpow : 0 < base ^ ds.length := Nat.pow_pos hbase
      have hle : value * base + d ≤ (value * base + d) * base ^ ds.length :=
        Nat.le_mul_of_pos_right _ hpow
      omega
    simp only [readDigits, hc, if_pos hnow]
    exact ih _ hv

theorem exists_digits_toDigits {base : Nat} (hbase : 1 < base) (n : Nat) :
    ∃ ds, List.Forall₂ (fun c d => d < base ∧ c = Nat.digitChar d) (Nat.toDigits base n) ds ∧
      Nat.ofDigits base ds.reverse = n := by
  induction n using Nat.strongRecOn with
  | ind n ih =>
    rw [Nat.toDigits_eq_if hbase]
    split
    · rename_i hlt
      exact ⟨[n], .cons ⟨hlt, rfl⟩ .nil, by simp⟩
    · rename_i hge
      obtain ⟨ds, hds, hvalue⟩ := ih (n / base) (Nat.div_lt_self (by omega) hbase)
      have hlast : n % base < base := Nat.mod_lt _ (by omega)
      refine ⟨ds ++ [n % base], List.rel_append hds (.cons ⟨hlast, rfl⟩ .nil), ?_⟩
      rw [List.reverse_append, List.reverse_singleton, List.singleton_append, Nat.ofDigits_cons,
        hvalue]
      exact Nat.mod_add_div n base

/-- The digits of a number have its value, whatever zeros are in front. -/
theorem exists_digits {base : Nat} (hbase : 1 < base) (width n : Nat) :
    ∃ ds, List.Forall₂ (fun c d => d < base ∧ c = Nat.digitChar d) (digits base width n).toList ds ∧
      Nat.ofDigits base ds.reverse = n := by
  obtain ⟨ds, hds, hvalue⟩ := exists_digits_toDigits hbase n
  let zeros := width - (Nat.toDigits base n).length
  have hzeros : List.Forall₂ (fun c d => d < base ∧ c = Nat.digitChar d)
      (List.replicate zeros '0') (List.replicate zeros 0) := by
    induction zeros with
    | zero => exact .nil
    | succ count ih => exact .cons ⟨by omega, rfl⟩ ih
  refine ⟨List.replicate zeros 0 ++ ds, ?_, ?_⟩
  · rw [digits, String.toList_ofList]
    exact List.rel_append hzeros hds
  · rw [List.reverse_append, List.reverse_replicate, Nat.ofDigits_append_replicate_zero, hvalue]

theorem digits_ne_nil (base width n : Nat) : (digits base width n).toList ≠ [] := by
  simp [digits, Nat.toDigits_ne_nil]

theorem hexDigits_toDigits (n : Nat) :
    ∃ ds, List.Forall₂ HexDigit (Nat.toDigits 16 n) ds ∧ Nat.ofDigits 16 ds.reverse = n := by
  obtain ⟨ds, hds, hvalue⟩ := exists_digits_toDigits (show 1 < 16 by decide) n
  exact ⟨ds, hds.imp fun _ _ h => ⟨h.1, .inl h.2⟩, hvalue⟩

theorem readNumber_of_head {base bound : Nat} {cs : List Char} (hne : cs ≠ [])
    (h : '+' ∉ cs) : readNumber base bound cs = readDigits base bound 0 cs := by
  unfold readNumber
  split
  · exact absurd rfl hne
  · simp at h
  · simp at h
  · rfl

theorem afterHexMark?_of_not_mem {cs : List Char} (hx : 'x' ∉ cs) (hX : 'X' ∉ cs) :
    afterHexMark? cs = none := by
  unfold afterHexMark?
  split
  · simp at hx
  · simp at hX
  · rfl

namespace Utf8

/-- Bytes below 128 are the characters with these numbers. -/
theorem decodeFrom_ascii {cs : List Char} (h : ∀ c ∈ cs, c.toNat < 128) :
    decodeFrom .start (cs.map fun c => UInt8.ofNat c.toNat) = cs.map some := by
  induction cs with
  | nil => rfl
  | cons c cs ih =>
    have hc : c.toNat < 128 := h c List.mem_cons_self
    have hn : (UInt8.ofNat c.toNat).toNat = c.toNat := by
      rw [UInt8.toNat_ofNat']
      omega
    have hlt : UInt8.ofNat c.toNat < 0x80 := by
      rw [UInt8.lt_iff_toNat_lt, hn]
      exact hc
    rw [List.map_cons, List.map_cons, decodeFrom, next, lead, if_pos hlt, hn, Char.ofNat_toNat]
    exact congrArg (some c :: ·) (ih fun d hd => h d (List.mem_cons_of_mem c hd))

theorem toUTF8_ascii {text : String} (h : ∀ c ∈ text.toList, c.toNat < 128) :
    text.toUTF8.data.toList = text.toList.map fun c => UInt8.ofNat c.toNat := by
  have hone : ∀ c ∈ text.toList, String.utf8EncodeChar c = [UInt8.ofNat c.toNat] := by
    intro c hc
    have hle : c.val.toNat ≤ 127 := Nat.le_of_lt_succ (h c hc)
    rw [String.utf8EncodeChar.eq_1, if_pos hle]
    rfl
  rw [String.toUTF8_eq_toByteArray, ← String.utf8Encode_toList, List.utf8Encode,
    List.toList_data_toByteArray, List.flatMap_def, List.map_congr_left hone, ← List.flatMap_def,
    ← List.map_eq_flatMap]

/-- A text of ASCII characters is read back from its file. -/
theorem decodeLossy_toUTF8 {text : String} (h : ∀ c ∈ text.toList, c.toNat < 128) :
    decodeLossy text.toUTF8.data.toList = text := by
  rw [toUTF8_ascii h, decodeLossy, decodeFrom_ascii h, List.map_map]
  simp

end Utf8
end Text

namespace Program
open Text

/-- What may stand in front of the digits. -/
def hexMarks : List (List Char) :=
  [[], ['0', 'x'], ['0', 'X']]

/-- The line says `w` in hexadecimal, with any number of zeros in front. -/
def Spells (w : Word) (line : List Char) : Prop :=
  ∃ mark ∈ hexMarks, ∃ cs ds, line = mark ++ cs ∧ cs ≠ [] ∧ List.Forall₂ HexDigit cs ds ∧
    Nat.ofDigits 16 ds.reverse = w.toNat

/-- The text has a line for each of the words. The last line may lack its end. -/
inductive Lists : List Word → List Char → Prop where
  | none : Lists [] []
  | last {w : Word} {line : List Char} (h : Spells w line) : Lists [w] line
  | next {w : Word} {ws : List Word} {line text : List Char} (h : Spells w line)
      (hs : Lists ws text) : Lists (w :: ws) (line ++ '\n' :: text)

/-- A character that no line is cut at, of plain ASCII. -/
def Plain (c : Char) : Prop :=
  c.toNat < 128 ∧ isBlank c = false ∧ c ≠ '/' ∧ c ≠ '#' ∧ c ≠ ','

instance (c : Char) : Decidable (Plain c) :=
  inferInstanceAs (Decidable (_ ∧ _))

theorem beforeSlashes_of_not_mem {line : List Char} (h : '/' ∉ line) :
    beforeSlashes line = line := by
  fun_induction beforeSlashes line with
  | case1 => simp at h
  | case2 c cs _ ih => rw [ih (List.not_mem_of_not_mem_cons h)]
  | case3 => rfl

theorem hexCode_of_plain {line : List Char} (h : ∀ c ∈ line, Plain c) : hexCode line = line := by
  have hslash : '/' ∉ line := fun hc => (h _ hc).2.2.1 rfl
  have hblank : ∀ c ∈ line, isBlank c = false := fun c hc => (h c hc).2.1
  have hcut : line.takeWhile (· ≠ '#') = line :=
    List.takeWhile_eq_self_iff.mpr fun c hc => by simpa using (h c hc).2.2.2.1
  have hcomma : ∀ c ∈ line, decide (c = ',') = false :=
    fun c hc => decide_eq_false (h c hc).2.2.2.2
  rw [hexCode, beforeSlashes_of_not_mem hslash, hcut, trim_of_no_blank hblank,
    dropEndWhile_of_forall_not hcomma, trim_of_no_blank hblank]

theorem digits_plain {cs : List Char} {ds : List Nat} (h : List.Forall₂ HexDigit cs ds) :
    ∀ c ∈ cs, Plain c ∧ c ≠ '_' ∧ c ≠ '+' ∧ c ≠ 'x' ∧ c ≠ 'X' := by
  induction h with
  | nil => exact nofun
  | cons hc _ ih =>
    intro c hmem
    rcases List.mem_cons.mp hmem with rfl | hmem
    · exact hc.all (P := fun c _ => Plain c ∧ c ≠ '_' ∧ c ≠ '+' ∧ c ≠ 'x' ∧ c ≠ 'X') (by decide)
    · exact ih c hmem

theorem mark_plain {mark : List Char} (hmark : mark ∈ hexMarks) : ∀ c ∈ mark, Plain c := by
  have hall : ∀ mark ∈ hexMarks, mark.all (fun c => decide (Plain c)) = true := by decide
  exact fun c hc => of_decide_eq_true (List.all_eq_true.mp (hall mark hmark) c hc)

theorem Spells.plain {w : Word} {line : List Char} (h : Spells w line) : ∀ c ∈ line, Plain c := by
  obtain ⟨mark, hmark, cs, ds, rfl, _, hd, _⟩ := h
  intro c hc
  rcases List.mem_append.mp hc with hc | hc
  · exact mark_plain hmark c hc
  · exact (digits_plain hd c hc).1

/-- A mark in front of a text without its letter is taken away, and nothing else. -/
theorem afterHexMark?_append {mark cs : List Char} (hmark : mark ∈ hexMarks) (hx : 'x' ∉ cs)
    (hX : 'X' ∉ cs) : (afterHexMark? (mark ++ cs)).getD (mark ++ cs) = cs := by
  simp only [hexMarks, List.mem_cons, List.not_mem_nil, or_false] at hmark
  rcases hmark with rfl | rfl | rfl
  · rw [List.nil_append, afterHexMark?_of_not_mem hx hX]
    rfl
  · rfl
  · rfl

theorem Spells.readHexWord {w : Word} {line : List Char} (h : Spells w line) :
    readHexWord line = .ok w := by
  obtain ⟨mark, hmark, cs, ds, rfl, hne, hd, hvalue⟩ := h
  have hplain := digits_plain hd
  have hafter : (afterHexMark? (mark ++ cs)).getD (mark ++ cs) = cs :=
    afterHexMark?_append hmark (fun hc => (hplain _ hc).2.2.2.1 rfl)
      (fun hc => (hplain _ hc).2.2.2.2 rfl)
  have hkeep : dropUnderscores cs = cs :=
    List.filter_eq_self.mpr fun c hc => by simpa using (hplain c hc).2.1
  have hfold : ds.foldl (fun v d => v * 16 + d) 0 = w.toNat := by
    rw [foldl_eq_ofDigits, Nat.zero_mul, Nat.zero_add, hvalue]
  have hdigits := hd.imp fun _ _ => HexDigit.digit?
  have hread : readNumber 16 UInt32.size cs = .ok w.toNat := by
    rw [readNumber_of_head hne fun hc => (hplain _ hc).2.2.1 rfl,
      readDigits_of_digits (by decide) hdigits 0 (by rw [hfold]; exact w.toNat_lt), hfold]
  rw [Program.readHexWord, hafter, hkeep, hread]
  exact congrArg Except.ok w.ofNat_toNat

theorem Spells.ne_nil {w : Word} {line : List Char} (h : Spells w line) : line ≠ [] := by
  obtain ⟨mark, _, cs, _, rfl, hne, _⟩ := h
  simp [hne]

theorem Spells.one_line {w : Word} {line : List Char} (h : Spells w line) :
    '\n' ∉ line ∧ '\r' ∉ line :=
  ⟨fun hc => absurd (h.plain _ hc) (by decide), fun hc => absurd (h.plain _ hc) (by decide)⟩

theorem readHexLines_of_spells {ws : List Word} {ls : List (List Char)}
    (h : List.Forall₂ Spells ws ls) (line : Nat) : readHexLines line ls = .ok ws := by
  induction h generalizing line with
  | nil => rfl
  | @cons w l ws ls hw _ ih =>
    have hsome : l.isEmpty = false := by simpa using hw.ne_nil
    simp only [readHexLines, hexCode_of_plain hw.plain, hsome, hw.readHexWord, ih]
    rfl

theorem Lists.lines {ws : List Word} {text : List Char} (h : Lists ws text) :
    List.Forall₂ Spells ws (lines text) := by
  induction h with
  | none => exact .nil
  | @last w line hw =>
    have hl : Text.lines line = [line] := linesFrom_last [] line hw.one_line.1 hw.ne_nil
    rw [hl]
    exact .cons hw .nil
  | @next w ws line text hw _ ih =>
    have hl : Text.lines (line ++ '\n' :: text) = line :: Text.lines text := by
      have hcut := linesFrom_newline [] line text hw.one_line.1
      rwa [List.reverse_nil, List.nil_append, dropReturn_of_not_mem hw.one_line.2] at hcut
    rw [hl]
    exact .cons hw ih

theorem Lists.ascii {ws : List Word} {text : List Char} (h : Lists ws text) :
    ∀ c ∈ text, c.toNat < 128 := by
  induction h with
  | none => exact nofun
  | last hw => exact fun c hc => (hw.plain c hc).1
  | next hw _ ih =>
    intro c hc
    rcases List.mem_append.mp hc with hc | hc
    · exact (hw.plain c hc).1
    · rcases List.mem_cons.mp hc with rfl | hc
      · decide
      · exact ih c hc

/-- Words as they are written elsewhere are spelled the way they are read here. -/
theorem spells_hexWord (w : Word) : Spells w (hexWord w).toList := by
  obtain ⟨ds, hds, hvalue⟩ := exists_digits (show 1 < 16 by decide) 8 w.toNat
  refine ⟨['0', 'x'], by decide, (Text.digits 16 8 w.toNat).toList, ds, ?_, digits_ne_nil _ _ _,
    hds.imp fun _ _ h => ⟨h.1, .inl h.2⟩, hvalue⟩
  rw [hexWord, hex, String.toList_append]
  rfl

/-- One word a line, each with its mark and eight digits. -/
def listing (ws : List Word) : String :=
  String.ofList (ws.flatMap fun w => (hexWord w).toList ++ ['\n'])

theorem lists_listing (ws : List Word) : Lists ws (listing ws).toList := by
  rw [listing, String.toList_ofList]
  induction ws with
  | nil => exact .none
  | cons w ws ih =>
    rw [List.flatMap_cons, List.append_assoc, List.singleton_append]
    exact .next (spells_hexWord w) ih

/-- Words that a text lists are the words read from it. -/
theorem Lists.readHex {ws : List Word} {text : String} (h : Lists ws text.toList) :
    readHex text = .ok ws :=
  readHexLines_of_spells h.lines 1

end Program
end Rv32i
