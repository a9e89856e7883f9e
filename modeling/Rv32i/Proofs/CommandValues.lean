import Rv32i.Command.Value
import Rv32i.Proofs.HexGrammar

namespace Rv32i

namespace Text

/-- The character is the decimal digit of the number `d`. -/
def DecimalDigit (c : Char) (d : Nat) : Prop :=
  d < 10 ∧ c = Nat.digitChar d

theorem DecimalDigit.hexDigit {c : Char} {d : Nat} (h : DecimalDigit c d) : HexDigit c d :=
  ⟨Nat.lt_trans h.1 (by decide), .inl h.2⟩

/-- Decimal digits are the hexadecimal ones that are no letters. -/
theorem decimalDigit_iff_hexDigit {c : Char} {d : Nat} :
    DecimalDigit c d ↔ HexDigit c d ∧ d < 10 := by
  constructor
  · exact fun h => ⟨h.hexDigit, h.1⟩
  · rintro ⟨⟨_, rfl | rfl⟩, hd⟩
    · exact ⟨hd, rfl⟩
    · have hupper : ∀ d < 10, (Nat.digitChar d).toUpper = Nat.digitChar d := by decide
      exact ⟨hd, hupper d hd⟩

theorem decimalDigit_iff {c : Char} {d : Nat} : DecimalDigit c d ↔ digit? 10 c = some d := by
  rw [decimalDigit_iff_hexDigit, hexDigit_iff]
  simp only [digit?, Option.filter_eq_some_iff, decide_eq_true_eq]
  constructor
  · rintro ⟨⟨hvalue, -⟩, hd⟩
    exact ⟨hvalue, hd⟩
  · rintro ⟨hvalue, hd⟩
    exact ⟨⟨hvalue, by omega⟩, hd⟩

/-- The text is the number `n`: an optional plus sign and at least one digit. -/
def Numeral (base : Nat) (Digit : Char → Nat → Prop) (n : Nat) (cs : List Char) : Prop :=
  ∃ sign digits ds, cs = sign ++ digits ∧ sign ∈ [[], ['+']] ∧ digits ≠ [] ∧
    List.Forall₂ Digit digits ds ∧ Nat.ofDigits base ds.reverse = n

theorem Numeral.plain {base n : Nat} {Digit : Char → Nat → Prop} {cs : List Char}
    (h : Numeral base Digit n cs) (hdigit : ∀ c d, Digit c d → HexDigit c d) :
    ∀ c ∈ cs, Program.Plain c ∧ c ≠ 'x' ∧ c ≠ 'X' ∧ c ≠ '=' := by
  obtain ⟨sign, digits, ds, rfl, hsign, -, hds, -⟩ := h
  exact Program.signed_plain hsign (hds.imp hdigit)

theorem readNumber_iff_numeral {base bound n : Nat} {Digit : Char → Nat → Prop} {cs : List Char}
    (hbase : 0 < base) (hdigit : ∀ c d, Digit c d ↔ digit? base c = some d) (hn : n < bound) :
    readNumber base bound cs = .ok n ↔ Numeral base Digit n cs := by
  have hdigits : Digit = fun c d => digit? base c = some d := by
    funext c d
    exact propext (hdigit c d)
  rw [readNumber_eq_ok_iff hbase (by omega), Numeral, hdigits]
  simp [hn]

theorem afterHexMark?_eq_some_iff {cs rest : List Char} :
    afterHexMark? cs = some rest ↔ ∃ mark ∈ [['0', 'x'], ['0', 'X']], cs = mark ++ rest := by
  constructor
  · intro h
    unfold afterHexMark? at h
    split at h
    · cases h
      exact ⟨['0', 'x'], by simp, rfl⟩
    · cases h
      exact ⟨['0', 'X'], by simp, rfl⟩
    · cases h
  · rintro ⟨mark, hmark, rfl⟩
    simp only [List.mem_cons, List.not_mem_nil, or_false] at hmark
    rcases hmark with rfl | rfl
    · rfl
    · rfl

end Text

namespace Command
open Text

/-- The text is a number in decimal, or in hexadecimal behind its mark, and the number is `w`. -/
inductive Means (w : Word) : List Char → Prop where
  | decimal {cs : List Char} (h : Numeral 10 DecimalDigit w.toNat cs) : Means w cs
  | hex {mark cs : List Char} (hmark : mark ∈ [['0', 'x'], ['0', 'X']])
      (h : Numeral 16 HexDigit w.toNat cs) : Means w (mark ++ cs)

/-- Ways to write `w` down, with any number of zeros in front and each letter in either case. -/
inductive Written (w : Word) : List Char → Prop where
  | decimal (width : Nat) : Written w (Text.digits 10 width w.toNat).toList
  | hex {mark cs : List Char} (width : Nat) (hmark : mark ∈ [['0', 'x'], ['0', 'X']])
      (h : List.Forall₂ (fun c d => c = d ∨ c = d.toUpper) cs
        (Text.digits 16 width w.toNat).toList) :
      Written w (mark ++ cs)

theorem Means.plain {w : Word} {cs : List Char} (h : Means w cs) :
    ∀ c ∈ cs, isBlank c = false ∧ c ≠ '=' := by
  intro c hc
  cases h with
  | decimal h =>
    obtain ⟨hplain, -, -, hne⟩ := h.plain (fun _ _ => DecimalDigit.hexDigit) c hc
    exact ⟨hplain.2.1, hne⟩
  | hex hmark h =>
    rcases List.mem_append.mp hc with hc | hc
    · have hall : ∀ mark ∈ [['0', 'x'], ['0', 'X']],
          mark.all (fun c => decide (isBlank c = false ∧ c ≠ '=')) = true := by decide
      exact of_decide_eq_true (List.all_eq_true.mp (hall _ hmark) c hc)
    · obtain ⟨hplain, -, -, hne⟩ := h.plain (fun _ _ => id) c hc
      exact ⟨hplain.2.1, hne⟩

/-- The number read from what is left of a text without white space around it and underscores. -/
def readCleaned (cs : List Char) : Except NumberError Nat :=
  match afterHexMark? cs with
  | some rest => readNumber 16 UInt32.size rest
  | none => readNumber 10 UInt32.size cs

theorem readCleaned_lt {cs : List Char} {n : Nat} (h : readCleaned cs = .ok n) :
    n < UInt32.size := by
  unfold readCleaned at h
  split at h
  · exact readNumber_lt (by decide) (by decide) h
  · exact readNumber_lt (by decide) (by decide) h

theorem means_iff {w : Word} {cs : List Char} : Means w cs ↔ readCleaned cs = .ok w.toNat := by
  have hdecimal (cs : List Char) :
      readNumber 10 UInt32.size cs = .ok w.toNat ↔ Numeral 10 DecimalDigit w.toNat cs :=
    readNumber_iff_numeral (by decide) (fun _ _ => decimalDigit_iff) w.toNat_lt
  have hhex (cs : List Char) :
      readNumber 16 UInt32.size cs = .ok w.toNat ↔ Numeral 16 HexDigit w.toNat cs :=
    readNumber_iff_numeral (by decide) (fun _ _ => hexDigit_iff) w.toNat_lt
  constructor
  · intro h
    cases h with
    | decimal h =>
      have hplain := h.plain fun _ _ => DecimalDigit.hexDigit
      -- a decimal number has no mark, since the letter of the mark is no digit
      have hmark : afterHexMark? cs = none := afterHexMark?_of_not_mem
        (fun hc => (hplain _ hc).2.1 rfl) (fun hc => (hplain _ hc).2.2.1 rfl)
      rw [readCleaned, hmark]
      exact (hdecimal cs).mpr h
    | @hex mark rest hmark h =>
      rw [readCleaned, afterHexMark?_eq_some_iff.mpr ⟨mark, hmark, rfl⟩]
      exact (hhex rest).mpr h
  · intro h
    rw [readCleaned] at h
    cases hafter : afterHexMark? cs with
    | none =>
      rw [hafter] at h
      exact .decimal ((hdecimal cs).mp h)
    | some rest =>
      rw [hafter] at h
      obtain ⟨mark, hmark, rfl⟩ := afterHexMark?_eq_some_iff.mp hafter
      exact .hex hmark ((hhex rest).mp h)

theorem readWord_eq (given : String) :
    readWord given =
      ((readCleaned (dropUnderscores (trim given.toList))).mapError
        (.word (.ofList (dropUnderscores (trim given.toList))))).map UInt32.ofNat := by
  cases hmark : afterHexMark? (dropUnderscores (trim given.toList)) with
  | none =>
    simp only [readWord, readCleaned, hmark]
    cases readNumber 10 UInt32.size (dropUnderscores (trim given.toList)) with
    | error e => rfl
    | ok n => rfl
  | some rest =>
    simp only [readWord, readCleaned, hmark]
    cases readNumber 16 UInt32.size rest with
    | error e => rfl
    | ok n => rfl

theorem readWord_eq_ok_iff {given : String} {w : Word} :
    readWord given = .ok w ↔ ∃ core, Trimmed given.toList core ∧ Means w (core.filter (· ≠ '_')) := by
  simp only [trimmed_iff, exists_eq_left', means_iff]
  rw [← dropUnderscores]
  cases hread : readCleaned (dropUnderscores (trim given.toList)) with
  | error e => simp [readWord_eq, hread, Except.mapError, Except.map]
  | ok n =>
    have hn : (UInt32.ofNat n).toNat = n := UInt32.toNat_ofNat_of_lt' (readCleaned_lt hread)
    simp only [readWord_eq, hread, Except.mapError, Except.map, Except.ok.injEq]
    rw [← UInt32.toNat_inj, hn]

/-- An accepted text has no equals sign, not even in what does not count. -/
theorem not_mem_of_readWord {given : String} {w : Word} (h : readWord given = .ok w) :
    '=' ∉ given.toList := by
  obtain ⟨core, ⟨front, back, hgiven, hfront, hback, -, -⟩, hmeans⟩ := readWord_eq_ok_iff.mp h
  intro hc
  rw [hgiven, List.mem_append, List.mem_append] at hc
  rcases hc with hc | hc | hc
  · exact absurd (hfront _ hc) (by decide)
  · exact (hmeans.plain '=' (List.mem_filter.mpr ⟨hc, by decide⟩)).2 rfl
  · exact absurd (hback _ hc) (by decide)

theorem hexDigits_of_either_case {cs text : List Char} {ds : List Nat}
    (h : List.Forall₂ (fun c d => c = d ∨ c = d.toUpper) cs text)
    (hd : List.Forall₂ (fun c d => d < 16 ∧ c = Nat.digitChar d) text ds) :
    List.Forall₂ HexDigit cs ds := by
  induction h generalizing ds with
  | nil =>
    cases hd
    exact .nil
  | cons hc _ ih =>
    cases hd with
    | cons hd hds => exact .cons ⟨hd.1, hd.2 ▸ hc⟩ (ih hds)

theorem Written.means {w : Word} {cs : List Char} (h : Written w cs) : Means w cs := by
  cases h with
  | decimal width =>
    obtain ⟨ds, hds, hvalue⟩ := exists_digits (show 1 < 10 by decide) width w.toNat
    exact .decimal ⟨[], _, ds, (List.nil_append _).symm, by simp, digits_ne_nil _ _ _, hds, hvalue⟩
  | @hex mark cs width hmark h =>
    obtain ⟨ds, hds, hvalue⟩ := exists_digits (show 1 < 16 by decide) width w.toNat
    have hne : cs ≠ [] := by
      rintro rfl
      exact digits_ne_nil _ _ _ (List.forall₂_nil_left_iff.mp h)
    exact .hex hmark ⟨[], cs, ds, rfl, by simp, hne, hexDigits_of_either_case h hds, hvalue⟩

/-- No character of a written number is taken away with the white space around it. -/
theorem readWord_of_written {given : String} {w : Word} {front core back : List Char}
    (hgiven : given.toList = front ++ (core ++ back)) (hblank : ∀ c ∈ front ++ back, isBlank c = true)
    (h : Written w (core.filter (· ≠ '_'))) : readWord given = .ok w := by
  have hcore : ∀ c ∈ core, isBlank c = false := by
    intro c hc
    by_cases hunder : c = '_'
    · rw [hunder]
      rfl
    · exact (h.means.plain c (List.mem_filter.mpr ⟨hc, by simpa using hunder⟩)).1
  refine readWord_eq_ok_iff.mpr ⟨core, ⟨front, back, hgiven, ?_, ?_, ?_, ?_⟩, h.means⟩
  · exact fun c hc => hblank c (List.mem_append_left _ hc)
  · exact fun c hc => hblank c (List.mem_append_right _ hc)
  · exact fun c hc => hcore c (List.mem_of_mem_head? hc)
  · exact fun c hc => hcore c (List.mem_of_getLast? hc)

theorem readSentinel_of_not_mem {given : String} (h : '=' ∉ given.toList) :
    readSentinel given = .error (.pair given) := by
  have hdrop : given.toList.dropWhile (· ≠ '=') = [] := by
    rw [List.dropWhile_eq_nil_iff]
    intro c hc
    simp only [ne_eq, decide_not, Bool.not_eq_eq_eq_not, Bool.not_true, decide_eq_false_iff_not]
    rintro rfl
    exact h hc
  rw [readSentinel, hdrop]

/-- The first equals sign divides. -/
theorem readSentinel_eq_ok_iff {given : String} {addr value : List Char} {p : Probe}
    (hgiven : given.toList = addr ++ '=' :: value) (haddr : '=' ∉ addr) :
    readSentinel given = .ok p ↔ ∃ a v, readWord (.ofList addr) = .ok a ∧
      readWord (.ofList value) = .ok v ∧ p = .sentinel a v := by
  have hfront : ∀ c ∈ addr, decide (c ≠ '=') = true := by
    intro c hc
    rw [decide_eq_true_eq]
    rintro rfl
    exact haddr hc
  have htake : given.toList.takeWhile (· ≠ '=') = addr := by
    rw [hgiven, List.takeWhile_append_of_pos hfront]
    simp
  have hdrop : given.toList.dropWhile (· ≠ '=') = '=' :: value := by
    rw [hgiven]
    exact dropWhile_append_of_boundary hfront (by simp)
  rw [readSentinel, hdrop, htake]
  cases readWord (.ofList addr) with
  | error e => simp
  | ok a =>
    cases hv : readWord (.ofList value) with
    | error e => simp [hv]
    | ok v => simp [hv, eq_comm]

/-- A word is read from exactly the texts that mean it, and so from all ways to write it down, with
underscores at any place and white space around. A sentinel is read from exactly the texts with one
equals sign and a word on each side of it. -/
theorem values_read_exactly (given : String) :
    (∀ w, readWord given = .ok w ↔
      ∃ core, Trimmed given.toList core ∧ Means w (core.filter (· ≠ '_'))) ∧
    (∀ w front core back, given.toList = front ++ (core ++ back) →
      (∀ c ∈ front ++ back, isBlank c = true) → Written w (core.filter (· ≠ '_')) →
      readWord given = .ok w) ∧
    ∀ p, readSentinel given = .ok p ↔ ∃ addr value a v, given.toList = addr ++ '=' :: value ∧
      '=' ∉ addr ∧ '=' ∉ value ∧ readWord (.ofList addr) = .ok a ∧
      readWord (.ofList value) = .ok v ∧ p = .sentinel a v := by
  refine ⟨fun w => readWord_eq_ok_iff, fun w front core back => readWord_of_written, ?_⟩
  intro p
  constructor
  · intro h
    by_cases hmem : '=' ∈ given.toList
    · obtain ⟨addr, value, hgiven, haddr⟩ := List.eq_append_cons_of_mem hmem
      obtain ⟨a, v, ha, hv, hp⟩ := (readSentinel_eq_ok_iff hgiven haddr).mp h
      -- a second equals sign would stand in the value, which is no number then
      have hvalue := not_mem_of_readWord hv
      rw [String.toList_ofList] at hvalue
      exact ⟨addr, value, a, v, hgiven, haddr, hvalue, ha, hv, hp⟩
    · cases (readSentinel_of_not_mem hmem).symm.trans h
  · rintro ⟨addr, value, a, v, hgiven, haddr, -, ha, hv, hp⟩
    exact (readSentinel_eq_ok_iff hgiven haddr).mpr ⟨a, v, ha, hv, hp⟩

/-- A mark with an underscore in it, letters of both cases and a number of the largest size, and a
sentinel with a plus sign and white space behind its equals sign. -/
theorem values_read_exactly_mixed :
    (∃ core, Trimmed "\t0_X+0_FFFFffff ".toList core ∧
      Means 0xFFFFFFFF (core.filter (· ≠ '_'))) ∧
    Written 0xFE ("0_x0_0Fe_".toList.filter (· ≠ '_')) ∧ readWord " 0_x0_0Fe_\n" = .ok 0xFE ∧
    ∃ addr value a v, "0x10= +5".toList = addr ++ '=' :: value ∧ '=' ∉ addr ∧ '=' ∉ value ∧
      readWord (.ofList addr) = .ok a ∧ readWord (.ofList value) = .ok v ∧
      Probe.sentinel 0x10 5 = .sentinel a v := by
  have hdigits : List.Forall₂ (fun c d => c = d ∨ c = d.toUpper) ['0', '0', 'F', 'e']
      (Text.digits 16 4 (0xFE : Word).toNat).toList :=
    .cons (.inl rfl) (.cons (.inl rfl) (.cons (.inr rfl) (.cons (.inl rfl) .nil)))
  have hmark : ['0', 'x'] ∈ [['0', 'x'], ['0', 'X']] := List.mem_cons_self
  have hwritten : Written 0xFE ("0_x0_0Fe_".toList.filter (· ≠ '_')) :=
    Written.hex 4 hmark hdigits
  refine ⟨((values_read_exactly _).1 _).mp (by decide), hwritten, ?_,
    ((values_read_exactly _).2.2 _).mp (by decide)⟩
  exact (values_read_exactly _).2.1 _ [' '] "0_x0_0Fe_".toList ['\n'] rfl
    (List.all_eq_true.mp (by decide)) hwritten

end Command
end Rv32i
