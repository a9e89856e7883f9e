import Rv32i.Proofs.CommandValues

namespace Rv32i

namespace Program
open Text

theorem denotes_iff_numeral {w : Word} {code : List Char} :
    Denotes w code ↔ ∃ mark ∈ hexMarks, ∃ body, code = mark ++ body ∧
      Numeral 16 HexDigit w.toNat (body.filter (· ≠ '_')) := by
  constructor
  · rintro ⟨mark, hmark, body, sign, digits, ds, hcode, hbody, hnumber⟩
    exact ⟨mark, hmark, body, hcode, sign, digits, ds, hbody, hnumber⟩
  · rintro ⟨mark, hmark, body, hcode, sign, digits, ds, hbody, hnumber⟩
    exact ⟨mark, hmark, body, sign, digits, ds, hcode, hbody, hnumber⟩

/-- In a line without commas and comments only the white space around the code is no code. -/
theorem codeOf_of_trimmed {line core : List Char} (h : Trimmed line core)
    (hline : ∀ c ∈ line, c ∉ ['\n', ',', '#', '/']) : CodeOf line core := by
  obtain ⟨front, back, rfl, hfront, hback, hhead, hlast⟩ := h
  have hcomment : ∀ c ∈ front ++ (core ++ back), c ≠ '#' ∧ c ≠ '/' := by
    intro c hc
    have hnot := hline c hc
    simp only [List.mem_cons, not_or] at hnot
    exact ⟨hnot.2.2.1, hnot.2.2.2.1⟩
  have hall := uncommented_append hcomment (.inl rfl)
  rw [List.append_nil] at hall
  refine ⟨_, core, core, hall, ⟨front, back, rfl, hfront, hback, hhead, hlast⟩, ?_, ?_⟩
  · refine ⟨[], (List.append_nil core).symm, nofun, fun c hc => decide_eq_false ?_⟩
    rintro rfl
    exact hline ',' (by simp [List.mem_of_getLast? hc]) (by simp)
  · exact ⟨[], [], by simp, nofun, nofun, hhead, hlast⟩

section
variable {given : String} {core : List Char} (hcode : CodeOf given.toList core)
  (hbreak : '\n' ∉ given.toList)
include hcode hbreak

theorem readHex_line (hne : core ≠ []) :
    readHex given = readHexLines 1 [given.toList] := by
  have hgiven : given.toList ≠ [] := by
    intro hnil
    rw [hnil] at hcode
    exact hne (codeOf_iff.mp hcode).symm
  rw [readHex, (Lines.last hgiven hbreak).lines_eq]

theorem readHex_of_denotes {w : Word} (hw : Denotes w core) : readHex given = .ok [w] := by
  rw [readHex_line hcode hbreak hw.ne_nil, readHexLines_word hcode hw]
  rfl

theorem readHex_of_not_denotes (hne : core ≠ []) (hbad : ∀ w, ¬ Denotes w core) :
    readHex given = .error ⟨1, String.ofList core⟩ := by
  rw [readHex_line hcode hbreak hne, readHexLines_garbled ⟨hcode, hne, hbad⟩]

theorem readHex_of_empty (hnil : core = []) : readHex given = .ok [] := by
  by_cases hgiven : given.toList = []
  · exact Reads.nil.readHex (hgiven ▸ Lines.none)
  · exact (Reads.skip (hnil ▸ hcode) .nil).readHex (.last hgiven hbreak)

/-- A text of one line has the word that its code says. -/
theorem readHex_eq_singleton_iff {w : Word} : readHex given = .ok [w] ↔ Denotes w core := by
  constructor
  · intro h
    by_cases hnil : core = []
    · cases h.symm.trans (readHex_of_empty hcode hbreak hnil)
    · by_cases hword : ∃ v, Denotes v core
      · obtain ⟨v, hv⟩ := hword
        cases h.symm.trans (readHex_of_denotes hcode hbreak hv)
        exact hv
      · cases h.symm.trans (readHex_of_not_denotes hcode hbreak hnil (not_exists.mp hword))
  · exact readHex_of_denotes hcode hbreak

end
end Program

namespace Command
open Text

/-- The mark with this letter, a number of times. -/
def marks (letter : Char) (count : Nat) : List Char :=
  (List.replicate count ['0', letter]).flatten

@[simp] theorem marks_zero (letter : Char) : marks letter 0 = [] := rfl

@[simp] theorem marks_succ (letter : Char) (count : Nat) :
    marks letter (count + 1) = '0' :: letter :: marks letter count := by
  simp [marks, List.replicate_succ]

theorem mem_marks {letter c : Char} {count : Nat} (h : c ∈ marks letter count) :
    c = '0' ∨ c = letter := by
  induction count with
  | zero => cases h
  | succ count ih =>
    rw [marks_succ, List.mem_cons, List.mem_cons] at h
    rcases h with h | h | h
    · exact .inl h
    · exact .inr h
    · exact ih h

theorem dropMarks_marks_append (letter : Char) (count : Nat) (rest : List Char) :
    dropMarks letter (marks letter count ++ rest) = dropMarks letter rest := by
  induction count with
  | zero => rfl
  | succ count ih => rw [marks_succ, List.cons_append, List.cons_append, dropMarks, if_pos rfl, ih]

theorem dropMarks_of_not_mem {letter : Char} {cs : List Char} (h : letter ∉ cs) :
    dropMarks letter cs = cs := by
  fun_cases dropMarks letter cs with
  | case1 => simp at h
  | case2 => rfl
  | case3 => rfl

/-- Only marks are taken away. -/
theorem exists_marks (letter : Char) (cs : List Char) :
    ∃ count, cs = marks letter count ++ dropMarks letter cs := by
  fun_induction dropMarks letter cs with
  | case1 cs ih =>
    obtain ⟨count, hcs⟩ := ih
    refine ⟨count + 1, ?_⟩
    rw [marks_succ, List.cons_append, List.cons_append, ← hcs]
  | case2 => exact ⟨0, rfl⟩
  | case3 => exact ⟨0, rfl⟩

theorem readInstruction_eq_ok_iff {given : String} {w : Word} :
    readInstruction given = .ok w ↔ Numeral 16 HexDigit w.toNat
      (dropUnderscores (dropMarks 'X' (dropMarks 'x' (trim given.toList)))) := by
  rw [← readNumber_iff_numeral (by decide) (fun _ _ => hexDigit_iff) w.toNat_lt]
  cases hread : readNumber 16 UInt32.size
      (dropUnderscores (dropMarks 'X' (dropMarks 'x' (trim given.toList)))) with
  | error e => simp [readInstruction, hread]
  | ok n =>
    have hn : n < 2 ^ 32 := readNumber_lt (by decide) (by decide) hread
    simp only [readInstruction, hread, Except.ok.injEq]
    rw [UInt32.ofNat_eq_iff_mod_eq_toNat, Nat.mod_eq_of_lt hn]

theorem letters_not_mem {w : Word} {body : List Char}
    (h : Numeral 16 HexDigit w.toNat (body.filter (· ≠ '_'))) : 'x' ∉ body ∧ 'X' ∉ body := by
  obtain ⟨sign, digits, ds, hbody, hsign, -, hds, -⟩ := h
  have hplain := Program.body_plain hbody hsign hds
  exact ⟨fun hc => (hplain 'x' hc).2.1 rfl, fun hc => (hplain 'X' hc).2.2 rfl⟩

/-- The text says `w` in hexadecimal behind any number of marks, small ones before capital ones. -/
def Marked (w : Word) (core : List Char) : Prop :=
  ∃ small capital body, core = marks 'x' small ++ (marks 'X' capital ++ body) ∧
    Numeral 16 HexDigit w.toNat (body.filter (· ≠ '_'))

theorem readInstruction_iff_marked {given : String} {core : List Char} {w : Word}
    (hcore : Trimmed given.toList core) : readInstruction given = .ok w ↔ Marked w core := by
  rw [readInstruction_eq_ok_iff, hcore.trim_eq]
  constructor
  · intro h
    obtain ⟨small, hsmall⟩ := exists_marks 'x' core
    obtain ⟨capital, hcapital⟩ := exists_marks 'X' (dropMarks 'x' core)
    exact ⟨small, capital, _, hcapital ▸ hsmall, h⟩
  · rintro ⟨small, capital, body, rfl, h⟩
    obtain ⟨hx, hX⟩ := letters_not_mem h
    -- neither the capital marks nor the number have the small letter, so the first pass stops there
    have hrest : 'x' ∉ marks 'X' capital ++ body := by
      intro hc
      rcases List.mem_append.mp hc with hc | hc
      · rcases mem_marks hc with he | he
        · cases he
        · cases he
      · exact hx hc
    rw [dropMarks_marks_append, dropMarks_of_not_mem hrest, dropMarks_marks_append,
      dropMarks_of_not_mem hX]
    exact h

/-- Two marks stand at the front of the text. -/
def Remarked (cs : List Char) : Prop :=
  ∃ first ∈ [['0', 'x'], ['0', 'X']], ∃ second ∈ [['0', 'x'], ['0', 'X']], first ++ second <+: cs

instance (cs : List Char) : Decidable (Remarked cs) :=
  inferInstanceAs (Decidable (∃ _ ∈ _, _))

theorem Remarked.ne_nil {cs : List Char} (h : Remarked cs) : cs ≠ [] := by
  rintro rfl
  exact absurd h (by decide)

/-- A text that is not marked twice has at most one mark in all. -/
theorem marks_mem_of_not_remarked {small capital : Nat} {body : List Char}
    (h : ¬ Remarked (marks 'x' small ++ (marks 'X' capital ++ body))) :
    marks 'x' small ++ marks 'X' capital ∈ Program.hexMarks := by
  rcases small with _ | _ | small
  · rcases capital with _ | _ | capital
    · decide
    · decide
    · refine absurd ⟨['0', 'X'], by simp, ['0', 'X'], by simp, ?_⟩ h
      exact ⟨marks 'X' capital ++ body, by simp⟩
  · cases capital with
    | zero => decide
    | succ capital =>
      refine absurd ⟨['0', 'x'], by simp, ['0', 'X'], by simp, ?_⟩ h
      exact ⟨marks 'X' capital ++ body, by simp⟩
  · refine absurd ⟨['0', 'x'], by simp, ['0', 'x'], by simp, ?_⟩ h
    exact ⟨marks 'x' small ++ (marks 'X' capital ++ body), by simp⟩

theorem exists_marks_of_mem {mark : List Char} (h : mark ∈ Program.hexMarks) :
    ∃ small capital, mark = marks 'x' small ++ marks 'X' capital := by
  simp only [Program.hexMarks, List.mem_cons, List.not_mem_nil, or_false] at h
  rcases h with rfl | rfl | rfl
  · exact ⟨0, 0, rfl⟩
  · exact ⟨1, 0, rfl⟩
  · exact ⟨0, 1, rfl⟩

/-- The letter of a second mark would be among the digits. -/
theorem not_remarked_of_denotes {w : Word} {core : List Char} (h : Program.Denotes w core) :
    ¬ Remarked core := by
  obtain ⟨mark, hmark, body, rfl, hnumber⟩ := Program.denotes_iff_numeral.mp h
  obtain ⟨hx, hX⟩ := letters_not_mem hnumber
  have hbody : ∀ other ∈ [['0', 'x'], ['0', 'X']], ∀ rest, other ++ rest ≠ body := by
    rintro other hother rest rfl
    simp only [List.mem_cons, List.not_mem_nil, or_false] at hother
    rcases hother with rfl | rfl
    · simp at hx
    · simp at hX
  have hlength : ∀ other ∈ [['0', 'x'], ['0', 'X']], other.length = 2 := by decide
  rintro ⟨first, hfirst, second, hsecond, rest, hrest⟩
  rw [List.append_assoc] at hrest
  rcases List.mem_cons.mp hmark with rfl | hmark
  · exact hbody first hfirst _ hrest
  · have hsame : first.length = mark.length :=
      (hlength first hfirst).trans (hlength mark hmark).symm
    exact hbody second hsecond rest (List.append_inj hrest hsame).2

/-- With one mark at most it does not matter how many are taken away. -/
theorem marked_iff_denotes {w : Word} {core : List Char} (h : ¬ Remarked core) :
    Marked w core ↔ Program.Denotes w core := by
  rw [Program.denotes_iff_numeral]
  constructor
  · rintro ⟨small, capital, body, rfl, hnumber⟩
    exact ⟨_, marks_mem_of_not_remarked h, body, (List.append_assoc _ _ _).symm, hnumber⟩
  · rintro ⟨mark, hmark, body, rfl, hnumber⟩
    obtain ⟨small, capital, rfl⟩ := exists_marks_of_mem hmark
    exact ⟨small, capital, body, List.append_assoc _ _ _, hnumber⟩

/-- An instruction word on the command line and a line of a program text are read alike unless there
are two marks at the front. Then the line is refused, but on the command line all marks are taken
away, small ones before capital ones. -/
theorem instructions_agree_unless_remarked (given : String)
    (h : ∀ c ∈ given.toList, c ∉ ['\n', ',', '#', '/']) :
    ∃ core, Trimmed given.toList core ∧
      (¬ Remarked core → ∀ w, readInstruction given = .ok w ↔ Program.readHex given = .ok [w]) ∧
      (Remarked core → Program.readHex given = .error ⟨1, String.ofList core⟩ ∧
        ∀ w, readInstruction given = .ok w ↔ Marked w core) := by
  have hcore : Trimmed given.toList (trim given.toList) := trimmed_iff.mpr rfl
  have hcode := Program.codeOf_of_trimmed hcore h
  have hbreak : '\n' ∉ given.toList := fun hc => h _ hc (by simp)
  refine ⟨_, hcore, fun honce w => ?_, fun htwice => ⟨?_, fun w => ?_⟩⟩
  · rw [readInstruction_iff_marked hcore, marked_iff_denotes honce,
      Program.readHex_eq_singleton_iff hcode hbreak]
  · exact Program.readHex_of_not_denotes hcode hbreak htwice.ne_nil
      fun w hw => not_remarked_of_denotes hw htwice
  · exact readInstruction_iff_marked hcore

/-- A word with one mark, and one with a mark of each kind. -/
theorem instructions_agree_unless_remarked_capital :
    readInstruction "\t0X+dead_BEEF " = .ok 0xDEADBEEF ∧
    Program.readHex "\t0X+dead_BEEF " = .ok [0xDEADBEEF] ∧
    Program.readHex " 0x0X1_3" = .error ⟨1, "0x0X1_3"⟩ ∧ Marked 0x13 "0x0X1_3".toList := by
  obtain ⟨core, hcore, honce, -⟩ :=
    instructions_agree_unless_remarked "\t0X+dead_BEEF " (by simp)
  obtain ⟨core', hcore', -, htwice⟩ :=
    instructions_agree_unless_remarked " 0x0X1_3" (by simp)
  cases trimmed_iff.mp hcore
  cases trimmed_iff.mp hcore'
  have hword : readInstruction "\t0X+dead_BEEF " = .ok 0xDEADBEEF := by decide
  obtain ⟨hrefused, hread⟩ := htwice (by decide)
  exact ⟨hword, (honce (by decide) _).mp hword, hrefused, (hread 0x13).mp (by decide)⟩

/-- Two marks are read as one on the command line only. -/
theorem second_mark_read_only_as_instruction :
    (∀ c ∈ "0x0x13".toList, c ∉ ['\n', ',', '#', '/']) ∧
    readInstruction "0x0x13" = .ok 0x13 ∧
    Program.readHex "0x0x13" = .error ⟨1, "0x0x13"⟩ :=
  ⟨by simp, by decide, by decide⟩

end Command
end Rv32i
