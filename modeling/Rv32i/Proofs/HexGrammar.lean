import Rv32i.Proofs.HexText

namespace Rv32i

namespace Text

/-- The lines of a text. A line ends with a line feed, and a carriage return right before it belongs
to the end; the last line may lack its end. -/
inductive Lines : List Char → List (List Char) → Prop where
  | none : Lines [] []
  | last {line : List Char} (hne : line ≠ []) (h : '\n' ∉ line) : Lines line [line]
  | feed {line text : List Char} {ls : List (List Char)} (h : '\n' ∉ line)
      (hr : line.getLast? ≠ some '\r') (hs : Lines text ls) :
      Lines (line ++ '\n' :: text) (line :: ls)
  | returned {line text : List Char} {ls : List (List Char)} (h : '\n' ∉ line)
      (hs : Lines text ls) : Lines (line ++ '\r' :: '\n' :: text) (line :: ls)

theorem lines_newline {line : List Char} (h : '\n' ∉ line) (text : List Char) :
    lines (line ++ '\n' :: text) = dropReturn line :: lines text :=
  linesFrom_newline [] line text h

theorem Lines.lines_eq {text : List Char} {ls : List (List Char)} (h : Lines text ls) :
    lines text = ls := by
  induction h with
  | none => rfl
  | last hne h => exact linesFrom_last [] _ h hne
  | feed h hr _ ih => rw [lines_newline h, dropReturn, if_neg hr, ih]
  | @returned line text ls h _ ih =>
    have hline : '\n' ∉ line ++ ['\r'] := by simp [h]
    have htext : line ++ '\r' :: '\n' :: text = (line ++ ['\r']) ++ '\n' :: text := by simp
    rw [htext, lines_newline hline, ih]
    simp [dropReturn]

/-- Every text has lines. -/
theorem exists_lines (text : List Char) : ∃ ls, Lines text ls := by
  induction hlen : text.length using Nat.strongRecOn generalizing text with
  | ind n ih =>
    by_cases hfeed : '\n' ∈ text
    · obtain ⟨line, rest, rfl, hline⟩ := List.eq_append_cons_of_mem hfeed
      obtain ⟨ls, hls⟩ := ih rest.length (by simp [← hlen]; omega) rest rfl
      -- a return at the end of the line belongs to the line feed
      by_cases hr : line.getLast? = some '\r'
      · obtain ⟨front, rfl⟩ := List.getLast?_eq_some_iff.mp hr
        refine ⟨front :: ls, ?_⟩
        rw [List.append_assoc, List.singleton_append]
        exact .returned (fun hc => hline (List.mem_append_left _ hc)) hls
      · exact ⟨line :: ls, .feed hline hr hls⟩
    · by_cases hne : text = []
      · exact ⟨[], hne ▸ .none⟩
      · exact ⟨[text], .last hne hfeed⟩

/-- The end of `cs` that satisfies `p` is gone, and no more than that. -/
def WithoutEnd (p : Char → Bool) (cs core : List Char) : Prop :=
  ∃ back, cs = core ++ back ∧ (∀ c ∈ back, p c = true) ∧ ∀ c, core.getLast? = some c → p c = false

theorem dropWhile_append_of_boundary {p : Char → Bool} {front rest : List Char}
    (hfront : ∀ c ∈ front, p c = true) (hrest : ∀ c, rest.head? = some c → p c = false) :
    (front ++ rest).dropWhile p = rest := by
  rw [List.dropWhile_append_of_pos hfront]
  cases rest with
  | nil => rfl
  | cons c rest => rw [List.dropWhile_cons_of_neg (by simp [hrest c rfl])]

theorem withoutEnd_iff {p : Char → Bool} {cs core : List Char} :
    WithoutEnd p cs core ↔ dropEndWhile p cs = core := by
  constructor
  · rintro ⟨back, rfl, hback, hcore⟩
    rw [dropEndWhile, List.reverse_append, dropWhile_append_of_boundary, List.reverse_reverse]
    · exact fun c hc => hback c (List.mem_reverse.mp hc)
    · exact fun c hc => hcore c (List.head?_reverse ▸ hc)
  · rintro rfl
    refine ⟨(cs.reverse.takeWhile p).reverse, ?_, ?_, ?_⟩
    · rw [dropEndWhile, ← List.reverse_append, List.takeWhile_append_dropWhile,
        List.reverse_reverse]
    · exact fun c hc => List.mem_takeWhile_imp (List.mem_reverse.mp hc)
    · intro c hc
      rw [dropEndWhile, List.getLast?_reverse] at hc
      have hnot := List.head?_dropWhile_not p cs.reverse
      rw [hc] at hnot
      exact hnot

/-- The white space at both ends of `cs` is gone, and no more than that. -/
def Trimmed (cs core : List Char) : Prop :=
  ∃ front back, cs = front ++ (core ++ back) ∧ (∀ c ∈ front, isBlank c = true) ∧
    (∀ c ∈ back, isBlank c = true) ∧ (∀ c, core.head? = some c → isBlank c = false) ∧
    ∀ c, core.getLast? = some c → isBlank c = false

theorem Trimmed.trim_eq {cs core : List Char} (h : Trimmed cs core) : trim cs = core := by
  obtain ⟨front, back, rfl, hfront, hback, hhead, hlast⟩ := h
  by_cases hcore : core = []
  · have hall : (front ++ (core ++ back)).dropWhile isBlank = [] := by
      rw [List.dropWhile_eq_nil_iff, hcore, List.nil_append]
      exact fun c hc => (List.mem_append.mp hc).elim (hfront c) (hback c)
    rw [trim, hall, hcore]
    rfl
  · have hboundary : ∀ c, (core ++ back).head? = some c → isBlank c = false := by
      rw [List.head?_append_of_ne_nil _ hcore]
      exact hhead
    rw [trim, dropWhile_append_of_boundary hfront hboundary]
    exact withoutEnd_iff.mp ⟨back, rfl, hback, hlast⟩

theorem trimmed_iff {cs core : List Char} : Trimmed cs core ↔ trim cs = core := by
  constructor
  · exact Trimmed.trim_eq
  · intro h
    obtain ⟨back, hback, hblank, hlast⟩ := withoutEnd_iff.mpr h
    refine ⟨cs.takeWhile isBlank, back, ?_, fun c => List.mem_takeWhile_imp, hblank, ?_, hlast⟩
    · rw [← hback, List.takeWhile_append_dropWhile]
    · intro c hc
      have hnot := List.head?_dropWhile_not isBlank cs
      rw [hback, List.head?_append, hc] at hnot
      exact hnot

theorem toNat_lt_of_digit? {c : Char} {d : Nat} (h : digit? 16 c = some d) : c.toNat < 103 := by
  by_contra hlarge
  have hnone : digit? 16 c = none := by
    simp only [digit?]
    rw [if_neg (by omega), if_neg (by omega), if_neg (by omega)]
    rfl
  cases hnone.symm.trans h

theorem hexDigit_iff {c : Char} {d : Nat} : HexDigit c d ↔ digit? 16 c = some d := by
  constructor
  · exact HexDigit.digit?
  · intro h
    have hall : ∀ n < 103, ∀ d ∈ digit? 16 (Char.ofNat n), HexDigit (Char.ofNat n) d := by
      decide
    have hc := hall c.toNat (toNat_lt_of_digit? h) d
    rw [Char.ofNat_toNat] at hc
    exact hc h

/-- Digits are read to a number if and only if they are digits and the number is in range. -/
theorem readDigits_eq_ok_iff {base bound : Nat} (hbase : 0 < base) {cs : List Char} {value n : Nat}
    (hv : value < bound) : readDigits base bound value cs = .ok n ↔
      ∃ ds, List.Forall₂ (fun c d => digit? base c = some d) cs ds ∧
        ds.foldl (fun v d => v * base + d) value = n ∧ n < bound := by
  constructor
  · intro h
    induction cs generalizing value with
    | nil =>
      cases h
      exact ⟨[], .nil, rfl, hv⟩
    | cons c cs ih =>
      rw [readDigits] at h
      split at h
      · cases h
      · rename_i d hd
        split at h
        · rename_i hlt
          obtain ⟨ds, hds, hvalue, hn⟩ := ih hlt h
          exact ⟨d :: ds, .cons hd hds, hvalue, hn⟩
        · cases h
  · rintro ⟨ds, hds, rfl, hn⟩
    exact readDigits_of_digits hbase hds value hn

theorem not_mem_of_digit?_eq_none {base : Nat} {c : Char} {cs : List Char} {ds : List Nat}
    (hc : digit? base c = none) (h : List.Forall₂ (fun c d => digit? base c = some d) cs ds) :
    c ∉ cs := by
  induction h with
  | nil => exact List.not_mem_nil
  | cons hd _ ih =>
    rw [List.mem_cons, not_or]
    refine ⟨?_, ih⟩
    rintro rfl
    cases hc.symm.trans hd

/-- An optional plus sign and at least one digit. -/
theorem readNumber_eq_ok_iff {base bound : Nat} (hbase : 0 < base) {cs : List Char} {n : Nat}
    (hb : 0 < bound) : readNumber base bound cs = .ok n ↔ ∃ sign digits ds, cs = sign ++ digits ∧
      sign ∈ [[], ['+']] ∧ digits ≠ [] ∧
      List.Forall₂ (fun c d => digit? base c = some d) digits ds ∧
      Nat.ofDigits base ds.reverse = n ∧ n < bound := by
  have hfold : ∀ ds : List Nat,
      ds.foldl (fun v d => v * base + d) 0 = Nat.ofDigits base ds.reverse := by
    intro ds
    rw [foldl_eq_ofDigits, Nat.zero_mul, Nat.zero_add]
  constructor
  · intro h
    unfold readNumber at h
    split at h
    · cases h
    · cases h
    · rename_i cs hne
      obtain ⟨ds, hds, hvalue, hn⟩ := (readDigits_eq_ok_iff hbase hb).mp h
      exact ⟨['+'], cs, ds, rfl, by simp, fun he => hne (by rw [he]), hds, hfold ds ▸ hvalue, hn⟩
    · rename_i hne _ _
      obtain ⟨ds, hds, hvalue, hn⟩ := (readDigits_eq_ok_iff hbase hb).mp h
      exact ⟨[], cs, ds, rfl, by simp, hne, hds, hfold ds ▸ hvalue, hn⟩
  · rintro ⟨sign, digits, ds, rfl, hsign, hne, hds, hvalue, hn⟩
    have hread : readDigits base bound 0 digits = .ok n :=
      (readDigits_eq_ok_iff hbase hb).mpr ⟨ds, hds, (hfold ds).trans hvalue, hn⟩
    have hplus : '+' ∉ digits := not_mem_of_digit?_eq_none rfl hds
    simp only [List.mem_cons, List.not_mem_nil, or_false] at hsign
    rcases hsign with rfl | rfl
    · rw [List.nil_append, readNumber_of_head hne hplus, hread]
    · cases digits with
      | nil => exact absurd rfl hne
      | cons c digits => exact hread

theorem readNumber_lt {base bound : Nat} (hbase : 0 < base) (hb : 0 < bound) {cs : List Char}
    {n : Nat} (h : readNumber base bound cs = .ok n) : n < bound := by
  obtain ⟨_, _, _, _, _, _, _, _, hn⟩ := (readNumber_eq_ok_iff hbase hb).mp h
  exact hn

end Text

namespace Program
open Text

/-- A comment starts with a number sign or with two slashes. -/
def Comment (cs : List Char) : Prop :=
  ['#'] <+: cs ∨ ['/', '/'] <+: cs

/-- `front` is the part of a line before its first comment, or all of it if it has none. -/
structure Uncommented (line front : List Char) : Prop where
  isPrefix : front <+: line
  ends : front = line ∨ Comment (line.drop front.length)
  first : ∀ k < front.length, ¬ Comment (line.drop k)

/-- The part of a line before its first comment. -/
def uncomment (line : List Char) : List Char :=
  (beforeSlashes line).takeWhile (· ≠ '#')

theorem uncomment_of_comment {line : List Char} (h : Comment line) : uncomment line = [] := by
  rcases h with ⟨rest, rfl⟩ | ⟨rest, rfl⟩
  · simp [uncomment, beforeSlashes]
  · simp [uncomment, beforeSlashes]

theorem uncomment_cons {c : Char} {line : List Char} (h : ¬ Comment (c :: line)) :
    uncomment (c :: line) = c :: uncomment line := by
  have hsign : c ≠ '#' := fun hc => h (.inl ⟨line, by rw [hc]; rfl⟩)
  have hslash : ∀ rest, c = '/' → line = '/' :: rest → False := fun rest hc hl =>
    h (.inr ⟨rest, by rw [hc, hl]; rfl⟩)
  unfold uncomment
  rw [beforeSlashes.eq_2 _ _ hslash, List.takeWhile_cons_of_pos (by simpa using hsign)]

theorem not_comment_nil : ¬ Comment [] := by
  simp [Comment]

theorem uncommented_uncomment (line : List Char) : Uncommented line (uncomment line) := by
  induction line with
  | nil => exact ⟨List.prefix_rfl, .inl rfl, fun k _ => by simpa using not_comment_nil⟩
  | cons c line ih =>
    by_cases h : Comment (c :: line)
    · rw [uncomment_of_comment h]
      exact ⟨List.nil_prefix, .inr h, nofun⟩
    · rw [uncomment_cons h]
      refine ⟨List.cons_prefix_cons.mpr ⟨rfl, ih.isPrefix⟩, ?_, ?_⟩
      · exact ih.ends.imp (congrArg (c :: ·)) id
      · intro k hk
        cases k with
        | zero => exact h
        | succ k => exact ih.first k (Nat.lt_of_succ_lt_succ hk)

/-- There is one first comment. -/
theorem Uncommented.length_le {line front front' : List Char} (h : Uncommented line front)
    (h' : Uncommented line front') : front'.length ≤ front.length := by
  by_contra hlt
  rcases h.ends with rfl | hc
  · exact hlt h'.isPrefix.length_le
  · exact h'.first _ (by omega) hc

theorem uncommented_iff {line front : List Char} :
    Uncommented line front ↔ uncomment line = front := by
  constructor
  · intro h
    have hline := uncommented_uncomment line
    have hlen : (uncomment line).length = front.length :=
      Nat.le_antisymm (h.length_le hline) (hline.length_le h)
    rw [List.prefix_iff_eq_take.mp h.isPrefix, ← hlen]
    exact List.prefix_iff_eq_take.mp hline.isPrefix
  · rintro rfl
    exact uncommented_uncomment line

/-- The code of a line: what stands before its first comment, without white space around it, commas
behind that, and white space around the rest. -/
def CodeOf (line code : List Char) : Prop :=
  ∃ front inner bare, Uncommented line front ∧ Trimmed front inner ∧
    WithoutEnd (· = ',') inner bare ∧ Trimmed bare code

theorem codeOf_iff {line code : List Char} : CodeOf line code ↔ hexCode line = code := by
  simp only [CodeOf, uncommented_iff, trimmed_iff, withoutEnd_iff]
  constructor
  · rintro ⟨_, _, _, rfl, rfl, rfl, rfl⟩
    rfl
  · exact fun h => ⟨_, _, _, rfl, rfl, rfl, h⟩

/-- The code says `w`: behind an optional mark there is, underscores apart, a number in hexadecimal
with an optional plus sign. -/
def Denotes (w : Word) (code : List Char) : Prop :=
  ∃ mark ∈ hexMarks, ∃ body sign digits ds, code = mark ++ body ∧
    body.filter (· ≠ '_') = sign ++ digits ∧ sign ∈ [[], ['+']] ∧ digits ≠ [] ∧
    List.Forall₂ HexDigit digits ds ∧ Nat.ofDigits 16 ds.reverse = w.toNat

theorem exists_mark (code : List Char) :
    ∃ mark ∈ hexMarks, code = mark ++ (afterHexMark? code).getD code := by
  unfold afterHexMark?
  split
  · exact ⟨['0', 'x'], by decide, rfl⟩
  · exact ⟨['0', 'X'], by decide, rfl⟩
  · exact ⟨[], by decide, rfl⟩

theorem signed_plain {sign digits : List Char} {ds : List Nat} (hsign : sign ∈ [[], ['+']])
    (hds : List.Forall₂ HexDigit digits ds) :
    ∀ c ∈ sign ++ digits, Plain c ∧ c ≠ 'x' ∧ c ≠ 'X' ∧ c ≠ '=' := by
  intro c hc
  rcases List.mem_append.mp hc with hc | hc
  · simp only [List.mem_cons, List.not_mem_nil, or_false] at hsign
    rcases hsign with rfl | rfl
    · cases hc
    · rw [List.mem_singleton.mp hc]
      decide
  · obtain ⟨hplain, -, -, hx, hX⟩ := digits_plain hds c hc
    have hequals : '=' ∉ digits :=
      not_mem_of_digit?_eq_none rfl (hds.imp fun _ _ => hexDigit_iff.mp)
    refine ⟨hplain, hx, hX, ?_⟩
    rintro rfl
    exact hequals hc

/-- The characters behind the mark, underscores included. -/
theorem body_plain {body sign digits : List Char} {ds : List Nat}
    (hbody : body.filter (· ≠ '_') = sign ++ digits) (hsign : sign ∈ [[], ['+']])
    (hds : List.Forall₂ HexDigit digits ds) : ∀ c ∈ body, Plain c ∧ c ≠ 'x' ∧ c ≠ 'X' := by
  intro c hc
  by_cases hunder : c = '_'
  · rw [hunder]
    decide
  · have hmem : c ∈ sign ++ digits := hbody ▸ List.mem_filter.mpr ⟨hc, by simpa using hunder⟩
    obtain ⟨hplain, hx, hX, -⟩ := signed_plain hsign hds c hmem
    exact ⟨hplain, hx, hX⟩

theorem Denotes.plain {w : Word} {code : List Char} (h : Denotes w code) : ∀ c ∈ code, Plain c := by
  obtain ⟨mark, hmark, body, sign, digits, ds, rfl, hbody, hsign, -, hds, -⟩ := h
  intro c hc
  rcases List.mem_append.mp hc with hc | hc
  · exact mark_plain hmark c hc
  · exact (body_plain hbody hsign hds c hc).1

theorem Denotes.ne_nil {w : Word} {code : List Char} (h : Denotes w code) : code ≠ [] := by
  obtain ⟨mark, _, body, sign, digits, _, rfl, hbody, _, hne, _⟩ := h
  intro hnil
  rw [(List.append_eq_nil_iff.mp hnil).2] at hbody
  exact hne (List.append_eq_nil_iff.mp hbody.symm).2

theorem denotes_iff {w : Word} {code : List Char} : Denotes w code ↔ readHexWord code = .ok w := by
  constructor
  · rintro ⟨mark, hmark, body, sign, digits, ds, rfl, hbody, hsign, hne, hds, hvalue⟩
    have hread : readNumber 16 UInt32.size (dropUnderscores body) = .ok w.toNat :=
      (readNumber_eq_ok_iff (by decide) (by decide)).mpr ⟨sign, digits, ds, hbody, hsign, hne,
        hds.imp fun _ _ => hexDigit_iff.mp, hvalue, w.toNat_lt⟩
    have hplain := body_plain hbody hsign hds
    rw [readHexWord, afterHexMark?_append hmark (fun hc => (hplain _ hc).2.1 rfl)
      (fun hc => (hplain _ hc).2.2 rfl), hread]
    exact congrArg Except.ok w.ofNat_toNat
  · intro h
    obtain ⟨mark, hmark, hcode⟩ := exists_mark code
    unfold readHexWord at h
    cases hread : readNumber 16 UInt32.size (dropUnderscores ((afterHexMark? code).getD code)) with
    | error e => simp [hread, Except.map] at h
    | ok n =>
      obtain ⟨sign, digits, ds, hbody, hsign, hne, hds, hvalue, hn⟩ :=
        (readNumber_eq_ok_iff (by decide) (by decide)).mp hread
      simp only [hread] at h
      have hw : UInt32.ofNat n = w := Except.ok.inj h
      refine ⟨mark, hmark, _, sign, digits, ds, hcode, hbody, hsign, hne,
        hds.imp fun _ _ => hexDigit_iff.mpr, hvalue.trans ?_⟩
      rw [← hw, UInt32.toNat_ofNat_of_lt' hn]

/-- The words of lines, each told by its code. A line without code has none. -/
inductive Reads (Code : List Char → List Char → Prop) : List (List Char) → List Word → Prop where
  | nil : Reads Code [] []
  | skip {line : List Char} {ls : List (List Char)} {ws : List Word} (h : Code line [])
      (hs : Reads Code ls ws) : Reads Code (line :: ls) ws
  | word {line code : List Char} {ls : List (List Char)} {w : Word} {ws : List Word}
      (h : Code line code) (hw : Denotes w code) (hs : Reads Code ls ws) :
      Reads Code (line :: ls) (w :: ws)

/-- A line whose code is not empty and says no word. -/
def Garbled (line code : List Char) : Prop :=
  CodeOf line code ∧ code ≠ [] ∧ ∀ w, ¬ Denotes w code

theorem readHexLines_skip {line : List Char} (h : CodeOf line []) (n : Nat)
    (ls : List (List Char)) : readHexLines n (line :: ls) = readHexLines (n + 1) ls := by
  simp [readHexLines, codeOf_iff.mp h]

theorem readHexLines_word {line code : List Char} {w : Word} (h : CodeOf line code)
    (hw : Denotes w code) (n : Nat) (ls : List (List Char)) :
    readHexLines n (line :: ls) = (readHexLines (n + 1) ls).map (w :: ·) := by
  have hsome : code.isEmpty = false := by simpa using hw.ne_nil
  simp only [readHexLines, codeOf_iff.mp h, hsome, denotes_iff.mp hw]
  cases readHexLines (n + 1) ls <;> rfl

theorem readHexLines_garbled {line code : List Char} (h : Garbled line code) (n : Nat)
    (ls : List (List Char)) :
    readHexLines n (line :: ls) = .error ⟨n, String.ofList code⟩ := by
  obtain ⟨hcode, hne, hbad⟩ := h
  have hsome : code.isEmpty = false := by simpa using hne
  simp only [readHexLines, codeOf_iff.mp hcode, hsome]
  cases hread : readHexWord code with
  | error e => rfl
  | ok w => exact absurd (denotes_iff.mpr hread) (hbad w)

/-- What is read of lines with words is up to the lines behind them. -/
theorem Reads.readHexLines_append {before : List (List Char)} {ws : List Word}
    (h : Reads CodeOf before ws) (n : Nat) (after : List (List Char)) :
    readHexLines n (before ++ after) =
      (readHexLines (n + before.length) after).map (ws ++ ·) := by
  induction h generalizing n with
  | nil => cases hr : readHexLines n after <;> simp [hr, Except.map]
  | skip hc _ ih =>
    rw [List.cons_append, readHexLines_skip hc, ih, List.length_cons, Nat.add_assoc,
      Nat.add_comm 1]
  | word hc hw _ ih =>
    rw [List.cons_append, readHexLines_word hc hw, ih, List.length_cons, Nat.add_assoc,
      Nat.add_comm 1]
    cases readHexLines _ after <;> rfl

/-- All lines have their words, or there is a first one that does not. -/
theorem reads_or_garbled (ls : List (List Char)) :
    (∃ ws, Reads CodeOf ls ws) ∨ ∃ before line after ws code,
      ls = before ++ line :: after ∧ Reads CodeOf before ws ∧ Garbled line code := by
  induction ls with
  | nil => exact .inl ⟨[], .nil⟩
  | cons line ls ih =>
    have hcode : CodeOf line (hexCode line) := codeOf_iff.mpr rfl
    by_cases hnil : hexCode line = []
    · rw [hnil] at hcode
      rcases ih with ⟨ws, hs⟩ | ⟨before, bad, after, ws, code, rfl, hs, hbad⟩
      · exact .inl ⟨ws, .skip hcode hs⟩
      · exact .inr ⟨line :: before, bad, after, ws, code, rfl, .skip hcode hs, hbad⟩
    · by_cases hword : ∃ w, Denotes w (hexCode line)
      · obtain ⟨w, hw⟩ := hword
        rcases ih with ⟨ws, hs⟩ | ⟨before, bad, after, ws, code, rfl, hs, hbad⟩
        · exact .inl ⟨w :: ws, .word hcode hw hs⟩
        · exact .inr ⟨line :: before, bad, after, w :: ws, code, rfl, .word hcode hw hs, hbad⟩
      · exact .inr ⟨[], line, ls, [], _, rfl, .nil, hcode, hnil, not_exists.mp hword⟩

theorem Reads.readHex {text : String} {ls : List (List Char)} {ws : List Word}
    (h : Reads CodeOf ls ws) (hl : Lines text.toList ls) : readHex text = .ok ws := by
  have happend := h.readHexLines_append 1 []
  rw [List.append_nil] at happend
  rw [Program.readHex, hl.lines_eq, happend]
  exact congrArg Except.ok (List.append_nil ws)

theorem Garbled.readHex {text : String} {before after : List (List Char)} {line code : List Char}
    {ws : List Word} (h : Garbled line code) (hs : Reads CodeOf before ws)
    (hl : Lines text.toList (before ++ line :: after)) :
    readHex text = .error ⟨before.length + 1, String.ofList code⟩ := by
  rw [Program.readHex, hl.lines_eq, hs.readHexLines_append, readHexLines_garbled h, Nat.add_comm]
  rfl

/-- A line as one may write it: white space around its code, commas behind it and a comment at the
end. -/
def Dressed (line code : List Char) : Prop :=
  ∃ before between behind count comment,
    line = before ++ (code ++ (between ++ (List.replicate count ',' ++ behind))) ++ comment ∧
    (∀ c ∈ before ++ between ++ behind, isBlank c = true) ∧ (comment = [] ∨ Comment comment)

theorem head_of_comment {c : Char} {cs : List Char} (h : Comment (c :: cs)) :
    c = '#' ∨ c = '/' := by
  rcases h with ⟨rest, h⟩ | ⟨rest, h⟩
  · exact .inl (List.cons.inj h).1.symm
  · exact .inr (List.cons.inj h).1.symm

theorem uncommented_append {front comment : List Char}
    (hfront : ∀ c ∈ front, c ≠ '#' ∧ c ≠ '/') (h : comment = [] ∨ Comment comment) :
    Uncommented (front ++ comment) front := by
  refine ⟨List.prefix_append _ _, ?_, ?_⟩
  · rcases h with rfl | h
    · exact .inl (List.append_nil _).symm
    · rw [List.drop_left]
      exact .inr h
  · intro k hk hc
    rw [List.drop_append_of_le_length hk.le, List.drop_eq_getElem_cons hk] at hc
    obtain ⟨hsign, hslash⟩ := hfront _ (List.getElem_mem hk)
    exact (head_of_comment hc).elim hsign hslash

theorem ne_of_blank {c d : Char} (h : isBlank c = true) (hd : isBlank d = false) : c ≠ d := by
  rintro rfl
  cases hd.symm.trans h

section
variable {code : List Char} (hplain : ∀ c ∈ code, Plain c)
include hplain

theorem trimmed_plain {before behind : List Char} (hbefore : ∀ c ∈ before, isBlank c = true)
    (hbehind : ∀ c ∈ behind, isBlank c = true) : Trimmed (before ++ (code ++ behind)) code :=
  ⟨before, behind, rfl, hbefore, hbehind, fun c hc => (hplain c (List.mem_of_mem_head? hc)).2.1,
    fun c hc => (hplain c (List.mem_of_getLast? hc)).2.1⟩

theorem withoutEnd_commas {between : List Char} (hbetween : ∀ c ∈ between, isBlank c = true)
    (count : Nat) : WithoutEnd (· = ',') (code ++ between ++ List.replicate count ',')
      (code ++ between) := by
  refine ⟨_, rfl, fun c hc => decide_eq_true (List.eq_of_mem_replicate hc), fun c hc => ?_⟩
  rcases List.mem_append.mp (List.mem_of_getLast? hc) with hm | hm
  · exact decide_eq_false (hplain c hm).2.2.2.2
  · exact decide_eq_false (ne_of_blank (hbetween c hm) rfl)

/-- Commas keep the white space before them from the first trimming, which the second one takes. -/
theorem exists_bare {before between behind : List Char} (count : Nat)
    (hbefore : ∀ c ∈ before, isBlank c = true) (hbetween : ∀ c ∈ between, isBlank c = true)
    (hbehind : ∀ c ∈ behind, isBlank c = true) : ∃ inner bare,
      Trimmed (before ++ (code ++ (between ++ (List.replicate count ',' ++ behind)))) inner ∧
      WithoutEnd (· = ',') inner bare ∧ Trimmed bare code := by
  have hbare : Trimmed ([] ++ (code ++ between)) code := trimmed_plain hplain (by simp) hbetween
  cases count with
  | zero =>
    have hinner : Trimmed (before ++ (code ++ (between ++ behind))) code :=
      trimmed_plain hplain hbefore fun c hc =>
        (List.mem_append.mp hc).elim (hbetween c) (hbehind c)
    have hwhole := withoutEnd_commas hplain (List.forall_mem_nil _) 0
    have hself := trimmed_plain hplain (List.forall_mem_nil _) (List.forall_mem_nil _)
    simp only [List.replicate_zero, List.append_nil] at hwhole hself
    exact ⟨code, code, hinner, hwhole, hself⟩
  | succ count =>
    have hlast : ∀ front : List Char, ∀ c,
        (front ++ List.replicate (count + 1) ',').getLast? = some c → isBlank c = false := by
      intro front c hc
      rw [List.replicate_succ', ← List.append_assoc, List.getLast?_concat] at hc
      cases hc
      rfl
    -- without code the white space before the commas stands at the front
    cases code with
    | nil =>
      refine ⟨List.replicate (count + 1) ',', [], ⟨before ++ between, behind, by simp, ?_, hbehind,
        ?_, hlast []⟩, ?_, ?_⟩
      · exact fun c hc => (List.mem_append.mp hc).elim (hbefore c) (hbetween c)
      · intro c hc
        cases hc
        rfl
      · exact withoutEnd_commas hplain (List.forall_mem_nil _) (count + 1)
      · exact trimmed_plain hplain (List.forall_mem_nil _) (List.forall_mem_nil _)
    | cons d code =>
      refine ⟨_, _, ⟨before, behind, by simp, hbefore, hbehind, ?_, hlast _⟩,
        withoutEnd_commas hplain hbetween (count + 1), hbare⟩
      intro c hc
      cases hc
      exact (hplain d List.mem_cons_self).2.1

end

theorem Dressed.codeOf {line code : List Char} (h : Dressed line code)
    (hplain : ∀ c ∈ code, Plain c) : CodeOf line code := by
  obtain ⟨before, between, behind, count, comment, rfl, hblank, hcomment⟩ := h
  simp only [List.mem_append, or_imp, forall_and] at hblank
  obtain ⟨⟨hbefore, hbetween⟩, hbehind⟩ := hblank
  obtain ⟨inner, bare, hinner, hbare, hcode⟩ := exists_bare hplain count hbefore hbetween hbehind
  refine ⟨_, inner, bare, uncommented_append ?_ hcomment, hinner, hbare, hcode⟩
  intro c hc
  simp only [List.mem_append] at hc
  rcases hc with hc | hc | hc | hc | hc
  · exact ⟨ne_of_blank (hbefore c hc) rfl, ne_of_blank (hbefore c hc) rfl⟩
  · exact ⟨(hplain c hc).2.2.2.1, (hplain c hc).2.2.1⟩
  · exact ⟨ne_of_blank (hbetween c hc) rfl, ne_of_blank (hbetween c hc) rfl⟩
  · rw [List.eq_of_mem_replicate hc]
    decide
  · exact ⟨ne_of_blank (hbehind c hc) rfl, ne_of_blank (hbehind c hc) rfl⟩

theorem Reads.of_dressed {ls : List (List Char)} {ws : List Word} (h : Reads Dressed ls ws) :
    Reads CodeOf ls ws := by
  induction h with
  | nil => exact .nil
  | skip hc _ ih => exact .skip (hc.codeOf nofun) ih
  | word hc hw _ ih => exact .word (hc.codeOf hw.plain) hw ih

/-- Reading accepts exactly the texts whose lines are words or have no code, with these words, and
reports the first other line by number and code. So however words are written down, with comments
and empty lines in between, they are read back. -/
theorem readHex_accepts_grammar (text : String) :
    (∀ ws, readHex text = .ok ws ↔ ∃ ls, Lines text.toList ls ∧ Reads CodeOf ls ws) ∧
    (∀ e, readHex text = .error e ↔ ∃ before line after ws code,
      Lines text.toList (before ++ line :: after) ∧ Reads CodeOf before ws ∧
      Garbled line code ∧ e = ⟨before.length + 1, String.ofList code⟩) ∧
    ∀ ls ws, Lines text.toList ls → Reads Dressed ls ws → readHex text = .ok ws := by
  obtain ⟨ls, hl⟩ := exists_lines text.toList
  refine ⟨fun ws => ⟨fun h => ?_, fun ⟨_, hl, hs⟩ => hs.readHex hl⟩, fun e => ⟨fun h => ?_, ?_⟩,
    fun _ _ hl hs => hs.of_dressed.readHex hl⟩
  · rcases reads_or_garbled ls with ⟨ws', hs⟩ | ⟨before, line, after, ws', code, rfl, hs, hline⟩
    · cases h.symm.trans (hs.readHex hl)
      exact ⟨ls, hl, hs⟩
    · cases h.symm.trans (hline.readHex hs hl)
  · rcases reads_or_garbled ls with ⟨ws', hs⟩ | ⟨before, line, after, ws', code, rfl, hs, hline⟩
    · cases h.symm.trans (hs.readHex hl)
    · cases h.symm.trans (hline.readHex hs hl)
      exact ⟨before, line, after, ws', code, hl, hs, hline, rfl⟩
  · rintro ⟨before, line, after, ws, code, hl, hs, hline, rfl⟩
    exact hline.readHex hs hl

/-- Marks, underscores, a plus sign, commas and comments in one text, a line with two numbers behind
an empty one, and a line written down part by part. -/
theorem readHex_accepts_grammar_mixed :
    (∃ ls, Lines "\t0xDEAD_beef , # first\r\n\n// none\n+_00f,,".toList ls ∧
      Reads CodeOf ls [0xDEADBEEF, 0xF]) ∧
    (∃ before line after ws code, Lines "1\n\n 12 34, // two\nzz".toList (before ++ line :: after) ∧
      Reads CodeOf before ws ∧ Garbled line code ∧
      (⟨3, "12 34"⟩ : HexError) = ⟨before.length + 1, String.ofList code⟩) ∧
    Reads Dressed [" 7 ,#".toList] [7] ∧ readHex " 7 ,#" = .ok [7] := by
  have hline : Lines " 7 ,#".toList [" 7 ,#".toList] := .last (by decide) (by decide)
  have hdressed : Dressed " 7 ,#".toList ['7'] :=
    ⟨[' '], [' '], [], 1, ['#'], rfl, List.all_eq_true.mp (by decide),
      .inr (.inl List.prefix_rfl)⟩
  have hseven : Denotes 7 ['7'] :=
    ⟨[], by decide, ['7'], [], ['7'], [7], rfl, rfl, by decide, by decide,
      .cons (by decide) .nil, by decide⟩
  have hreads : Reads Dressed [" 7 ,#".toList] [7] := .word hdressed hseven .nil
  exact ⟨((readHex_accepts_grammar _).1 _).mp (by decide),
    ((readHex_accepts_grammar _).2.1 _).mp (by decide), hreads,
    (readHex_accepts_grammar _).2.2 _ _ hline hreads⟩

end Program
end Rv32i
