import Rv32i.Proofs.HexText
import Rv32i.Proofs.Mailbox
import Rv32i.Proofs.Start

namespace Rv32i

namespace Load
open Memory Program

theorem words_eq_bytes (m : Memory) (addr : Word) (ws : List Word) :
    words m addr ws = bytes m addr (ws.flatMap fun w => digits 4 w.toNat) := by
  rw [← bytesOfWords_eq_digits, words, bytes, length_bytesOfWords, writeWords]

/-- Words that do not fit leave memory as it is. -/
theorem words_cases (m : Memory) (addr : Word) (ws : List Word) :
    (∃ m', words m addr ws = (.ok ⟨addr, 4 * ws.length, none, none⟩, m')) ∨
      ∃ e, words m addr ws = (.error (.memory e), m) := by
  unfold words
  cases m.writeWords addr ws with
  | ok m' => exact .inl ⟨m', rfl⟩
  | error e => exact .inr ⟨e, rfl⟩

theorem hex_eq_words {ws : List Word} {text : String} (ht : Lists ws text.toList) (m : Memory)
    (addr : Word) : hex m addr text = words m addr ws := by
  rw [hex, ht.readHex]

theorem program_eq_words_of_hex {ws : List Word} {text : String} (ht : Lists ws text.toList)
    {read : Reader} {path : String} (hr : read path = .ok text.toUTF8.data.toList) (m : Memory)
    (addr : Word) : program read m path .hex addr = words m addr ws := by
  simp only [program, hr, Text.Utf8.decodeLossy_toUTF8 ht.ascii]
  exact hex_eq_words ht m addr

theorem program_eq_words_of_bin {ws : List Word} {read : Reader} {path : String}
    (hr : read path = .ok (ws.flatMap fun w => digits 4 w.toNat)) (m : Memory) (addr : Word) :
    program read m path .bin addr = words m addr ws := by
  simp only [program, hr]
  exact (words_eq_bytes m addr ws).symm

end Load

theorem except_map_bind {ε α β γ : Type} (x : Except ε α) (f : α → Except ε β) (g : β → γ) :
    (x >>= f).map g = x >>= fun a => (f a).map g := by
  cases x <;> rfl

/-- The configuration with a file as the program. -/
def Config.withProgram (c : Config) (path : String) (format : Option ProgramFormat) : Config :=
  { c with program := some path, format }

namespace Simulation

theorem assemble_withProgram (config : Config) (path : String) (format : Option ProgramFormat)
    (m : Memory) (loaded : Option Loaded) (extra : List Definition) :
    assemble (config.withProgram path format) m loaded extra =
      (assemble config m loaded extra).map fun s =>
        { s with config := config.withProgram path format } := by
  rw [assemble_eq, assemble_eq]
  simp only [except_map_bind]
  rfl

/-- A file that is loaded as `ws` makes the machine that `ws` make. -/
theorem ofConfig_withProgram {read : Reader} {config : Config} {path : String}
    {format : Option ProgramFormat} {ws : List Word}
    (hl : ∀ m, Load.program read m path (format.getD (.ofPath path)) config.startAddr =
      Load.words m config.startAddr ws) :
    ofConfig read (config.withProgram path format) [] =
      (ofWords config ws).map fun s => { s with config := config.withProgram path format } := by
  rw [ofWords, except_map_bind]
  change (freshMemory config.memory >>= _) = _
  congr 1
  funext memory
  change (settle (Load.program read memory path (format.getD (.ofPath path)) config.startAddr) >>=
    _) = _
  rw [hl, except_map_bind]
  congr 1
  funext placed
  obtain ⟨loaded, memory⟩ := placed
  exact assemble_withProgram config path format memory (some loaded) []

section Reconfigured
variable (s : Simulation) (c : Config)

theorem step_reconfigured :
    ({ s with config := c } : Simulation).step = { s.step with config := c } := by
  unfold step
  cases s.hart.state <;> rfl

variable {s} in
theorem Acknowledged.reconfigured {tohost value : Word} {m : Memory}
    (h : s.Acknowledged tohost value m) :
    ({ s with config := c } : Simulation).Acknowledged tohost value m := by
  cases h with
  | cleared hf hc => exact .cleared hf hc
  | handedBack hf hc hb => exact .handedBack hf hc hb
  | lost hf hc hb => exact .lost hf hc hb

variable {s} in
theorem Reports.reconfigured {o : Outcome} {r : Simulation} (h : s.Reports o r) :
    ({ s with config := c } : Simulation).Reports o { r with config := c } := by
  cases h with
  | passed hp hl ha => exact .passed hp hl (ha.reconfigured c)
  | failed hp hl hv ha => exact .failed hp hl hv (ha.reconfigured c)
  | found hp hl => exact .found hp hl

theorem checkProbe_reconfigured : ({ s with config := c } : Simulation).checkProbe =
    (s.checkProbe.1, { s.checkProbe.2 with config := c }) := by
  by_cases hs : ∃ o r, s.Reports o r
  · obtain ⟨o, r, h⟩ := hs
    rw [checkProbe_of_reports h, checkProbe_of_reports (h.reconfigured c)]
  · have hs' : ¬ ∃ o r, ({ s with config := c } : Simulation).Reports o r := by
      rintro ⟨o, r, h⟩
      exact hs ⟨o, _, h.reconfigured s.config⟩
    rw [checkProbe_of_silent hs, checkProbe_of_silent hs']

theorem completeWithin_reconfigured (budget : Nat) :
    completeWithin budget { s with config := c } =
      ((completeWithin budget s).1, { (completeWithin budget s).2 with config := c }) := by
  induction budget generalizing s with
  | zero => rfl
  | succ budget ih =>
    rw [completeWithin, completeWithin, step_reconfigured, checkProbe_reconfigured]
    rcases s.step.checkProbe with ⟨_ | o, r⟩
    · simp only
      cases r.hart.state with
      | halted t => rfl
      | running => exact ih r
    · rfl

/-- Of the configuration only the limit counts once the machine is there. -/
theorem serve_reconfigured {s : Simulation} {c : Config} (hc : c.budget = s.config.budget)
    (request : Request) :
    request.serve { s with config := c } = { request.serve s with config := c } := by
  cases request with
  | step => exact step_reconfigured s c
  | run budget => rfl
  | complete =>
    simp only [Request.serve, complete, hc, completeWithin_reconfigured]
  | checkProbe => simp only [Request.serve, checkProbe_reconfigured]
  | access call => rfl

theorem serve_config (s : Simulation) (request : Request) :
    (request.serve s).config = s.config := by
  have h := serve_reconfigured (s := s) (c := s.config) rfl request
  exact (congrArg Simulation.config h).trans rfl

theorem serveAll_reconfigured {s : Simulation} {c : Config} (hc : c.budget = s.config.budget)
    (requests : List Request) : requests.foldl Request.serve { s with config := c } =
      { requests.foldl Request.serve s with config := c } ∧
      c.budget = (requests.foldl Request.serve s).config.budget := by
  induction requests generalizing s with
  | nil => exact ⟨rfl, hc⟩
  | cons request requests ih =>
    rw [List.foldl_cons, List.foldl_cons, serve_reconfigured hc]
    exact ih (by rw [serve_config]; exact hc)

end Reconfigured

/-- The machines have the same parts; only their configurations may differ. -/
structure SameParts (s r : Simulation) : Prop where
  hart : r.hart = s.hart
  memory : r.memory = s.memory
  cycles : r.cycles = s.cycles
  probe : r.probe = s.probe
  fromhost : r.fromhost = s.fromhost

/-- The machines have the same parts now and after all that may be done with them, and everything
that is run on them ends the same way. -/
structure Twins (s r : Simulation) : Prop where
  parts : ∀ requests : List Request,
    SameParts (requests.foldl Request.serve s) (requests.foldl Request.serve r)
  outcome : ∀ requests : List Request,
    (requests.foldl Request.serve r).complete.1 = (requests.foldl Request.serve s).complete.1
  executed : ∀ (requests : List Request) (budget : Nat),
    ((requests.foldl Request.serve r).run budget).1 =
      ((requests.foldl Request.serve s).run budget).1
  report : ∀ requests : List Request,
    (requests.foldl Request.serve r).checkProbe.1 = (requests.foldl Request.serve s).checkProbe.1

theorem twins_reconfigured {s : Simulation} {c : Config} (hc : c.budget = s.config.budget) :
    Twins s { s with config := c } where
  parts requests := by
    rw [(serveAll_reconfigured hc requests).1]
    exact ⟨rfl, rfl, rfl, rfl, rfl⟩
  outcome requests := by
    obtain ⟨heq, hbudget⟩ := serveAll_reconfigured hc requests
    rw [heq]
    simp only [complete, hbudget, completeWithin_reconfigured]
  executed requests budget := by
    rw [(serveAll_reconfigured hc requests).1]
    rfl
  report requests := by
    rw [(serveAll_reconfigured hc requests).1, checkProbe_reconfigured]

/-- Two ways to set up a machine come to the same: one error for both, or twins. -/
inductive Alike : Except SetupError Simulation → Except SetupError Simulation → Prop where
  | failed (e : SetupError) : Alike (.error e) (.error e)
  | built {s r : Simulation} (h : Twins s r) : Alike (.ok s) (.ok r)

theorem ofWords_config {config : Config} {ws : List Word} {s : Simulation}
    (h : ofWords config ws = .ok s) : s.config = config := by
  obtain ⟨memory, _, h⟩ := (except_bind_eq_ok _ _ _).mp h
  obtain ⟨loaded, _, h⟩ := (except_bind_eq_ok _ _ _).mp h
  obtain ⟨_, _, table, _, rfl⟩ := (assemble_ok_iff _ _ _ _ _).mp h
  rfl

theorem alike_withProgram {read : Reader} {config : Config} {path : String}
    {format : Option ProgramFormat} {ws : List Word}
    (hl : ∀ m, Load.program read m path (format.getD (.ofPath path)) config.startAddr =
      Load.words m config.startAddr ws) :
    Alike (ofWords config ws) (ofConfig read (config.withProgram path format) []) := by
  rw [ofConfig_withProgram hl]
  cases h : ofWords config ws with
  | error e => exact .failed e
  | ok s =>
    refine .built (twins_reconfigured ?_)
    rw [ofWords_config h]
    rfl

/-- Words, a listing of them and their bytes are the same program: memory takes them the same way or
not at all, and so they make the same machine. Every list of words has a listing. -/
theorem word_programs_agree (ws : List Word) :
    Program.Lists ws (Program.listing ws).toList ∧
    ∀ text : String, Program.Lists ws text.toList →
      (∀ m addr, Load.hex m addr text = Load.words m addr ws ∧
        Load.bytes m addr (ws.flatMap fun w => digits 4 w.toNat) = Load.words m addr ws ∧
        ((∃ m', Load.words m addr ws = (.ok ⟨addr, 4 * ws.length, none, none⟩, m')) ∨
          ∃ e, Load.words m addr ws = (.error (.memory e), m))) ∧
      ∀ config read path format,
        (read path = .ok text.toUTF8.data.toList → format.getD (.ofPath path) = .hex →
          Alike (ofWords config ws) (ofConfig read (config.withProgram path format) [])) ∧
        (read path = .ok (ws.flatMap fun w => digits 4 w.toNat) →
          format.getD (.ofPath path) = .bin →
          Alike (ofWords config ws) (ofConfig read (config.withProgram path format) [])) := by
  refine ⟨Program.lists_listing ws, fun text ht => ⟨fun m addr => ?_, ?_⟩⟩
  · exact ⟨Load.hex_eq_words ht m addr, (Load.words_eq_bytes m addr ws).symm,
      Load.words_cases m addr ws⟩
  · intro config read path format
    refine ⟨fun hr hf => alike_withProgram fun m => ?_, fun hr hf => alike_withProgram fun m => ?_⟩
    · rw [hf]
      exact Load.program_eq_words_of_hex ht hr m _
    · rw [hf]
      exact Load.program_eq_words_of_bin hr m _

/-- One word without mark and zeros, the other in letters of both cases, and no end of the line. The
listing is loaded at 0x106, and four bytes further on there is no room for it. -/
theorem word_programs_agree_mixed :
    let text := "100093\n0XdeadBEEF"
    let ws : List Word := [0x00100093, 0xDEADBEEF]
    let bytes : List UInt8 := [0x93, 0, 0x10, 0, 0xEF, 0xBE, 0xAD, 0xDE]
    let m := Memory.empty 0x100 16
    Load.hex m 0x106 text = Load.words m 0x106 ws ∧
      Load.bytes m 0x106 bytes = Load.words m 0x106 ws ∧
      (Load.hex m 0x106 text).1 = .ok ⟨0x106, 8, none, none⟩ ∧
      (Load.hex m 0x106 text).2.load .byte 0x10A = .ok 0xEF ∧
      (Load.bytes m 0x106 bytes).2.load .byte 0x10A = .ok 0xEF ∧
      Load.hex m 0x10A text = (.error (.memory (.outOfRange 0x10A .byte 0x100 16)), m) ∧
      Load.bytes m 0x10A bytes = (.error (.memory (.outOfRange 0x10A .byte 0x100 16)), m) ∧
      Alike (ofWords {} ws) (ofConfig (fun _ => .ok text.toUTF8.data.toList)
        (Config.withProgram {} "p.hex" none) []) := by
  intro text ws bytes m
  have hfirst : Program.Spells 0x00100093 ['1', '0', '0', '0', '9', '3'] :=
    ⟨[], by decide, _, [1, 0, 0, 0, 9, 3], rfl, by decide, by decide, by decide⟩
  have hlast : Program.Spells 0xDEADBEEF ['0', 'X', 'd', 'e', 'a', 'd', 'B', 'E', 'E', 'F'] :=
    ⟨['0', 'X'], by decide, ['d', 'e', 'a', 'd', 'B', 'E', 'E', 'F'],
      [13, 14, 10, 13, 11, 14, 14, 15], rfl, by decide, by decide, by decide⟩
  have htext : text.toList = ['1', '0', '0', '0', '9', '3'] ++
      '\n' :: ['0', 'X', 'd', 'e', 'a', 'd', 'B', 'E', 'E', 'F'] := by decide
  have ht : Program.Lists ws text.toList := by
    rw [htext]
    exact .next hfirst (.last hlast)
  obtain ⟨hload, hmachine⟩ := (word_programs_agree ws).2 text ht
  obtain ⟨hhex, hbytes, _⟩ := hload m 0x106
  obtain ⟨hhex', hbytes', _⟩ := hload m 0x10A
  have hbyte : (Load.words m 0x106 ws).2.load .byte 0x10A = .ok 0xEF := by decide
  have hrefused : Load.words m 0x10A ws =
      (.error (.memory (.outOfRange 0x10A .byte 0x100 16)), m) := by decide
  refine ⟨hhex, hbytes, ?_, ?_, ?_, hhex'.trans hrefused, hbytes'.trans hrefused,
    (hmachine {} _ "p.hex" none).1 rfl (by decide)⟩
  · rw [hhex]
    decide
  · rw [hhex]
    exact hbyte
  · exact (congrArg (·.2.load .byte 0x10A) hbytes).trans hbyte

end Simulation
end Rv32i
