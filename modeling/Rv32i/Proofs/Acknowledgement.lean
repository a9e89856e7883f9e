import Rv32i.Proofs.Mailbox

namespace Rv32i.Simulation
open Memory

/-- A look at a mailbox reports what its word says. -/
theorem checkProbe_of_load {s : Simulation} {tohost value : Word}
    (hp : s.probe = some (.tohost tohost)) (hl : s.memory.load .word tohost = .ok value) :
    s.checkProbe.1 = Outcome.ofTohost? value := by
  simp only [checkProbe, hp, hl]
  cases ho : Outcome.ofTohost? value <;> rfl

theorem load_of_reported {s : Simulation} {tohost : Word} {o : Outcome}
    (hp : s.probe = some (.tohost tohost)) (ho : s.checkProbe.1 = some o) :
    ∃ value, s.memory.load .word tohost = .ok value ∧ Outcome.ofTohost? value = some o := by
  cases hl : s.memory.load .word tohost with
  | error e => simp [checkProbe, hp, hl] at ho
  | ok value => exact ⟨value, rfl, (checkProbe_of_load hp hl).symm.trans ho⟩

/-- What is left of the message `value` in the mailbox `tohost` once it is acknowledged. The mailbox
is cleared first, so a copy that goes to the same word stays there. -/
def remainder (s : Simulation) (tohost value : Word) : Word :=
  if s.fromhost = some tohost then value else 0

theorem Looked.load_tohost {s s' : Simulation} {o : Outcome} (h : Looked s (some o, s'))
    {tohost value : Word} (hp : s.probe = some (.tohost tohost))
    (hl : s.memory.load .word tohost = .ok value) :
    s'.memory.load .word tohost = .ok (s.remainder tohost value) := by
  generalize ha : (some o, s') = answer at h
  cases h with
  | unwatched hp' => cases hp.symm.trans hp'
  | compared hp' => cases hp.symm.trans hp'
  | empty => cases ha
  | taken hp' _ _ hf hc =>
    cases ha
    cases hp.symm.trans hp'
    have hne : ¬ s.fromhost = some tohost := by rw [hf]; exact nofun
    rw [remainder, if_neg hne]
    exact load_store_word hc
  | @handedBack _ _ fromhost _ _ _ hp' hl' _ hf hc hb =>
    cases ha
    cases hp.symm.trans hp'
    cases hl.symm.trans hl'
    have hw := (store_word_iff _ _ _).mp ⟨_, hc⟩
    rw [load_word_store_word tohost hb (hw.congr (store_geometry hc)), load_store_word hc]
    by_cases he : tohost = fromhost
    · subst he
      rw [if_pos rfl, remainder, if_pos hf]
    · have hne : ¬ s.fromhost = some tohost := by
        rw [hf]
        exact fun h => he (Option.some.inj h).symm
      rw [if_neg he, remainder, if_neg hne]

/-- The machine after a look at its probe. -/
def look (s : Simulation) : Simulation :=
  s.checkProbe.2

theorem look_load {s : Simulation} (hw : ∀ a ∈ s.mailboxes, s.memory.HasWord a)
    {tohost value : Word} {o : Outcome} (hp : s.probe = some (.tohost tohost))
    (hl : s.memory.load .word tohost = .ok value) (ho : Outcome.ofTohost? value = some o) :
    s.look.memory.load .word tohost = .ok (s.remainder tohost value) := by
  have hlooked := looked hw
  rcases hc : s.checkProbe with ⟨answer, s'⟩
  have hanswer : answer = some o := by
    have h := (checkProbe_of_load hp hl).trans ho
    rwa [hc] at h
  rw [hc, hanswer] at hlooked
  rw [look, hc]
  exact hlooked.load_tohost hp hl

/-- What the first look leaves in the mailbox, all later ones leave there too. -/
theorem look_load_remainder {s : Simulation} (hw : ∀ a ∈ s.mailboxes, s.memory.HasWord a)
    {tohost value : Word} {o : Outcome} (hp : s.probe = some (.tohost tohost))
    (hl : s.memory.load .word tohost = .ok (s.remainder tohost value))
    (ho : Outcome.ofTohost? value = some o) :
    s.look.memory.load .word tohost = .ok (s.remainder tohost value) := by
  by_cases hf : s.fromhost = some tohost
  · have hr : s.remainder tohost value = value := if_pos hf
    rw [hr] at hl
    exact look_load hw hp hl ho
  · have hr : s.remainder tohost value = 0 := if_neg hf
    have hquiet : s.checkProbe.1 = none := by
      rw [checkProbe_of_load hp hl, hr]
      rfl
    rw [look, (looked hw).discreet.unchanged (.inl hquiet)]
    exact hl

theorem looks_load {s : Simulation} (hw : ∀ a ∈ s.mailboxes, s.memory.HasWord a)
    {tohost value : Word} {o : Outcome} (hp : s.probe = some (.tohost tohost))
    (hl : s.memory.load .word tohost = .ok value) (ho : Outcome.ofTohost? value = some o)
    (n : Nat) : Wired s (look^[n + 1] s) ∧
      (look^[n + 1] s).memory.load .word tohost = .ok (s.remainder tohost value) := by
  induction n with
  | zero => exact ⟨s.checkProbe_wired, look_load hw hp hl ho⟩
  | succ n ih =>
    obtain ⟨hwired, hload⟩ := ih
    rw [Function.iterate_succ_apply']
    generalize look^[n + 1] s = r at hwired hload ⊢
    have hsame : r.remainder tohost value = s.remainder tohost value := by
      unfold remainder
      rw [hwired.fromhost]
    rw [← hsame] at hload ⊢
    exact ⟨hwired.trans r.checkProbe_wired,
      look_load_remainder (hwired.hasWords hw) (hwired.probe.trans hp) hload ho⟩

/-- A message is reported once and then gone, with one exception: if both mailboxes are one word,
the copy for the program is a message to the host again, and every further look reports it. -/
theorem later_look_reports {extra : List Definition} {s : Simulation} (hb : Built extra s)
    {tohost : Word} (hp : s.probe = some (.tohost tohost)) (requests : List Request) {o : Outcome}
    (ho : (requests.foldl Request.serve s).checkProbe.1 = some o) (n : Nat) :
    (look^[n + 1] (requests.foldl Request.serve s)).checkProbe.1 =
      if s.fromhost = some tohost then some o else none := by
  have hwired := serveAll_wired s requests
  generalize requests.foldl Request.serve s = r at hwired ho ⊢
  have hw : ∀ a ∈ r.mailboxes, r.memory.HasWord a := hwired.hasWords fun _ => hb.hasWord
  have hprobe : r.probe = some (.tohost tohost) := hwired.probe.trans hp
  obtain ⟨value, hl, hv⟩ := load_of_reported hprobe ho
  obtain ⟨hlast, hload⟩ := looks_load hw hprobe hl hv n
  rw [checkProbe_of_load (hlast.probe.trans hprobe) hload, remainder, hwired.fromhost]
  split
  · exact hv
  · rfl

/-- A file with two instructions that put 1 into the word at 16, with the symbols `tohost` for this
word and `fromhost` for the word at `fromhost`. -/
def messenger (fromhost : Word) : List UInt8 :=
  bytesOfWords
    [0x464C457F, 0x10101, 0, 0, 0xF30002, 1, 0, 52, 84, 0, 0x200034, 0x280001, 2,
     1, 212, 0, 0, 8, 8, 5, 4,
     0, 2, 0, 0, 164, 32, 1, 0, 4, 16, 0, 3, 0, 0, 196, 16, 0, 0, 1, 0,
     0, 16, 4, 0x10000, 7, fromhost, 4, 0x10000, 0x6F686F74, 0x66007473, 0x686D6F72, 0x74736F,
     0x00100093, 0x00102823]

/-- A machine with 32 bytes from 0 on that runs a file of this kind. -/
def messengerConfig : Config :=
  { program := some "p", format := some .elf, memory := ⟨0, 32⟩ }

theorem load_messenger {fromhost : Word} (h : fromhost = 16 ∨ fromhost = 24) :
    Load.program (fun _ => .ok (messenger fromhost)) (.empty 0 32) "p" .elf 0 =
      (.ok ⟨0, 8, some 16, some fromhost⟩,
        (Load.words (.empty 0 32) 0 [0x00100093, 0x00102823]).2) := by
  rcases h with rfl | rfl
  · decide +kernel
  · decide +kernel

theorem later_look_reports_nothing :
    ∃ s, ofConfig (fun _ => .ok (messenger 24)) messengerConfig [] = .ok s ∧
      ([Request.run 2].foldl Request.serve s).checkProbe.1 = some .passed ∧
      ∀ n, (look^[n + 1] ([Request.run 2].foldl Request.serve s)).checkProbe.1 = none := by
  have hs : ∃ s, ofConfig (fun _ => .ok (messenger 24)) messengerConfig [] = .ok s ∧
      ([Request.run 2].foldl Request.serve s).checkProbe.1 = some .passed ∧
      s.probe = some (.tohost 16) ∧ s.fromhost = some 24 := by
    rw [ofConfig_of_loaded messengerConfig [] rfl rfl (load_messenger (.inr rfl))]
    exact ⟨_, rfl, by decide, rfl, rfl⟩
  obtain ⟨s, hs, ho, hp, hf⟩ := hs
  refine ⟨s, hs, ho, fun n => ?_⟩
  have hlater := later_look_reports (.ofConfig hs) hp [.run 2] ho n
  rwa [hf, if_neg (by decide)] at hlater

/-- With one word for both mailboxes a single message counts twice. -/
theorem shared_mailbox_reports_twice :
    ∃ s, ofConfig (fun _ => .ok (messenger 16)) messengerConfig [] = .ok s ∧
      s.probe = some (.tohost 16) ∧ (s.run 2).2.checkProbe.1 = some .passed ∧
      (s.run 2).2.look.checkProbe.1 = some .passed := by
  rw [ofConfig_of_loaded messengerConfig [] rfl rfl (load_messenger (.inl rfl))]
  exact ⟨_, rfl, rfl, by decide, by decide⟩

end Rv32i.Simulation
