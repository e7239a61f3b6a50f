import Chip8Vm.Proofs.Console.History
import Chip8Vm.Proofs.Opcode.Disassembly

/-!
# Chip8Vm.Proofs.Console.TraceLog

The trace log tells the program that was carried out.

Every instruction that a step comes to is noted before it is carried out, with its address, its
word and its line of assembly, and nothing else is noted at that level.

* `Note.fetch?`, `Note.trace_eq` — the lines of a trace log;
* `disassembly` — the last column of a line;
* `Console.fetches_after` — what is fetched in a history is on record, in order;
* `disassembly_identifies` — so two logs with the same last column are of the same instructions.
-/

namespace Chip8Vm

/-- An instruction that was fetched: where it was found, and the word that spelled it. -/
structure Fetch where
  addr : UInt16
  word : UInt16
  instruction : Instruction
  deriving DecidableEq

namespace Fetch

/-- The word spells the instruction. -/
def Decoded (f : Fetch) : Prop := Instruction.decode f.word f.addr = .ok f.instruction

/-- The line of a trace log about it. -/
def line (f : Fetch) : String := (Note.fetched f.addr f.word f.instruction).text

end Fetch

namespace Note

def fetch? : Note → Option Fetch
  | fetched addr word i => some ⟨addr, word, i⟩
  | _ => none

variable {n : Note} {f : Fetch}

theorem level_of_fetch? (hf : n.fetch? = some f) : n.level = .trace ∧ n.text = f.line := by
  cases n with
  | fetched addr word i => cases hf; exact ⟨rfl, rfl⟩
  | _ => cases hf

theorem level_of_no_fetch? (hf : n.fetch? = none) : n.level ≠ .trace := by
  cases n with
  | fetched addr word i => cases hf
  | _ => simp [level]

/-- The lines of a trace log are about what was fetched. -/
theorem trace_eq (notes : List Note) :
    (notes.filter (·.level == .trace)).map text = (notes.filterMap fetch?).map Fetch.line := by
  induction notes with
  | nil => rfl
  | cons n notes ih =>
      cases hf : n.fetch? with
      | none =>
          have hlevel := level_of_no_fetch? hf
          rw [List.filterMap_cons_none hf, List.filter_cons_of_neg (by simp [hlevel]), ih]
      | some f =>
          obtain ⟨hlevel, htext⟩ := level_of_fetch? hf
          rw [List.filterMap_cons_some hf, List.filter_cons_of_pos (by simp [hlevel])]
          simp only [List.map_cons, htext, ih]

end Note

namespace Fetch

/-- The same instruction, from words that say the same. -/
structure Agrees (f g : Fetch) : Prop where
  instruction : f.instruction = g.instruction
  word : Alike f.word g.word

theorem agrees_of_text {f g : Fetch} (hf : f.Decoded) (hg : g.Decoded)
    (htext : f.instruction.text = g.instruction.text) : f.Agrees g where
  instruction := Instruction.text_inj htext
  word := (Instruction.text_eq_iff_alike hf hg).mp htext

theorem forall_agrees {fs gs : List Fetch} (hfs : ∀ f ∈ fs, f.Decoded) (hgs : ∀ g ∈ gs, g.Decoded)
    (htexts : fs.map (·.instruction.text) = gs.map (·.instruction.text)) :
    List.Forall₂ Agrees fs gs := by
  induction fs generalizing gs with
  | nil =>
      have hgs : gs = [] := by simpa using htexts.symm
      rw [hgs]
      exact .nil
  | cons f fs ih =>
      cases gs with
      | nil => simp at htexts
      | cons g gs =>
        obtain ⟨hf, hfs⟩ := List.forall_mem_cons.mp hfs
        obtain ⟨hg, hgs⟩ := List.forall_mem_cons.mp hgs
        obtain ⟨htext, htexts⟩ := List.cons.inj htexts
        exact .cons (agrees_of_text hf hg htext) (ih hfs hgs htexts)

end Fetch

/-! ## Columns -/

/-- The last column of a line: what stands behind the address, the four digits of the word and the
spaces around them. -/
def disassembly (line : String) : String :=
  String.ofList ((line.toList.dropWhile (· != ' ')).drop 8)

namespace Text

theorem space_notMem_hexAddress (width n : Nat) : ' ' ∉ (hexAddress width n).toList := by
  have hdigit : ∀ d : Nibble, hexDigit d ≠ ' ' := by decide
  simp [hexAddress, leastHex, notMem_fixedHex hdigit]

/-- What stands behind two columns, of which the first has no space and the second four signs. -/
theorem last_column {first second rest : List Char} (hfirst : ' ' ∉ first)
    (hsecond : second.length = 4) :
    ((first ++ ' ' :: ' ' :: (second ++ ' ' :: ' ' :: rest)).dropWhile (· != ' ')).drop 8 =
      rest := by
  have hsigns : ∀ c ∈ first, (c != ' ') = true := by grind
  rw [List.dropWhile_append_of_pos hsigns, List.dropWhile_cons_of_neg (by simp)]
  show (second ++ ' ' :: ' ' :: rest).drop 6 = rest
  rw [List.drop_append, hsecond, List.drop_of_length_le (by simp [hsecond])]
  rfl

theorem toList_columns (first second rest : String) :
    (first ++ "  " ++ second ++ "  " ++ rest).toList =
      first.toList ++ ' ' :: ' ' :: (second.toList ++ ' ' :: ' ' :: rest.toList) := by
  simp

end Text

theorem disassembly_line (f : Fetch) : disassembly f.line = f.instruction.text := by
  have haddr := Text.space_notMem_hexAddress 3 f.addr.toNat
  have hword := Text.length_fixedHex 4 f.word.toNat
  rw [← String.toList_ofList (l := Text.fixedHex 4 f.word.toNat)] at hword
  have hline : f.line = Text.hexAddress 3 f.addr.toNat ++ "  " ++
      String.ofList (Text.fixedHex 4 f.word.toNat) ++ "  " ++ f.instruction.text := rfl
  rw [disassembly, hline, Text.toList_columns, Text.last_column haddr hword, String.ofList_toList]

/-! ## What is noted -/

/-- What the next step fetches. -/
def Machine.fetched? {w h : Nat} (m : Machine w h) : Option Fetch :=
  m.upcoming?.map fun i => ⟨m.cpu.pc, m.ram.word m.cpu.pc, i⟩

/-- A step notes what it fetches, whether it is then carried out or not. -/
theorem Machine.filterMap_notes_step {w h : Nat} (m : Machine w h) :
    m.step.notes.filterMap Note.fetch? = m.fetched?.toList := by
  have hexecution : ∀ i, (executionNotes i).filterMap Note.fetch? = [] := by
    intro i
    cases i <;> simp [executionNotes, Note.fetch?]
  generalize hout : m.step = out
  have hcase := hout ▸ m.stepCase
  cases hcase with
  | waiting hmode hslot => simp [fetched?, upcoming?, hmode]
  | resumed hmode hslot => simp [fetched?, upcoming?, hmode, Note.fetch?]
  | unknown hmode hword => simp [fetched?, upcoming?, hmode, hword]
  | refused hi hf => simp [fetched?, hi, fetchNotes, Note.fetch?, hexecution]
  | executed hi hm' => simp [fetched?, hi, fetchNotes, Note.fetch?, hexecution]

namespace Console

variable {w h : Nat} {c : Console w h}

/-- What an operation fetches: only steps fetch anything. -/
def fetch? (c : Console w h) : Operation → Option Fetch
  | .step => c.machine.fetched?
  | _ => none

/-- What was fetched according to the journal. -/
def fetches (c : Console w h) : List Fetch := c.journal.toList.filterMap Note.fetch?

/-- The lines of the trace log. -/
def traceLog (c : Console w h) : List String :=
  (c.journal.toList.filter (·.level == .trace)).map Note.text

theorem traceLog_eq (c : Console w h) : c.traceLog = c.fetches.map Fetch.line :=
  Note.trace_eq c.journal.toList

theorem decoded_of_fetch? {op : Operation} {f : Fetch} (hf : c.fetch? op = some f) :
    f.Decoded := by
  cases op with
  | step =>
      obtain ⟨i, hi, rfl⟩ := Option.map_eq_some_iff.mp hf
      exact Instruction.decode_eq_ok_iff.mpr (Machine.ofWord?_of_upcoming hi)
  | _ => cases hf

/-- An instruction that is carried out was fetched. -/
theorem fetch?_of_executed {i : Instruction} (hi : c.step.1 = .ok (.executed i)) :
    ∃ f, c.fetch? .step = some f ∧ f.instruction = i := by
  obtain ⟨e, hr⟩ := result_of_step_ok hi
  obtain ⟨hupcoming, -⟩ := Machine.execute_of_result hr
  exact ⟨_, Option.map_eq_some_iff.mpr ⟨i, hupcoming, rfl⟩, rfl⟩

/-! ### One operation -/

theorem fetches_note (c : Console w h) (notes : List Note) :
    (c.note notes).fetches = c.fetches ++ notes.filterMap Note.fetch? := by
  simp [fetches, note]

theorem fetches_callTone (c : Console w h) (call : ToneCall) :
    (c.callTone call).2.fetches = c.fetches := by
  unfold callTone
  obtain ⟨_ | _, tone⟩ := c.tone.call call <;> rfl

theorem fetches_syncTone (c : Console w h) : c.syncTone.2.fetches = c.fetches := by
  simp only [syncTone]
  split
  · rfl
  · split <;> rw [fetches_callTone, fetches_note] <;> simp [Note.fetch?]

theorem fetches_perform (c : Console w h) (e : Effect) : (c.perform e).2.fetches = c.fetches := by
  cases e with
  | nothing => rfl
  | present => rfl
  | tone => exact fetches_syncTone c

theorem fetches_counting (c : Console w h) (o : Outcome) : (c.counting o).fetches = c.fetches := by
  cases o <;> rfl

theorem fetches_stepped (c : Console w h) :
    c.stepped.fetches = c.fetches ++ (c.fetch? .step).toList := by
  rw [stepped, fetches_note, Machine.filterMap_notes_step]
  rfl

theorem fetches_step (c : Console w h) :
    c.step.2.fetches = c.fetches ++ (c.fetch? .step).toList := by
  rw [← fetches_stepped]
  generalize hout : c.step = out
  have hcase := hout ▸ c.stepCase
  cases hcase with
  | fault hf => rfl
  | @refused o e f d hr hd =>
      have hfetches := fetches_perform c.stepped e
      rwa [hd] at hfetches
  | @done o e d hr hd =>
      have hfetches := fetches_perform c.stepped e
      rw [hd] at hfetches
      exact (fetches_counting d o).trans hfetches

theorem fetches_load (c : Console w h) (source : Source) :
    (c.load source).2.fetches = c.fetches := by
  unfold load
  obtain ⟨_ | n, ram⟩ := c.machine.ram.load source
  · rfl
  · rw [fetches_note]
    simp [fetches, Note.fetch?]

theorem fetches_shutdown (c : Console w h) : c.shutdown.2.fetches = c.fetches :=
  shutdown_keeps fetches fetches_callTone (fun _ => rfl) c

theorem fetches_accept (c : Console w h) (e : KeyEvent) : (c.accept e).fetches = c.fetches := by
  unfold accept HexPad.notes
  split
  · rfl
  · rw [fetches_note]
    simp [fetches, Note.fetch?]

/-- The journal gets what an operation fetches. -/
theorem fetches_operate (c : Console w h) (op : Operation) :
    (c.operate op).2.fetches = c.fetches ++ (c.fetch? op).toList := by
  cases op with
  | step => exact fetches_step c
  | load source => exact (fetches_load c source).trans (List.append_nil _).symm
  | tick =>
      have hsync := fetches_syncTone { c with machine := c.machine.tick }
      exact hsync.trans (List.append_nil _).symm
  | shutdown => exact (fetches_shutdown c).trans (List.append_nil _).symm
  | accept e => exact (fetches_accept c e).trans (List.append_nil _).symm
  | configure wrap seed => cases seed <;> exact (List.append_nil _).symm
  | _ => exact (List.append_nil _).symm

/-! ### Histories -/

/-- What is fetched in a history is on record, in its order. -/
theorem fetches_after (c : Console w h) (ops : List Operation) :
    (c.after ops).fetches = c.fetches ++ trace fetch? c ops := by
  induction ops generalizing c with
  | nil => simp [after, trace]
  | cons op ops ih => rw [after, trace, ih, fetches_operate, List.append_assoc]

theorem decoded_of_mem_trace {ops : List Operation} {f : Fetch} (hf : f ∈ trace fetch? c ops) :
    f.Decoded := by
  induction ops generalizing c with
  | nil => simp [trace] at hf
  | cons op ops ih =>
      rw [trace, List.mem_append] at hf
      obtain hnow | hlater := hf
      · exact decoded_of_fetch? (by simpa using hnow)
      · exact ih hlater

/-- The last column of the log of a history names what was fetched in it. -/
theorem map_disassembly_traceLog {ops : List Operation} (hc : c.traceLog = []) :
    (c.after ops).traceLog.map disassembly =
      (trace fetch? c ops).map (·.instruction.text) := by
  have hnone : c.fetches = [] := by simpa [traceLog_eq] using hc
  rw [traceLog_eq, fetches_after, hnone, List.nil_append, List.map_map]
  exact List.map_congr_left fun f _ => disassembly_line f

/-- **Disassembly identifies the instruction.** Instructions with the same line of assembly are
the same, and two words that are instructions have the same line exactly if all of their digits
agree, but for the third of a shift.  Whatever a step carries out is on record in the trace log, in
its order and beside what then turned out to be at fault; so if the lines of assembly in two trace
logs are the same, then the same instructions were come to one after the other, from words that
agree but for that digit. -/
theorem disassembly_identifies (w h w' h' : Nat) :
    (∀ i j : Instruction, i.text = j.text → i = j) ∧
    (∀ word word' addr addr' i j, Instruction.decode word addr = .ok i →
      Instruction.decode word' addr' = .ok j → (i.text = j.text ↔ Alike word word')) ∧
    (∀ (c : Console w h) i, c.step.1 = .ok (.executed i) →
      ∃ f, c.fetch? .step = some f ∧ f.instruction = i) ∧
    (∀ (c : Console w h) (d : Console w' h') ops ops', c.traceLog = [] → d.traceLog = [] →
      (c.after ops).traceLog.map disassembly = (d.after ops').traceLog.map disassembly →
      List.Forall₂ Fetch.Agrees (trace fetch? c ops) (trace fetch? d ops')) := by
  refine ⟨fun i j => Instruction.text_inj, fun _ _ _ _ i j => Instruction.text_eq_iff_alike,
    fun c i => fetch?_of_executed, fun c d ops ops' hc hd hlogs => ?_⟩
  rw [map_disassembly_traceLog hc, map_disassembly_traceLog hd] at hlogs
  exact Fetch.forall_agrees (fun f => decoded_of_mem_trace) (fun g => decoded_of_mem_trace) hlogs

/-- A console with a program that shifts V1 and then begins again; the third digit of the shift
is a matter of taste. -/
def shifting (kk : UInt8) : Console 8 4 :=
  ((plugged 8 4 (.chacha 5) .inherited {}).operate (.load { bytes := [0x81, kk, 0x12, 0x00] })).2

/-- No byte, address or register is spelled `B`; and the logs of `8126` and `8136` are the same,
although the programs are not. -/
theorem disassembly_identifies_shifting :
    (∀ i : Instruction, i.text = "LD B, VF" → i = .decimal 15) ∧
    Alike 0x8126 0x8136 ∧
    (shifting 0x26).traceLog = [] ∧ (shifting 0x36).traceLog = [] ∧
    ((shifting 0x26).after [.step, .tick, .step]).traceLog.map disassembly =
      ((shifting 0x36).after [.step, .step]).traceLog.map disassembly ∧
    List.Forall₂ Fetch.Agrees (trace fetch? (shifting 0x26) [.step, .tick, .step])
      (trace fetch? (shifting 0x36) [.step, .step]) ∧
    trace fetch? (shifting 0x26) [.step, .tick, .step] ≠
      trace fetch? (shifting 0x36) [.step, .step] := by
  obtain ⟨htext, hword, -, htold⟩ := disassembly_identifies 8 4 8 4
  have hdecimal : (Instruction.decimal 15).text = "LD B, VF" := by decide +kernel
  have hone : Instruction.decode 0x8126 0x200 = .ok (.shiftRight 1) := rfl
  have hother : Instruction.decode 0x8136 0x200 = .ok (.shiftRight 1) := rfl
  obtain ⟨hnew, hnew', hlogs, hdiffer⟩ :
      (shifting 0x26).traceLog = [] ∧ (shifting 0x36).traceLog = [] ∧
      ((shifting 0x26).after [.step, .tick, .step]).traceLog.map disassembly =
        ((shifting 0x36).after [.step, .step]).traceLog.map disassembly ∧
      trace fetch? (shifting 0x26) [.step, .tick, .step] ≠
        trace fetch? (shifting 0x36) [.step, .step] := by decide +kernel
  exact ⟨fun i hi => htext i _ (hi.trans hdecimal.symm), (hword _ _ _ _ _ _ hone hother).mp rfl,
    hnew, hnew', hlogs, htold _ _ _ _ hnew hnew' hlogs, hdiffer⟩

end Console

end Chip8Vm
