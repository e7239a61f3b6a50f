import Chip8Vm.Proofs.Console.Step

/-!
# Chip8Vm.Proofs.Console.Unnoted

Consoles apart from their notes.

No operation reads the journal.  `Unreading` says so of one operation: without
notes to begin with, it gives the same result and leaves the same console, notes
apart.  Two consoles that differ in their notes alone are therefore served alike
(`serve_congr`).
-/

namespace Chip8Vm.Console

variable {α : Type} {w h : Nat}

/-- The console without its notes. -/
def unnoted (c : Console w h) : Console w h := { c with journal := #[] }

@[simp] theorem unnoted_note (c : Console w h) (n : List Note) : (c.note n).unnoted = c.unnoted :=
  rfl

theorem isStopped_congr {c d : Console w h} (hcd : c.unnoted = d.unnoted) :
    c.isStopped = d.isStopped := by
  have hc : c.unnoted.isStopped = c.isStopped := rfl
  have hd : d.unnoted.isStopped = d.isStopped := rfl
  rw [← hc, ← hd, hcd]

/-- An operation that does not read the notes. -/
def Unreading (op : Console w h → α × Console w h) : Prop :=
  ∀ c, (op c.unnoted).1 = (op c).1 ∧ (op c.unnoted).2.unnoted = (op c).2.unnoted

/-- Such an operation takes consoles that differ in their notes alone to such consoles. -/
theorem Unreading.congr {op : Console w h → α × Console w h} (hop : Unreading op)
    {c d : Console w h} (hcd : c.unnoted = d.unnoted) :
    (op c).1 = (op d).1 ∧ (op c).2.unnoted = (op d).2.unnoted := by
  rw [← (hop c).1, ← (hop c).2, ← (hop d).1, ← (hop d).2, hcd]
  exact ⟨rfl, rfl⟩

/-! ## The operations -/

theorem unreading_present : Unreading (present : Console w h → _) := fun _ => ⟨rfl, rfl⟩

theorem unreading_callTone (call : ToneCall) :
    Unreading (fun c : Console w h => c.callTone call) := by
  intro c
  have hcall : c.unnoted.tone.call call = c.tone.call call := rfl
  simp only [callTone, hcall]
  obtain ⟨_ | _, t⟩ := c.tone.call call <;> exact ⟨rfl, rfl⟩

theorem unreading_syncTone : Unreading (syncTone : Console w h → _) := by
  intro c
  have hsound : c.unnoted.machine.cpu.sound = c.machine.cpu.sound := rfl
  have hsounding : c.unnoted.sounding = c.sounding := rfl
  simp only [syncTone, hsound, hsounding]
  split
  · exact ⟨rfl, rfl⟩
  · split
    · exact (unreading_callTone .beep).congr (c := c.unnoted.note _) (d := c.note _) rfl
    · exact (unreading_callTone .stop).congr (c := c.unnoted.note _) (d := c.note _) rfl

theorem unreading_perform (e : Effect) : Unreading (fun c : Console w h => c.perform e) := by
  cases e with
  | nothing => exact fun _ => ⟨rfl, rfl⟩
  | present => exact unreading_present
  | tone => exact unreading_syncTone

theorem unreading_step : Unreading (step : Console w h → _) := by
  intro c
  have hmachine : c.unnoted.machine = c.machine := rfl
  have hstepped : c.unnoted.stepped.unnoted = c.stepped.unnoted := rfl
  simp only [step, hmachine]
  rcases hr : c.machine.step.result with _ | ⟨o, e⟩
  · exact ⟨rfl, rfl⟩
  · obtain ⟨hresult, hconsole⟩ := (unreading_perform e).congr hstepped
    simp only [stepped, hmachine] at hresult hconsole
    simp only
    generalize ({ c.unnoted with machine := c.machine.step.machine }.note
      c.machine.step.notes).perform e = out₁ at hresult hconsole
    generalize ({ c with machine := c.machine.step.machine }.note
      c.machine.step.notes).perform e = out₂ at hresult hconsole
    obtain ⟨r, d₁⟩ := out₁
    obtain ⟨r, d₂⟩ := out₂
    obtain rfl : _ = _ := hresult
    cases r with
    | error f => exact ⟨rfl, hconsole⟩
    | ok u => cases o <;> simp_all [unnoted]

theorem unreading_serve (t : Tick) : Unreading (fun c : Console w h => c.serve t) := by
  intro c
  cases t with
  | timer => exact unreading_syncTone.congr (c := { c.unnoted with machine := c.machine.tick }) rfl
  | instruction =>
      obtain ⟨hresult, hconsole⟩ := unreading_step c
      simp only [serve]
      generalize c.unnoted.step = out₁ at hresult hconsole
      generalize c.step = out₂ at hresult hconsole
      obtain ⟨r, d₁⟩ := out₁
      obtain ⟨r, d₂⟩ := out₂
      obtain rfl : _ = _ := hresult
      cases r <;> exact ⟨rfl, hconsole⟩

/-- A tick goes alike on consoles that differ in their notes alone. -/
theorem serve_congr {c d : Console w h} (hcd : c.unnoted = d.unnoted) (t : Tick) :
    (c.serve t).1 = (d.serve t).1 ∧ (c.serve t).2.unnoted = (d.serve t).2.unnoted :=
  (unreading_serve t).congr hcd

end Chip8Vm.Console
