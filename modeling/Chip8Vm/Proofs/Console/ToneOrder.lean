import Mathlib.Data.List.Induction
import Chip8Vm.Proofs.Console.History
import Chip8Vm.Proofs.Console.InTune

/-!
# Chip8Vm.Proofs.Console.ToneOrder

The calls to the tone generator come in turn.

A call is due when it would change something: a beep while the tone is off, and a stop
while it is on.  `Tone.Orderly` says of a record that every call was due when it was made,
whether it then succeeded or not.  The calls that succeed then alternate, beginning with a
beep (`Tone.Orderly.alternating`).  The console calls the generator only when what it keeps
about the tone says that the call is due, and what it keeps is right (`InTune`); so the
record of every history is orderly (`inOrder_after`).
-/

namespace Chip8Vm

/-! ## Records of calls -/

namespace Tone

/-- Is the tone on after these calls?  It is off in the beginning, and the last call that
succeeded decides. -/
def onAfter (calls : List (ToneCall × Bool)) : Bool :=
  calls.foldl (fun on call => if call.2 then call.1 == .beep else on) false

/-- Every call was due: the tone was off at each beep, and on at each stop. -/
def Orderly (calls : List (ToneCall × Bool)) : Prop :=
  ∀ before call ok later, calls = before ++ (call, ok) :: later →
    onAfter before = (call == .stop)

/-- The calls that succeeded. -/
def accepted (calls : List (ToneCall × Bool)) : List ToneCall :=
  (calls.filter Prod.snd).map Prod.fst

/-- A beep, a stop, a beep, and so on. -/
def Alternating (calls : List ToneCall) : Prop :=
  ∀ (k : Nat) (call : ToneCall), calls[k]? = some call → (call = .beep ↔ k % 2 = 0)

variable {calls : List (ToneCall × Bool)} {call : ToneCall} {ok : Bool}

theorem isOn_eq (t : Tone) : t.isOn = onAfter t.calls.toList := by
  rw [isOn, onAfter, Array.foldl_toList]

theorem onAfter_concat :
    onAfter (calls ++ [(call, ok)]) = if ok then call == .beep else onAfter calls := by
  rw [onAfter, List.foldl_append]
  rfl

theorem accepted_concat :
    accepted (calls ++ [(call, ok)]) = accepted calls ++ if ok then [call] else [] := by
  cases ok <;> simp [accepted]

theorem orderly_nil : Orderly [] := by
  intro before call ok later hcalls
  simp at hcalls

/-- A record is orderly exactly if it was before the last call and that call was due. -/
theorem orderly_concat :
    Orderly (calls ++ [(call, ok)]) ↔ Orderly calls ∧ onAfter calls = (call == .stop) := by
  constructor
  · intro hcalls
    refine ⟨fun before c o later heq => ?_, hcalls calls call ok [] rfl⟩
    exact hcalls before c o (later ++ [(call, ok)]) (by rw [heq, List.append_assoc]; rfl)
  · rintro ⟨hcalls, hdue⟩ before c o later heq
    obtain rfl | ⟨rest, last, rfl⟩ := later.eq_nil_or_concat
    · obtain ⟨rfl, hlast⟩ := List.append_inj' heq rfl
      cases hlast
      exact hdue
    · rw [List.concat_eq_append, ← List.cons_append, ← List.append_assoc] at heq
      exact hcalls before c o rest (List.append_inj' heq rfl).1

/-- The calls of an orderly record that succeeded alternate, and the tone is on after an odd
number of them. -/
theorem Orderly.alternating (hcalls : Orderly calls) :
    Alternating (accepted calls) ∧ onAfter calls = ((accepted calls).length % 2 == 1) := by
  induction calls using List.reverseRecOn with
  | nil => exact ⟨nofun, rfl⟩
  | append_singleton calls last ih =>
      obtain ⟨call, ok⟩ := last
      obtain ⟨hbefore, hdue⟩ := orderly_concat.mp hcalls
      obtain ⟨halternating, hon⟩ := ih hbefore
      rw [accepted_concat, onAfter_concat]
      cases ok with
      | false => simpa using ⟨halternating, hon⟩
      | true =>
          rw [hdue] at hon
          simp only [if_true, List.length_append, List.length_singleton]
          refine ⟨fun k c hc => ?_, ?_⟩
          · rw [List.getElem?_append] at hc
            split at hc
            · exact halternating k c hc
            · next hk =>
              rw [List.getElem?_singleton] at hc
              split at hc
              · next hlast =>
                cases hc
                have hlength : k = (accepted calls).length := by omega
                rw [hlength]
                cases call <;> simp_all
              · exact nomatch hc
          · cases call <;> simp_all <;> omega

/-- A call that is due leaves the record orderly, whether it succeeds or not. -/
theorem orderly_call {t : Tone} (ht : Orderly t.calls.toList) (hdue : t.isOn = (call == .stop)) :
    Orderly (t.call call).2.calls.toList := by
  rw [isOn_eq] at hdue
  rw [call_eq]
  split
  · simpa using orderly_concat.mpr ⟨ht, hdue⟩
  · simpa using orderly_concat.mpr ⟨ht, hdue⟩

end Tone

/-! ## Consoles -/

namespace Console

variable {w h : Nat} {c d : Console w h}

/-- The console knows whether the tone is on, and every call to the generator was due. -/
structure InOrder (c : Console w h) : Prop where
  inTune : c.InTune
  orderly : Tone.Orderly c.tone.calls.toList

theorem Unused.inOrder (hc : c.Unused) : c.InOrder where
  inTune := hc.inTune
  orderly := by
    rw [hc.tone]
    exact Tone.orderly_nil

theorem inOrder_callTone (hc : c.InOrder) {call : ToneCall} (hdue : c.sounding = (call == .stop)) :
    (c.callTone call).2.InOrder := by
  refine ⟨inTune_callTone hc.inTune call, ?_⟩
  have hcalled := Tone.orderly_call hc.orderly (hc.inTune ▸ hdue)
  cases hr : c.tone.refuses call with
  | true =>
      rw [callTone_refused hr]
      exact hcalled
  | false =>
      rw [callTone_accepted hr]
      exact hcalled

/-- The tone is brought in line by the call that is due, or by none. -/
theorem inOrder_syncTone (hc : c.InOrder) : c.syncTone.2.InOrder := by
  simp only [syncTone]
  split
  · exact hc
  · next hout =>
    rw [beq_iff_eq] at hout
    split
    · next hticks =>
      have hoff : c.sounding = false := eq_false_of_ne_true fun hs => hout (hticks.trans hs.symm)
      exact inOrder_callTone (c := c.note _) ⟨hc.inTune, hc.orderly⟩ hoff
    · next hticks =>
      rw [Bool.not_eq_true] at hticks
      have hon : c.sounding = true := eq_true_of_ne_false fun hs =>
        hout (hticks.trans hs.symm)
      exact inOrder_callTone (c := c.note _) ⟨hc.inTune, hc.orderly⟩ hon

theorem InOrder.of_untouched (hd : Untouched c d) (hc : c.InOrder) : d.InOrder where
  inTune := hc.inTune.of_untouched hd
  orderly := by
    have htone : d.tone = c.tone := congrArg (·.2.1) hd.devices
    rw [htone]
    exact hc.orderly

theorem stable_inOrder : Stable (InOrder : Console w h → Prop) :=
  .ofPerform (fun _ _ => InOrder.of_untouched) fun _ e hc => by
    cases e with
    | nothing => exact hc
    | present => exact ⟨hc.inTune, hc.orderly⟩
    | tone => exact inOrder_syncTone hc

/-! ## Shutting down -/

/-- The console once the tone is silenced, or was asked to be. -/
def silenced (c : Console w h) : Console w h :=
  if c.sounding then (c.callTone .stop).2 else c

/-- What a shutdown leaves of the generator is what silencing it leaves. -/
theorem tone_shutdown (c : Console w h) :
    c.shutdown.2.tone = c.silenced.tone ∧ c.shutdown.2.sounding = c.silenced.sounding := by
  unfold shutdown silenced
  cases hs : c.sounding with
  | false => simp [hs]
  | true =>
      simp only [if_true]
      obtain ⟨_ | _, d⟩ := c.callTone .stop <;> exact ⟨rfl, rfl⟩

theorem inOrder_silenced (hc : c.InOrder) : c.silenced.InOrder := by
  unfold silenced
  split
  · next hs => exact inOrder_callTone hc hs
  · exact hc

theorem inOrder_shutdown (hc : c.InOrder) : c.shutdown.2.InOrder := by
  obtain ⟨htone, hsounding⟩ := c.tone_shutdown
  have hsilenced := inOrder_silenced hc
  constructor
  · rw [InTune, htone, hsounding]
    exact hsilenced.inTune
  · rw [htone]
    exact hsilenced.orderly

/-- The tone is on after a shutdown only if the last call of all was the shutdown's, and
failed. -/
theorem calls_shutdown_of_isOn (hc : c.InTune) (hon : c.shutdown.2.tone.isOn = true) :
    c.shutdown.2.tone.calls = c.tone.calls.push (.stop, false) := by
  rw [c.tone_shutdown.1] at hon ⊢
  unfold silenced at hon ⊢
  cases hs : c.sounding with
  | false =>
      rw [hs] at hon
      exact nomatch hs.symm.trans (hc.trans hon)
  | true =>
      rw [hs] at hon
      cases hr : c.tone.refuses .stop with
      | true => simp [callTone_refused hr, Tone.call_eq, hr]
      | false => simp [callTone_accepted hr, hr] at hon

/-! ## Histories -/

/-- Whatever is done with a console that was not used yet, every call to its generator is
due. -/
theorem inOrder_after (hc : c.Unused) (ops : List Operation) : (c.after ops).InOrder :=
  stable_inOrder.after (fun _ _ hd => ⟨hd.inTune, hd.orderly⟩) (fun _ => inOrder_shutdown)
    hc.inOrder ops

theorem sounding_of_callTone {call : ToneCall} (hd : c.callTone call = (.ok (), d)) :
    d.sounding = (call == .beep) := by
  cases hr : c.tone.refuses call with
  | true =>
      rw [callTone_refused hr] at hd
      exact nomatch hd
  | false =>
      rw [callTone_accepted hr] at hd
      cases hd
      rfl

/-- When the tone was brought in line without a fault, it is as the sound timer says. -/
theorem sounding_of_syncTone (hd : c.syncTone = (.ok (), d)) :
    d.sounding = (c.machine.cpu.sound != 0) := by
  simp only [syncTone] at hd
  split at hd
  · next hin =>
    cases hd
    exact (beq_iff_eq.mp hin).symm
  · split at hd
    · next hticks =>
      rw [sounding_of_callTone hd, hticks]
      rfl
    · next hticks =>
      rw [Bool.not_eq_true] at hticks
      rw [sounding_of_callTone hd, hticks]
      rfl

/-- After a tick without a fault the tone is on exactly while the sound timer runs. -/
theorem isOn_tickTimers (hc : c.InTune) (hok : c.tickTimers.1 = .ok ()) :
    c.tickTimers.2.tone.isOn = true ↔ c.tickTimers.2.machine.cpu.sound ≠ 0 := by
  have htuned : c.tickTimers.2.InTune := inTune_syncTone (c := { c with machine := _ }) hc
  have hmachine : c.tickTimers.2.machine = c.machine.tick := machine_syncTone _
  have hsounding : c.tickTimers.2.sounding = (c.machine.tick.cpu.sound != 0) :=
    sounding_of_syncTone (Prod.ext hok rfl)
  rw [← htuned, hsounding, hmachine, bne_iff_ne]

end Console

end Chip8Vm
