import Chip8Vm.Proofs.Console.Unnoted

/-!
# Chip8Vm.Proofs.Pace.Steady

What a run may rely on in a clock.

A clock is used by letting it go on, over a lapse or over a sleep.  It is steady from
a state on if, in all states it can come to from there, its readings are spans that
never go back, a sleep lasts at least until its deadline, and nobody touches a key.
It may oversleep by any amount, time may go on at any point, and the stop signal may
be raised; it is quiet if the signal is not.
-/

namespace Chip8Vm

namespace Clock

variable {σ : Type} {clock : Clock σ} {last : Nat} {s t : σ}

/-- The ways in which a clock goes on: over a lapse, or over a sleep with a deadline that
is not past `last`. -/
inductive Goes (clock : Clock σ) (last : Nat) (t : σ) : σ × List Happening → Prop where
  | lapse : Goes clock last t (clock.lapse t)
  | sleep {deadline : Nat} (hd : deadline ≤ last) : Goes clock last t (clock.sleepUntil deadline t)

/-- The states that a clock can come to from `s`. -/
inductive Reaches (clock : Clock σ) (last : Nat) (s : σ) : σ → Prop where
  | here : Reaches clock last s s
  | next {t : σ} {meanwhile : σ × List Happening} (ht : Reaches clock last s t)
      (hgoes : clock.Goes last t meanwhile) : Reaches clock last s meanwhile.1

/-- The clock can be relied on from `s`, for sleeps until `last` at the latest. -/
structure Steady (clock : Clock σ) (last : Nat) (s : σ) : Prop where
  /-- The readings are spans. -/
  readable : ∀ {t}, clock.Reaches last s t → clock.now t ≤ Span.longest
  /-- Time never goes back. -/
  forward : ∀ {t meanwhile}, clock.Reaches last s t → clock.Goes last t meanwhile →
    clock.now t ≤ clock.now meanwhile.1
  /-- No sleep ends early. -/
  awake : ∀ {t deadline}, clock.Reaches last s t → deadline ≤ last →
    deadline ≤ clock.now (clock.sleepUntil deadline t).1
  /-- No key goes down or comes up. -/
  keyless : ∀ {t meanwhile}, clock.Reaches last s t → clock.Goes last t meanwhile →
    ∀ e, .key e ∉ meanwhile.2

/-- Nobody raises the stop signal while the clock goes on. -/
def Quiet (clock : Clock σ) (last : Nat) (s : σ) : Prop :=
  ∀ {t meanwhile}, clock.Reaches last s t → clock.Goes last t meanwhile → .stop ∉ meanwhile.2

theorem Steady.read? (hsteady : clock.Steady last s) (ht : clock.Reaches last s t) :
    clock.read? t = some (clock.now t) :=
  if_pos (hsteady.readable ht)

/-- The punctual clock shows a time between the start and the last deadline. -/
theorem now_punctual_le {last s t : Nat} (ht : punctual.Reaches last s t) : t ≤ max s last := by
  induction ht with
  | here => exact Nat.le_max_left _ _
  | next ht hgoes ih =>
      cases hgoes with
      | lapse => exact ih
      | sleep hd => exact Nat.max_le.mpr ⟨ih, Nat.le_trans hd (Nat.le_max_right _ _)⟩

theorem steady_punctual {last s : Nat} (hs : s ≤ Span.longest) (hlast : last ≤ Span.longest) :
    punctual.Steady last s where
  readable ht := Nat.le_trans (now_punctual_le ht) (Nat.max_le.mpr ⟨hs, hlast⟩)
  forward _ hgoes := by
    cases hgoes with
    | lapse => exact Nat.le_refl _
    | sleep hd => exact Nat.le_max_left _ _
  awake _ _ := Nat.le_max_right _ _
  keyless _ hgoes e := by cases hgoes <;> exact List.not_mem_nil

theorem quiet_punctual {last s : Nat} : punctual.Quiet last s := by
  intro t meanwhile _ hgoes
  cases hgoes <;> exact List.not_mem_nil

end Clock

namespace Console

variable {w h : Nat} {c d : Console w h}

/-! ## The stop signal -/

theorem isStopped_of_untouched (hd : Untouched c d) (hc : c.isStopped = true) :
    d.isStopped = true := by
  have hscreen : d.screen = c.screen := congrArg Prod.fst hd.devices
  rw [isStopped, Bool.or_eq_true, hscreen]
  exact (Bool.or_eq_true _ _ ▸ hc).imp_left hd.stop

theorem isStopped_present (hc : c.isStopped = true) : c.present.2.isStopped = true := by
  have hscreen : c.present.2.screen =
      (c.screen.perform (Screen.presentation c.machine.picture)).2 := rfl
  rw [isStopped, Bool.or_eq_true, hscreen]
  exact (Bool.or_eq_true _ _ ▸ hc).imp_right (Screen.raised_perform _)

theorem isStopped_callTone (hc : c.isStopped = true) (call : ToneCall) :
    (c.callTone call).2.isStopped = true := by
  unfold callTone
  obtain ⟨_ | _, t⟩ := c.tone.call call <;> exact hc

theorem isStopped_syncTone (hc : c.isStopped = true) : c.syncTone.2.isStopped = true := by
  simp only [syncTone]
  split
  · exact hc
  · split
    · exact isStopped_callTone (c := c.note _) hc .beep
    · exact isStopped_callTone (c := c.note _) hc .stop

/-- Nothing takes the stop signal back. -/
theorem stable_isStopped : Stable (fun c : Console w h => c.isStopped = true) :=
  .ofPerform (fun _ _ => isStopped_of_untouched) fun c e hc => by
    cases e with
    | nothing => exact hc
    | present => exact isStopped_present hc
    | tone => exact isStopped_syncTone hc

/-! ## Happenings -/

/-- Nothing that happens but the keys and the stop signal touches more than the notes. -/
theorem unnoted_happenings (happenings : List Happening) (hkeys : ∀ e, .key e ∉ happenings)
    (hstop : .stop ∉ happenings) (c : Console w h) :
    (happenings.foldl happen c).unnoted = c.unnoted := by
  induction happenings generalizing c with
  | nil => rfl
  | cons e rest ih =>
      simp only [List.mem_cons, not_or] at hkeys hstop
      rw [List.foldl_cons, ih (fun e => (hkeys e).2) hstop.2]
      cases e with
      | key e => exact absurd rfl (hkeys e).1
      | note n => exact unnoted_note c [n]
      | stop => exact absurd rfl hstop.1

/-- Where the stop signal is among what happens, it is raised afterwards. -/
theorem isStopped_happenings (happenings : List Happening) (hstop : .stop ∈ happenings)
    (c : Console w h) : (happenings.foldl happen c).isStopped = true := by
  obtain ⟨before, after, rfl⟩ := List.append_of_mem hstop
  rw [List.foldl_append, List.foldl_cons]
  have hraised : ((before.foldl happen c).happen .stop).isStopped = true := rfl
  exact List.foldlRecOn (motive := fun d : Console w h => d.isStopped = true) after happen hraised
    fun d hd e _ => stable_isStopped.happen d e hd

end Console

end Chip8Vm
