import Chip8Vm.Proofs.Bitmap.Pixel
import Chip8Vm.Proofs.Console.History
import Chip8Vm.Proofs.Console.InTune
import Chip8Vm.Proofs.Device.Showing
import Chip8Vm.Proofs.Machine.Confined

/-!
# Chip8Vm.Proofs.Console.Shown

What is shown is what is stored.

`Console.Shown` says that the frame on the panel is the picture of the machine.  An attempt
to show the picture that succeeds makes it true, and only what attempts to show the picture
can take it away, because every instruction that changes the picture has it shown
(`showCase`).  So after every history the last attempt decides (`shown_after`).
-/

namespace Chip8Vm.Console

variable {w h : Nat} {c : Console w h}

/-- The frame that was shown last is the picture. -/
def Shown (c : Console w h) : Prop := c.screen.panel.frame.toList = c.machine.picture.lit

theorem Shown.shows (hc : c.Shown) :
    Bitmap.Shows c.screen.panel.frame.toList c.machine.picture := by
  rw [hc]
  exact Bitmap.shows_lit _

theorem Shown.congr {d : Console w h} (hc : c.Shown)
    (hframe : d.screen.panel.frame = c.screen.panel.frame)
    (hpicture : d.machine.picture = c.machine.picture) : d.Shown := by
  rw [Shown, hframe, hpicture]
  exact hc

/-- Showing the picture succeeds only if the frame is then the picture. -/
theorem shown_of_present {d : Console w h} (hd : c.present = (.ok (), d)) : d.Shown := by
  unfold present at hd
  rcases hp : c.screen.present c.machine.picture with ⟨f | u, s⟩
  · simp only [hp] at hd
    exact nomatch hd
  · simp only [hp] at hd
    cases hd
    exact Screen.frame_of_present hp

/-! ## Attempts to show the picture -/

/-- Whether an operation that attempts to show the picture succeeds: a `present`, or a step
that carries out an instruction which changes the picture. -/
def attempt? (c : Console w h) : Operation → Option Bool
  | .present => some c.present.1.isOk
  | .step => if c.machine.isShowing then some c.step.1.isOk else none
  | _ => none

/-- A step that changes the picture and succeeds has shown it. -/
theorem shown_step (hshows : c.machine.isShowing = true) (hok : c.step.1.isOk = true) :
    c.step.2.Shown := by
  obtain ⟨o, hwanted⟩ := Machine.result_of_isShowing hshows
  generalize hout : c.step = out at hok ⊢
  have hcase := hout ▸ c.stepCase
  cases hcase with
  | fault hf => exact nomatch hf.symm.trans hwanted
  | refused hr hd => exact nomatch hok
  | @done o e d hr hd =>
      cases hr.symm.trans hwanted
      exact (shown_of_present hd).congr (by cases o <;> rfl) (by cases o <;> rfl)

/-- Only the wish to show the picture makes calls to the screen. -/
theorem screen_perform {e : Effect} (he : e ≠ .present) : (c.perform e).2.screen = c.screen := by
  cases e with
  | nothing => rfl
  | present => exact absurd rfl he
  | tone => exact screen_syncTone c

/-- A step that leaves the picture as it is leaves the screen as it is. -/
theorem screen_step (hshows : c.machine.isShowing = false) : c.step.2.screen = c.screen := by
  obtain ⟨-, hwanted⟩ := Machine.picture_step hshows
  generalize hout : c.step = out
  have hcase := hout ▸ c.stepCase
  cases hcase with
  | fault hf => rfl
  | @refused o e f d hr hd =>
      have hscreen := screen_perform (c := c.stepped) fun he => hwanted o (he ▸ hr)
      rwa [hd] at hscreen
  | @done o e d hr hd =>
      have hscreen := screen_perform (c := c.stepped) fun he => hwanted o (he ▸ hr)
      rw [hd] at hscreen
      cases o <;> exact hscreen

theorem screen_load (c : Console w h) (source : Source) : (c.load source).2.screen = c.screen := by
  unfold load
  obtain ⟨_ | n, ram⟩ := c.machine.ram.load source <;> rfl

theorem frame_shutdown (c : Console w h) :
    c.shutdown.2.screen.panel.frame = c.screen.panel.frame := by
  refine shutdown_keeps (fun c => c.screen.panel.frame) (fun c call => ?_) (fun c => ?_) c
  · rw [screen_callTone]
  · exact Screen.frame_call_stop c.screen

/-- Only steps change the picture. -/
theorem picture_operate {op : Operation} (hop : op ≠ .step) :
    (c.operate op).2.machine.picture = c.machine.picture := by
  rw [machine_operate]
  cases op with
  | step => exact absurd rfl hop
  | _ => rfl

/-! ## Operations by cases -/

/-- What an operation does to the frame and the picture. -/
inductive ShowCase (c d : Console w h) : Option Bool → Prop where
  /-- The picture was shown. -/
  | shown (hd : d.Shown) : ShowCase c d (some true)
  /-- The picture was to be shown, but a call failed. -/
  | failed : ShowCase c d (some false)
  /-- Nobody attempted to show the picture, and nobody changed it. -/
  | kept (hframe : d.screen.panel.frame = c.screen.panel.frame)
      (hpicture : d.machine.picture = c.machine.picture) : ShowCase c d none

theorem ShowCase.of_attempt {d : Console w h} {ok : Bool} (hd : ok = true → d.Shown) :
    ShowCase c d (some ok) := by
  cases ok with
  | true => exact .shown (hd rfl)
  | false => exact .failed

theorem ShowCase.of_screen {d : Console w h} (hscreen : d.screen = c.screen)
    (hpicture : d.machine.picture = c.machine.picture) : ShowCase c d none :=
  .kept (by rw [hscreen]) hpicture

theorem showCase (c : Console w h) (op : Operation) :
    ShowCase c (c.operate op).2 (c.attempt? op) := by
  cases op with
  | present =>
      refine .of_attempt fun hok => ?_
      rcases hout : c.present with ⟨f | u, d⟩
      · rw [hout] at hok
        exact nomatch hok
      · have hsnd : (c.operate .present).2 = d := congrArg Prod.snd hout
        rw [hsnd]
        exact shown_of_present hout
  | step =>
      simp only [attempt?]
      split
      · next hshows => exact .of_attempt (shown_step hshows)
      · next hshows =>
          rw [Bool.not_eq_true] at hshows
          have hpicture := (Machine.picture_step hshows).1
          exact .of_screen (screen_step hshows) ((congrArg _ (machine_step c)).trans hpicture)
  | tick => exact .of_screen (screen_syncTone _) (picture_operate nofun)
  | load source => exact .of_screen (screen_load c source) (picture_operate nofun)
  | shutdown => exact .kept (frame_shutdown c) (picture_operate nofun)
  | configure wrap seed => cases seed <;> exact .kept rfl rfl
  | setWrap wrap => exact .kept rfl rfl
  | reseed seed => exact .kept rfl rfl
  | accept e => exact .kept rfl rfl

/-- Nothing but a failed attempt takes it away. -/
theorem Shown.operate (hc : c.Shown) (op : Operation) (hop : c.attempt? op ≠ some false) :
    (c.operate op).2.Shown := by
  generalize hattempt : c.attempt? op = attempt at hop
  have hcase := hattempt ▸ c.showCase op
  cases hcase with
  | shown hshown => exact hshown
  | failed => exact absurd rfl hop
  | kept hframe hpicture => exact hc.congr hframe hpicture

/-- A tick that succeeds keeps it. -/
theorem Shown.serve {d : Console w h} {tick : Tick} (hc : c.Shown)
    (hd : c.serve tick = (.ok (), d)) : d.Shown := by
  have hsnd : (c.serve tick).2 = d := congrArg Prod.snd hd
  cases tick with
  | timer =>
      rw [← hsnd]
      exact hc.operate .tick nofun
  | instruction =>
      have hok : c.step.1.isOk = true := by
        unfold Console.serve at hd
        rcases hout : c.step with ⟨f | o, e⟩
        · rw [hout] at hd
          exact nomatch hd
        · rfl
      rw [serve_instruction_snd] at hsnd
      rw [← hsnd]
      exact hc.operate .step (by simp [attempt?, hok])

/-! ## Histories -/

/-- Neither the panel nor the picture has a lit pixel, as on a new console. -/
structure Dark (c : Console w h) : Prop where
  frame : c.screen.panel.frame = #[]
  picture : c.machine.picture = .blank w h

theorem Dark.shown (hc : c.Dark) : c.Shown := by
  rw [Shown, hc.frame, hc.picture, Bitmap.lit_blank]

/-- The last of all attempts succeeded, or there was none and it was dark in the beginning. -/
def Settled (c : Console w h) (attempts : List Bool) : Prop :=
  attempts.getLast? = some true ∨ attempts = [] ∧ c.Dark

/-- After every history the last attempt to show the picture decides. -/
theorem shown_after (ops : List Operation) (hsettled : c.Settled (trace attempt? c ops)) :
    (c.after ops).Shown := by
  refine trace_induct (P := fun past d => c.Settled past → d.Shown) (fun past d op hd => ?_) ops []
    c (fun hc => ?_) hsettled
  · generalize hattempt : d.attempt? op = attempt
    have hcase := hattempt ▸ d.showCase op
    cases hcase with
    | shown hshown => exact fun _ => hshown
    | failed =>
        intro hpast
        obtain hlast | ⟨hnone, -⟩ := hpast
        · simp at hlast
        · simp at hnone
    | kept hframe hpicture =>
        intro hpast
        rw [Option.toList_none, List.append_nil] at hpast
        exact (hd hpast).congr hframe hpicture
  · obtain hlast | ⟨-, hdark⟩ := hc
    · exact nomatch hlast
    · exact hdark.shown

end Chip8Vm.Console
