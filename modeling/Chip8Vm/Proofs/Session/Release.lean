import Chip8Vm.Session
import Chip8Vm.Proofs.Console.InTune
import Chip8Vm.Proofs.Pace.Exact

/-!
# Chip8Vm.Proofs.Session.Release

The devices at the end of a session.

A session gives the screen back exactly once and after everything else it does
with the screen, whatever goes wrong before, with one exception: when the tone is
on at the end and the generator refuses to stop it, the screen is not given back
at all.  `run_releases_iff` says so for every session that comes back;
`run_strands_screen` is a session in which it happens.
-/

namespace Chip8Vm

/-- Does the result say that the session came back, with a picture or with a
fault? -/
def SessionResult.isBack {w h : Nat} : SessionResult w h → Bool
  | .shown _ | .failed _ => true
  | .overflow | .unfinished => false

namespace Screen

/-- The screen was given back once, and nothing was asked of it afterwards. -/
def Released (s : Screen) : Prop := ∃ l, s.names = l ++ [.stop] ∧ .stop ∉ l

theorem released_call_stop {s : Screen} (hs : .stop ∉ s.names) : (s.call .stop).2.Released :=
  ⟨s.names, s.names_call .stop, hs⟩

end Screen

namespace Console

variable {w h : Nat}

def Held (c : Console w h) : Prop := .stop ∉ c.screen.names

theorem Unused.held {c : Console w h} (hc : c.Unused) : c.Held := by
  simp [Held, Screen.names, hc.screen]

/-- No tick and no happening gives the screen back. -/
theorem stable_held : Stable (Held : Console w h → Prop) := by
  refine .ofPerform (fun c d hd hc => ?_) fun c e hc => ?_
  · have hscreen : d.screen = c.screen := congrArg Prod.fst hd.devices
    rw [Held, hscreen]
    exact hc
  · cases e with
    | nothing => exact hc
    | tone => simpa [Held, perform] using hc
    | present =>
        obtain ⟨l, hl, hnames⟩ := c.screen.names_perform (Screen.presentation c.machine.picture)
        have hstop : .stop ∉ l := fun hmem =>
          Screen.stop_notMem_presentation c.machine.picture (hl.subset hmem)
        show .stop ∉ (c.screen.perform (Screen.presentation c.machine.picture)).2.names
        rw [hnames, List.mem_append]
        exact fun hmem => hmem.elim hc hstop

/-! ## Shutting down -/

/-- Does shutting down now begin with a call that the tone generator refuses? -/
def Sticks (c : Console w h) : Prop := c.tone.isOn = true ∧ c.tone.refuses .stop = true

/-- A tone that is on is asked to stop in any case. -/
theorem names_tone_shutdown {c : Console w h} (hc : c.InTune) (hon : c.tone.isOn = true) :
    c.shutdown.2.tone.names = c.tone.names ++ [.stop] := by
  have hs : c.sounding = true := hc.trans hon
  cases hr : c.tone.refuses .stop
  · simp [shutdown, hs, callTone_accepted hr]
  · simp [shutdown, hs, callTone_refused hr]

/-- When the tone sticks, the screen is not given back. -/
theorem screen_shutdown_of_sticks {c : Console w h} (hc : c.InTune) (hst : c.Sticks) :
    c.shutdown.2.screen = c.screen := by
  have hs : c.sounding = true := hc.trans hst.1
  simp [shutdown, hs, callTone_refused hst.2]

theorem screen_shutdown_of_not_sticks {c : Console w h} (hc : c.InTune) (hst : ¬ c.Sticks) :
    c.shutdown.2.screen = (c.screen.call .stop).2 := by
  cases hs : c.sounding
  · simp [shutdown, hs]
  · have hr : c.tone.refuses .stop = false := by
      have hon : c.tone.isOn = true := hc.symm.trans hs
      simpa [Sticks, hon] using hst
    simp [shutdown, hs, callTone_accepted hr]

/-- The screen that nobody gave back is released by the shutdown unless the tone
sticks. -/
theorem released_shutdown_iff {c : Console w h} (hc : c.InTune) (hheld : c.Held) :
    c.shutdown.2.screen.Released ↔ ¬ c.Sticks := by
  constructor
  · rintro ⟨l, hl, -⟩ hst
    rw [screen_shutdown_of_sticks hc hst] at hl
    exact hheld (hl ▸ by simp)
  · intro hst
    rw [screen_shutdown_of_not_sticks hc hst]
    exact Screen.released_call_stop hheld

end Console

namespace Session

variable {σ : Type} {w h : Nat}

/-- The console of a session when its shutdown begins. -/
def atShutdown (settings : Settings) (source : Source) (clock : Clock σ) (sleeps : Nat) (s : σ)
    (c : Console w h) : Console w h :=
  (loadAndRun settings source clock sleeps s (c.configure settings.wrap settings.seed)).2.1

/-- What is kept by loading and by whatever happens in a run is kept until the
shutdown. -/
theorem keeps_atShutdown {Q : Console w h → Prop} (hQ : Console.Stable Q)
    (hmachine : ∀ (c : Console w h) m, Q c → Q { c with machine := m }) (settings : Settings)
    (source : Source) (clock : Clock σ) (sleeps : Nat) (s : σ) (c : Console w h) (hc : Q c) :
    Q (atShutdown settings source clock sleeps s c) := by
  have hconfigured : Q (c.configure settings.wrap settings.seed) := by
    unfold Console.configure
    cases settings.seed with
    | none => exact hmachine _ _ hc
    | some seed => exact hmachine _ _ (hmachine _ _ hc)
  unfold atShutdown loadAndRun
  generalize c.configure settings.wrap settings.seed = d at hconfigured
  unfold Console.load
  obtain ⟨_ | n, ram⟩ := d.machine.ram.load source
  · exact hmachine _ _ hconfigured
  · exact Run.keeps_run hQ clock sleeps _ (hQ.note _ _ (hmachine _ _ hconfigured))

/-- Whatever ended the run, the devices are shut down before the session comes back. -/
theorem console_close (ending : Ending) (c : Console w h)
    (hback : (close ending c).1.isBack = true) : (close ending c).2 = c.shutdown.2 := by
  unfold close at *
  obtain ⟨_ | _, d⟩ := c.shutdown <;> cases ending <;> simp_all [SessionResult.isBack]

theorem console_run (settings : Settings) (source : Source) (clock : Clock σ) (sleeps : Nat) (s : σ)
    (c : Console w h) (hback : (run settings source clock sleeps s c).1.isBack = true) :
    (run settings source clock sleeps s c).2.1 =
      (atShutdown settings source clock sleeps s c).shutdown.2 :=
  console_close _ _ hback

/-- What a session comes to is what comes of its ending and of the shutdown. -/
theorem result_run (settings : Settings) (source : Source) (clock : Clock σ) (sleeps : Nat) (s : σ)
    (c : Console w h) :
    (run settings source clock sleeps s c).1 =
      (close (loadAndRun settings source clock sleeps s
        (c.configure settings.wrap settings.seed)).1
        (atShutdown settings source clock sleeps s c)).1 :=
  rfl

theorem isBack_close_stopped (c : Console w h) : (close .stopped c).1.isBack = true := by
  unfold close
  obtain ⟨_ | _, d⟩ := c.shutdown <;> rfl

theorem loadAndRun_of_load {settings : Settings} {source : Source} {c d : Console w h}
    {n limit : Nat} (hload : c.load source = (.ok n, d)) (hlimit : settings.runFor = some limit)
    (clock : Clock σ) (sleeps : Nat) (s : σ) :
    loadAndRun settings source clock sleeps s c =
      ((Run.run clock sleeps (Run.fresh settings.instructionRate limit s d)).1,
        (Run.run clock sleeps (Run.fresh settings.instructionRate limit s d)).2.console,
        (Run.run clock sleeps (Run.fresh settings.instructionRate limit s d)).2.clock) := by
  simp only [loadAndRun, hload, hlimit]
  rfl

theorem inTune_atShutdown (settings : Settings) (source : Source) (clock : Clock σ) (sleeps : Nat)
    (s : σ) {c : Console w h} (hnew : c.Unused) :
    (atShutdown settings source clock sleeps s c).InTune :=
  keeps_atShutdown Console.stable_inTune (fun _ _ hc => hc) settings source clock sleeps s c
    hnew.inTune

theorem held_atShutdown (settings : Settings) (source : Source) (clock : Clock σ) (sleeps : Nat)
    (s : σ) {c : Console w h} (hnew : c.Unused) :
    (atShutdown settings source clock sleeps s c).Held :=
  keeps_atShutdown Console.stable_held (fun _ _ hc => hc) settings source clock sleeps s c
    hnew.held

/-- A session that comes back has given the screen back exactly once and last of all
unless the tone was on when the shutdown began and refused to stop; a tone that was
on was asked to stop in either case. -/
theorem run_releases_iff (settings : Settings) (source : Source) (clock : Clock σ) (sleeps : Nat)
    (s : σ) (c : Console w h) (hnew : c.Unused)
    (hback : (run settings source clock sleeps s c).1.isBack = true) :
    ((run settings source clock sleeps s c).2.1.screen.Released ↔
      ¬ (atShutdown settings source clock sleeps s c).Sticks) ∧
    ((atShutdown settings source clock sleeps s c).tone.isOn = true →
      (run settings source clock sleeps s c).2.1.tone.names =
        (atShutdown settings source clock sleeps s c).tone.names ++ [.stop]) := by
  have htune := inTune_atShutdown settings source clock sleeps s hnew
  have hheld := held_atShutdown settings source clock sleeps s hnew
  rw [console_run settings source clock sleeps s c hback]
  exact ⟨Console.released_shutdown_iff htune hheld, Console.names_tone_shutdown htune⟩

/-- A program that cannot be read, on a console that was never used: nothing was done with
the screen but to give it back. -/
theorem run_releases_iff_unreadable :
    (Console.initial 8 4 0).Unused ∧
    (run { rom := "" } { bytes := [], failure := some "gone" } .punctual 0 0
      (Console.initial 8 4 0)).2.1.screen.Released := by
  have hnew : (Console.initial 8 4 0).Unused := ⟨rfl, rfl, rfl⟩
  have hback : (run { rom := "" } { bytes := [], failure := some "gone" } .punctual 0 0
      (Console.initial 8 4 0)).1.isBack = true := rfl
  have hsilent : ¬ (atShutdown { rom := "" } { bytes := [], failure := some "gone" } .punctual 0 0
      (Console.initial 8 4 0)).Sticks := fun hst => Bool.false_ne_true hst.1
  exact ⟨hnew, (run_releases_iff _ _ _ _ _ _ hnew hback).1.mpr hsilent⟩

/-! ## A session that strands the screen -/

/-- A program that sounds the tone for more than four seconds. -/
def beeping : Source := { bytes := [0x61, 0xff, 0xf1, 0x18] }

/-- A console whose tone generator never stops the tone. -/
def stubborn : Console 8 4 :=
  { Console.initial 8 4 0 with tone := { fails := fun call _ => call == .stop } }

/-- Four milliseconds at the nominal rate. -/
def brief : Settings := { rom := "", runFor := some 4000000 }

/-- The console on which the run of that session begins. -/
def stubbornLoaded : Console 8 4 := ((stubborn.configure brief.wrap brief.seed).load beeping).2

/-- Twice in that time, an instruction is due. -/
theorem ticks_brief : Timetable.ticks 500 4000000 = [.instruction, .instruction] := by
  rw [Timetable.ticks, Timetable.entries, Timetable.left_instruction (by decide) (by decide),
    Timetable.left_instruction (by decide) (by decide),
    Timetable.left_eq_nil (by decide) (by decide)]
  rfl

theorem undisturbed_stubborn : Run.Undisturbed .punctual 0 500 4000000 3 stubbornLoaded := by
  have hok : (stubbornLoaded.play 500 4000000).1 = .ok () := by
    simp only [Console.play, ticks_brief]
    decide +kernel
  have hstop : (stubbornLoaded.play 500 4000000).2.isStopped = false := by
    simp only [Console.play, ticks_brief]
    decide +kernel
  exact .of_play (Run.timed_punctual (by decide)) Clock.quiet_punctual (by decide) hok hstop

/-- When the tone sticks, the session comes back with its fault and the screen is not given
back. -/
theorem run_strands_screen :
    stubborn.Unused ∧ (run brief beeping .punctual 3 0 stubborn).1.isBack = true ∧
    ¬ (run brief beeping .punctual 3 0 stubborn).2.1.screen.Released ∧
    (run brief beeping .punctual 3 0 stubborn).2.1.tone.names = [.beep, .stop] := by
  have hnew : stubborn.Unused := ⟨rfl, rfl, rfl⟩
  have hbytes : ((stubborn.configure brief.wrap brief.seed).load beeping).1 = .ok 4 := by
    decide +kernel
  have hload : (stubborn.configure brief.wrap brief.seed).load beeping = (.ok 4, stubbornLoaded) :=
    Prod.ext hbytes rfl
  have hlimit : brief.runFor = some 4000000 := rfl
  have hrate : brief.instructionRate = 500 := rfl
  have hrun := loadAndRun_of_load hload hlimit .punctual 3 0
  rw [hrate] at hrun
  obtain ⟨hending, -, hsame, -⟩ := undisturbed_stubborn.complete (by decide)
  have hback : (run brief beeping .punctual 3 0 stubborn).1.isBack = true := by
    rw [result_run, hrun, hending]
    exact isBack_close_stopped _
  have htone : (atShutdown brief beeping .punctual 3 0 stubborn).tone =
      (stubbornLoaded.play 500 4000000).2.tone := by
    have hfield := congrArg Console.tone hsame
    rw [atShutdown, hrun]
    exact hfield
  have hsticks : (atShutdown brief beeping .punctual 3 0 stubborn).Sticks := by
    rw [Console.Sticks, htone]
    simp only [Console.play, ticks_brief]
    decide +kernel
  have hnames : (stubbornLoaded.play 500 4000000).2.tone.names = [.beep] := by
    simp only [Console.play, ticks_brief]
    decide +kernel
  have htune := inTune_atShutdown brief beeping .punctual 3 0 hnew
  have hheld := held_atShutdown brief beeping .punctual 3 0 hnew
  rw [console_run brief beeping .punctual 3 0 stubborn hback]
  refine ⟨hnew, hback, fun hreleased => ?_, ?_⟩
  · exact (Console.released_shutdown_iff htune hheld).mp hreleased hsticks
  · rw [Console.names_tone_shutdown htune hsticks.1, htone, hnames]
    rfl

end Session

end Chip8Vm
