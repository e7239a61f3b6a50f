import Chip8Vm.Proofs.Console.Shown
import Chip8Vm.Proofs.Session.Release

/-!
# Chip8Vm.Proofs.Session.Shown

The picture that a session comes back with.

A session ends in good order only if the first picture was shown and no tick failed since, so
when its shutdown begins the frame is the picture (`shown_atShutdown`).  The
shutdown gives the screen back and leaves both as they are.  `frame_shows_picture` joins this
to what holds of every history of operations.
-/

namespace Chip8Vm

deriving instance DecidableEq for SessionResult

namespace Session

variable {σ : Type} {w h : Nat}

/-- That the frame is the picture lasts until something fails. -/
theorem lasting_shown : Run.Lasting (Console.Shown : Console w h → Prop) fun _ => True where
  weaken _ := trivial
  served := Console.Shown.serve
  failed _ _ := trivial
  happen e hc := by cases e <;> exact hc.congr rfl rfl
  note _ hc := hc.congr rfl rfl
  noteFailed _ _ := trivial

/-- When the shutdown of a session begins that was stopped in good order, the frame is the
picture. -/
theorem shown_atShutdown {settings : Settings} {source : Source} {clock : Clock σ} {sleeps : Nat}
    {s : σ} {c : Console w h}
    (hending : (loadAndRun settings source clock sleeps s
      (c.configure settings.wrap settings.seed)).1 = .stopped) :
    (atShutdown settings source clock sleeps s c).Shown := by
  unfold atShutdown
  generalize c.configure settings.wrap settings.seed = d at hending
  unfold loadAndRun at hending ⊢
  generalize d.load source = loaded at hending ⊢
  obtain ⟨f | n, d⟩ := loaded
  · exact nomatch hending
  · let r : Run σ w h :=
      { pacer := .ofRate settings.instructionRate settings.runFor, console := d, clock := s }
    have hstopped : (Run.run clock sleeps r).1 = .stopped := hending
    have hrun := Run.upheld_run lasting_shown clock sleeps r trivial nofun
      (fun _ => Console.shown_of_present) fun _ _ _ => trivial
    rw [hstopped] at hrun
    exact hrun

/-- A session comes back with a picture only if it was stopped in good order, and then with
the one that its console still holds. -/
theorem close_eq_shown {ending : Ending} {c : Console w h} {picture : Bitmap w h}
    (hclose : (close ending c).1 = .shown picture) :
    ending = .stopped ∧ picture = c.shutdown.2.machine.picture := by
  unfold close at hclose
  generalize c.shutdown = closed at hclose ⊢
  obtain ⟨f | u, d⟩ := closed
  · cases ending <;> exact nomatch hclose
  · cases ending with
    | stopped =>
        cases hclose
        exact ⟨rfl, rfl⟩
    | _ => exact nomatch hclose

/-- **What is shown is what is stored.** Whatever is done with a console, whichever device
calls fail, and whatever its panel shows or has pending in the beginning: if the last
attempt to show the picture succeeded, or if there was none and all was dark in the beginning,
the frame holds exactly the lit pixels of the picture, each once and row by row.  And
whenever a session comes back with a picture, on any clock, the frame holds exactly its lit
pixels. -/
theorem frame_shows_picture (c : Console w h) :
    (∀ ops, c.Settled (c.trace Console.attempt? ops) →
      Bitmap.Shows (c.after ops).screen.panel.frame.toList (c.after ops).machine.picture) ∧
    ∀ (σ : Type) (settings : Settings) (source : Source) (clock : Clock σ) (sleeps : Nat) (s : σ)
      (picture : Bitmap w h), (run settings source clock sleeps s c).1 = .shown picture →
        Bitmap.Shows (run settings source clock sleeps s c).2.1.screen.panel.frame.toList
          picture := by
  refine ⟨fun ops hsettled => (Console.shown_after ops hsettled).shows,
    fun σ settings source clock sleeps s picture hrun => ?_⟩
  have hback : (run settings source clock sleeps s c).1.isBack = true := by
    rw [hrun]
    rfl
  rw [result_run] at hrun
  obtain ⟨hending, rfl⟩ := close_eq_shown hrun
  rw [console_run settings source clock sleeps s c hback]
  exact ((shown_atShutdown hending).operate .shutdown nofun).shows

/-- A program that draws a digit into the upper left corner. -/
def digit : Source := { bytes := [0xf0, 0x29, 0xd0, 0x05] }

/-- The digit as far as it is on the picture. -/
def digitPicture : Bitmap 8 4 :=
  [(0, 0), (1, 0), (2, 0), (3, 0), (0, 1), (3, 1), (0, 2), (3, 2), (0, 3), (3, 3)].foldl
    Bitmap.light (.blank 8 4)

/-- A new console whose screen lights one pixel and refuses the next. -/
def faltering : Console 8 4 :=
  .plugged 8 4 (.chacha 0) .inherited { screen := fun op n => op == .pixel && n == 1 }

/-- The digit is drawn and shown once more. -/
def digitDrawn : List Operation := [.load digit, .step, .step, .present]

/-- The digit is drawn, but showing it breaks off; it is shown by another attempt, and also
at the end of a session. -/
theorem frame_shows_digit :
    faltering.trace Console.attempt? digitDrawn = [false, true] ∧
    Bitmap.Shows (faltering.after digitDrawn).screen.panel.frame.toList
      digitPicture ∧
    (run brief digit .punctual 3 0 (.plugged 8 4 (.chacha 0) .inherited {})).1 =
      .shown digitPicture ∧
    Bitmap.Shows (run brief digit .punctual 3 0
      (.plugged 8 4 (.chacha 0) .inherited {})).2.1.screen.panel.frame.toList digitPicture := by
  have hattempts : faltering.trace Console.attempt? digitDrawn =
      [false, true] := by decide +kernel
  have hpicture : (faltering.after digitDrawn).machine.picture =
      digitPicture := by decide +kernel
  have hrun : (run brief digit .punctual 3 0 (.plugged 8 4 (.chacha 0) .inherited {})).1 =
      .shown digitPicture := by decide +kernel
  have hsettled : faltering.Settled (faltering.trace Console.attempt? digitDrawn) := by
    rw [hattempts]
    exact .inl rfl
  have hshown := (frame_shows_picture faltering).1 digitDrawn hsettled
  rw [hpicture] at hshown
  exact ⟨hattempts, hshown, hrun, (frame_shows_picture _).2 _ _ _ _ _ _ _ hrun⟩

end Session

end Chip8Vm
