import Chip8Vm.Proofs.Machine.Step
import Chip8Vm.Proofs.Pace.OnTime

/-!
# Chip8Vm.Proofs.Pace.Exact

A run does exactly what its timetable says, however late its clock wakes it.

The measure is what is left of the timetable: every sleep but the first ends with
something due, so every pass after it does at least one tick (`allowance_lt`).  A run of a
steady clock therefore ends after a bounded number of sleeps (`loop_onTime`), and unless it is
cut short it has then carried out the whole timetable (`run_timed`).  Since the timetable
knows nothing of clocks, no two clocks can be told apart by what a run leaves
(`run_exact`).

The counter of the instructions has 64 bits.  At more than one instruction in a nanosecond
there is time for more of them than it can count, and then the run does not get to the end of
its timetable (`run_counts_over`).
-/

namespace Chip8Vm

/-! ## Programs that stay where they are -/

namespace Console

variable {w h : Nat} {c : Console w h} {a : Addr}

/-- The program jumps to where it is, the tone is off and is to be off, and nobody has raised
the stop signal. -/
structure Idle (a : Addr) (c : Console w h) : Prop where
  jump : c.machine.upcoming? = some (.jump a)
  place : c.machine.cpu.pc = Machine.ofAddr a
  sound : c.machine.cpu.sound = 0
  silent : c.sounding = false
  going : c.isStopped = false

/-- The jump leaves the machine as it is. -/
theorem Idle.machine_step (hc : c.Idle a) :
    c.machine.step =
      ⟨c.machine, c.machine.fetchNotes (.jump a), .ok (.executed (.jump a), .nothing)⟩ := by
  have hstay : c.machine.moved.execute (.jump a) = .ok (c.machine, .nothing) := by
    simp only [Machine.execute, Machine.moved, Machine.withCpu, ← hc.place]
  rw [Machine.step_of_upcoming hc.jump, hstay]

/-- An idle program has nothing to fail with, and every tick leaves it idle. -/
theorem Idle.serve (hc : c.Idle a) (t : Tick) : ∃ d, c.serve t = (.ok (), d) ∧ d.Idle a := by
  cases t with
  | timer =>
      have hsound : c.machine.tick.cpu.sound = 0 := by
        simp [Machine.tick, Machine.withCpu, Cpu.tick, hc.sound, Cpu.countDown]
      refine ⟨{ c with machine := c.machine.tick }, ?_, ?_⟩
      · simp [Console.serve, tickTimers, syncTone, hsound, hc.silent]
      · exact { hc with sound := hsound }
  | instruction =>
      have hdone : c.step = (.ok (.executed (.jump a)), c.stepped.counting (.executed (.jump a))) :=
        step_of_done (by rw [hc.machine_step]) rfl
      have hmachine : (c.stepped.counting (.executed (.jump a))).machine = c.machine := by
        show c.machine.step.machine = c.machine
        rw [hc.machine_step]
      refine ⟨_, by rw [Console.serve, hdone], ?_⟩
      exact {
        jump := hmachine ▸ hc.jump
        place := hmachine ▸ hc.place
        sound := hmachine ▸ hc.sound
        silent := hc.silent
        going := hc.going }

theorem Idle.serveAll (hc : c.Idle a) (ts : List Tick) :
    ∃ d, Console.serveAll ts c = (.ok (), d) ∧ d.Idle a := by
  induction ts generalizing c with
  | nil => exact ⟨c, rfl, hc⟩
  | cons t ts ih =>
      obtain ⟨d, hserve, hd⟩ := hc.serve t
      obtain ⟨e, hserves, he⟩ := ih hd
      exact ⟨e, by rw [Console.serveAll, hserve]; exact hserves, he⟩

end Console

namespace Run

open Timetable

variable {σ : Type} {w h : Nat} {clock : Clock σ} {s : σ} {hz limit : Nat} {c : Console w h}
  {r : Run σ w h}

/-- The run has carried out the whole timetable. -/
structure Complete (clock : Clock σ) (s : σ) (hz limit : Nat) (c : Console w h) (r : Run σ w h) :
    Prop where
  timers : r.pacer.timers.ticks = count hz limit .timer
  instructions : r.pacer.instructions.ticks = count hz limit .instruction
  countable : r.pacer.instructions.ticks < Cadence.maxTicks
  course : ∃ d, Console.serveAll (ticks hz limit) c = (.ok (), d) ∧
    Follows clock (clock.now s + limit) s r.console d

/-- A run that is on time and has nothing more to do within the span is complete. -/
theorem OnTime.complete (hr : OnTime clock s hz limit c r) (hdue : limit < nextDue hz r.pacer) :
    Complete clock s hz limit c r := by
  have htimer : limit < deadline hz (.timer, r.pacer.timers.ticks + 1) :=
    Nat.lt_of_lt_of_le hdue (Nat.min_le_left _ _)
  have hinstruction : limit < deadline hz (.instruction, r.pacer.instructions.ticks + 1) :=
    Nat.lt_of_lt_of_le hdue (Nat.min_le_right _ _)
  have htimers := mt le_count_iff.mp (Nat.not_le.mpr htimer)
  have hinstructions := mt le_count_iff.mp (Nat.not_le.mpr hinstruction)
  obtain ⟨l, d, hentries, hserve, hfollows⟩ := hr.course
  rw [left_eq_nil htimer hinstruction, List.append_nil] at hentries
  exact {
    timers := Nat.le_antisymm hr.timersDue (by omega)
    instructions := Nat.le_antisymm hr.instructionsDue (by omega)
    countable := hr.countable
    course := ⟨d, by rw [ticks, hentries, hserve], hfollows⟩ }

theorem Complete.note (hr : Complete clock s hz limit c r) (notes : List Note) :
    Complete clock s hz limit c (r.note notes) := by
  obtain ⟨d, hserve, hfollows⟩ := hr.course
  exact { hr with course := ⟨d, hserve, hfollows⟩ }

/-! ## Passes -/

/-- What a pass at a time before or after the limit comes to. -/
inductive Passed (clock : Clock σ) (s : σ) (hz limit : Nat) (c : Console w h) (now : Nat)
    (a : Run σ w h) : Caught σ w h → Prop where
  | cut {e : Ending} {b : Run σ w h} (hcut : Cut clock s hz limit c e b.console) :
      Passed clock s hz limit c now a (.error e, b)
  | complete {b : Run σ w h} (hb : Complete clock s hz limit c b) :
      Passed clock s hz limit c now a (.error .stopped, b)
  | sleep {b : Run σ w h} (hb : OnTime clock s hz limit c b)
      (hnow : now < clock.now s + limit) (hdue : now < clock.now s + nextDue hz b.pacer)
      (htimers : a.pacer.timers.ticks ≤ b.pacer.timers.ticks)
      (hinstructions : a.pacer.instructions.ticks ≤ b.pacer.instructions.ticks) :
      Passed clock s hz limit c now a
        (.ok (min (clock.now s + nextDue hz b.pacer) (clock.now s + limit)), b)

/-- A pass ends the run in good order only when the timetable is complete. -/
theorem pass_onTime (ht : Timed clock s limit) (now : Nat) (hr : OnTime clock s hz limit c r) :
    Passed clock s hz limit c now r (r.pass clock (some (clock.now s + limit)) now) := by
  have hcaught : CaughtUp clock s hz limit c (min now (clock.now s + limit)) r
      (r.catchUp clock (min now (clock.now s + limit))) :=
    catchUp_onTime ht (Nat.min_le_right _ _) r hr
  unfold pass
  simp only [Pacer.capped, Pacer.reached]
  generalize r.catchUp clock (min now (clock.now s + limit)) = out at hcaught
  cases hcaught with
  | cut hcut => exact .cut hcut
  | @due b hb hdue htimers hinstructions =>
      by_cases hreached : clock.now s + limit ≤ now
      · rw [Nat.min_eq_right hreached] at hdue
        simp only [hreached, decide_true, if_true]
        exact .complete ((hb.complete (by omega)).note _)
      · rw [Nat.min_eq_left (by omega)] at hdue
        simp only [hreached, decide_false, Bool.false_eq_true, if_false]
        exact .sleep hb (by omega) hdue htimers hinstructions

/-! ## Loops -/

/-- Where as many ticks are left as before, the next one is the same. -/
theorem OnTime.nextDue_eq {a b : Run σ w h} (hb : OnTime clock s hz limit c b)
    (htimers : a.pacer.timers.ticks ≤ b.pacer.timers.ticks)
    (hinstructions : a.pacer.instructions.ticks ≤ b.pacer.instructions.ticks)
    (hsame : toGo hz limit b.pacer = toGo hz limit a.pacer) :
    nextDue hz b.pacer = nextDue hz a.pacer := by
  have hcounted := hb.timersDue
  have hcounted' := hb.instructionsDue
  simp only [toGo] at hsame
  have htimer : b.pacer.timers.ticks = a.pacer.timers.ticks := by omega
  have hinstruction : b.pacer.instructions.ticks = a.pacer.instructions.ticks := by omega
  rw [nextDue, nextDue, htimer, hinstruction]

/-- How a run of the timetable can end. -/
def Ended (clock : Clock σ) (s : σ) (hz limit : Nat) (c : Console w h)
    (out : Ending × Run σ w h) : Prop :=
  Cut clock s hz limit c out.1 out.2.console ∨ out.1 = .stopped ∧ Complete clock s hz limit c out.2

/-- A loop on time ends if it is granted the sleeps that it can have. -/
theorem loop_onTime (ht : Timed clock s limit) (sleeps : Nat) (r : Run σ w h)
    (hr : OnTime clock s hz limit c r)
    (hsleeps : allowance (clock.now s) hz limit (clock.now r.clock) r.pacer ≤ sleeps) :
    Ended clock s hz limit c (loop clock (some (clock.now s + limit)) sleeps r) := by
  induction sleeps using Nat.strongRecOn generalizing r with
  | ind sleeps ih =>
      have hpass := pass_onTime ht (clock.now r.clock) hr
      unfold loop
      rw [ht.steady.read? hr.reaches]
      simp only
      generalize r.pass clock (some (clock.now s + limit)) (clock.now r.clock) = out at hpass
      cases hpass with
      | cut hcut => exact .inl hcut
      | complete hb => exact .inr ⟨rfl, hb⟩
      | @sleep b hb hnow hdue htimers hinstructions =>
          generalize hdeadline :
            min (clock.now s + nextDue hz b.pacer) (clock.now s + limit) = deadline
          have hlast : deadline ≤ clock.now s + limit := hdeadline ▸ Nat.min_le_right _ _
          have hslept := hb.elapse ht (.sleep hlast)
          have hlater : deadline ≤ clock.now ((b.sleepUntil clock deadline).lapse clock).clock :=
            Nat.le_trans (ht.steady.awake hb.reaches hlast)
              (ht.steady.forward hslept.reaches .lapse)
          have hle : toGo hz limit b.pacer ≤ toGo hz limit r.pacer := by
            simp only [toGo]
            omega
          have hless := allowance_lt hnow hdue hle (hb.nextDue_eq htimers hinstructions)
            (Nat.le_trans (Nat.le_of_eq hdeadline) hlater)
          cases sleeps with
          | zero => exact absurd (Nat.lt_of_lt_of_le hless hsleeps) (Nat.not_lt_zero _)
          | succ sleeps =>
              exact ih sleeps (Nat.lt_succ_self _) _ (hslept.lapse ht)
                (Nat.lt_succ_iff.mp (Nat.lt_of_lt_of_le hless hsleeps))

/-! ## Whole runs -/

/-- A run that is about to begin. -/
def fresh (hz limit : Nat) (s : σ) (c : Console w h) : Run σ w h where
  pacer := .ofRate hz (some limit)
  console := c
  clock := s

/-- How a whole run can end, told by how the timetable ends. -/
inductive Outcome (clock : Clock σ) (s : σ) (hz limit : Nat) (c : Console w h) :
    Ending × Run σ w h → Prop where
  /-- The first picture cannot be shown, or a tick fails. -/
  | failed {f : Fault} {b : Run σ w h} (hplay : (c.play hz limit).1 = .error f) :
      Outcome clock s hz limit c (.failed f, b)
  /-- The stop signal is raised. -/
  | stopped {b : Run σ w h} (hs : b.console.isStopped = true)
      (hplay : clock.Quiet (clock.now s + limit) s → (c.play hz limit).2.isStopped = true) :
      Outcome clock s hz limit c (.stopped, b)
  /-- There are more instructions to be done than can be counted. -/
  | overflow {b : Run σ w h} (hcount : Cadence.maxTicks ≤ count hz limit .instruction)
      (hplay : b.console.isStopped = true → (c.play hz limit).2.isStopped = true) :
      Outcome clock s hz limit c (.overflow, b)
  /-- The timetable is complete. -/
  | complete {b : Run σ w h} (hplay : (c.play hz limit).1 = .ok ())
      (hconsole : Follows clock (clock.now s + limit) s b.console (c.play hz limit).2)
      (htimers : b.pacer.timers.ticks = count hz limit .timer)
      (hinstructions : b.pacer.instructions.ticks = count hz limit .instruction)
      (hcount : count hz limit .instruction < Cadence.maxTicks) :
      Outcome clock s hz limit c (.stopped, b)

theorem onTime_first (clock : Clock σ) (s : σ) (hz limit : Nat) (d : Console w h) :
    OnTime clock s hz limit d
      { pacer := (Pacer.ofRate hz (some limit)).restart (clock.now s), console := d,
        clock := s } where
  timers := rfl
  instructions := rfl
  timersDue := Nat.zero_le _
  instructionsDue := Nat.zero_le _
  countable := Nat.pow_pos (Nat.succ_pos 1)
  reaches := .here
  course := ⟨[], d, rfl, rfl, .inl rfl⟩

/-- How the loop ends is how the run ends; all that comes after is a note. -/
theorem Ended.outcome {c d : Console w h} (hd : c.present = (.ok (), d))
    {out : Ending × Run σ w h} (hout : Ended clock s hz limit d out) :
    Outcome clock s hz limit c out ∧ Outcome clock s hz limit c (out.1, out.2.finish) := by
  have hplay : c.play hz limit = Console.serveAll (ticks hz limit) d := by
    simp only [Console.play, hd]
  obtain ⟨e, b⟩ := out
  obtain hcut | ⟨he, hb⟩ := hout
  · cases hcut with
    | stopped hs hquiet => exact ⟨.stopped hs (hplay ▸ hquiet), .stopped hs (hplay ▸ hquiet)⟩
    | failed hfail => exact ⟨.failed (hplay ▸ hfail), .failed (hplay ▸ hfail)⟩
    | overflow hcount hraised =>
        exact ⟨.overflow hcount (hplay ▸ hraised), .overflow hcount (hplay ▸ hraised)⟩
  · obtain ⟨d', hserve, hfollows⟩ := hb.course
    rw [hserve] at hplay
    simp only at he
    subst he
    have hok : (c.play hz limit).1 = .ok () := by rw [hplay]
    have hsame : Follows clock (clock.now s + limit) s b.console (c.play hz limit).2 := by
      rw [hplay]
      exact hfollows
    have hcount := hb.instructions ▸ hb.countable
    exact ⟨.complete hok hsame hb.timers hb.instructions hcount,
      .complete hok hsame hb.timers hb.instructions hcount⟩

/-- A run of a steady clock ends, if it is granted a sleep for every tick and one more, and
it ends as its timetable does unless somebody stops it. -/
theorem run_timed (ht : Timed clock s limit) (hz : Nat) {sleeps : Nat} (c : Console w h)
    (hsleeps : count hz limit .timer + count hz limit .instruction < sleeps) :
    Outcome clock s hz limit c (run clock sleeps (fresh hz limit s c)) := by
  have hfirst : clock.now s + limit ≤ Span.longest :=
    Nat.le_trans (Nat.le_add_right _ _) ht.early
  have hlimit : Span.add? (clock.now s) limit = some (clock.now s + limit) := if_pos hfirst
  unfold run start
  rw [if_neg (by simp [fresh, Pacer.ofRate]), fresh, ht.steady.read? .here]
  simp only [Pacer.begin, Pacer.ofRate, Pacer.restart, Option.mapM_some, hlimit, Option.map_eq_map,
    Option.map_some]
  rcases hd : c.present with ⟨f | u, d⟩
  · refine .failed (f := f) ?_
    simp only [Console.play, hd]
  · have hloop : Ended clock s hz limit d (loop clock (some (clock.now s + limit)) sleeps _) :=
      loop_onTime ht sleeps _ ((onTime_first clock s hz limit d).lapse ht)
        (Nat.le_trans (allowance_le _ _) hsleeps)
    obtain ⟨hended, hfinished⟩ := hloop.outcome hd
    simp only [Pacer.ofRate, Pacer.restart] at hended hfinished ⊢
    generalize loop clock _ sleeps _ = out at hended hfinished ⊢
    obtain ⟨e, b⟩ := out
    cases e with
    | stopped => exact hfinished
    | failed f => exact hfinished
    | overflow => exact hended
    | unfinished => exact hended

/-- A run that nobody disturbs: its clock can be relied on, it is granted enough sleeps, no
tick fails, and the stop signal, which nothing takes back, is not raised at its end. -/
structure Undisturbed (clock : Clock σ) (s : σ) (hz limit sleeps : Nat) (c : Console w h) :
    Prop where
  timed : Timed clock s limit
  granted : count hz limit .timer + count hz limit .instruction < sleeps
  unfailed : ∀ f, (run clock sleeps (fresh hz limit s c)).1 ≠ .failed f
  unstopped : (run clock sleeps (fresh hz limit s c)).2.console.isStopped = false

/-- A run that nobody disturbs leaves what its timetable leaves, or it comes to an instruction
that it cannot count. -/
theorem Undisturbed.outcome {sleeps : Nat} (hrun : Undisturbed clock s hz limit sleeps c) :
    Cadence.maxTicks ≤ count hz limit .instruction ∧
      (run clock sleeps (fresh hz limit s c)).1 = .overflow ∨
    count hz limit .instruction < Cadence.maxTicks ∧
      (run clock sleeps (fresh hz limit s c)).1 = .stopped ∧
      (c.play hz limit).1 = .ok () ∧
      (run clock sleeps (fresh hz limit s c)).2.console.unnoted = (c.play hz limit).2.unnoted ∧
      (run clock sleeps (fresh hz limit s c)).2.pacer.timers.ticks = count hz limit .timer ∧
      (run clock sleeps (fresh hz limit s c)).2.pacer.instructions.ticks =
        count hz limit .instruction := by
  have houtcome := run_timed hrun.timed hz c hrun.granted
  have hfail := hrun.unfailed
  have hstop := hrun.unstopped
  generalize run clock sleeps (fresh hz limit s c) = out at houtcome hfail hstop ⊢
  cases houtcome with
  | failed hplay => exact absurd rfl (hfail _)
  | stopped hs hplay => exact absurd hs (by simp [hstop])
  | overflow hcount hplay => exact .inl ⟨hcount, rfl⟩
  | complete hplay hconsole htimers hinstructions hcount =>
      have hsame := hconsole.resolve_right (by simp [hstop])
      exact .inr ⟨hcount, rfl, hplay, hsame, htimers, hinstructions⟩

theorem Undisturbed.complete {sleeps : Nat} (hrun : Undisturbed clock s hz limit sleeps c)
    (hcount : count hz limit .instruction < Cadence.maxTicks) :
    (run clock sleeps (fresh hz limit s c)).1 = .stopped ∧
    (c.play hz limit).1 = .ok () ∧
    (run clock sleeps (fresh hz limit s c)).2.console.unnoted = (c.play hz limit).2.unnoted ∧
    (run clock sleeps (fresh hz limit s c)).2.pacer.timers.ticks = count hz limit .timer ∧
    (run clock sleeps (fresh hz limit s c)).2.pacer.instructions.ticks =
      count hz limit .instruction :=
  (hrun.outcome.resolve_left fun h => absurd hcount (Nat.not_lt.mpr h.1)).2

theorem Undisturbed.overflow {sleeps : Nat} (hrun : Undisturbed clock s hz limit sleeps c)
    (hcount : Cadence.maxTicks ≤ count hz limit .instruction) :
    (run clock sleeps (fresh hz limit s c)).1 = .overflow :=
  (hrun.outcome.resolve_right fun h => absurd h.1 (Nat.not_lt.mpr hcount)).2

/-- Where the timetable goes well and the clock is quiet, a run is not disturbed. -/
theorem Undisturbed.of_play {sleeps : Nat} (ht : Timed clock s limit)
    (hquiet : clock.Quiet (clock.now s + limit) s)
    (hsleeps : count hz limit .timer + count hz limit .instruction < sleeps)
    (hplay : (c.play hz limit).1 = .ok ()) (hstop : (c.play hz limit).2.isStopped = false) :
    Undisturbed clock s hz limit sleeps c := by
  have houtcome := run_timed ht hz c hsleeps
  have hgood : (∀ f, (run clock sleeps (fresh hz limit s c)).1 ≠ .failed f) ∧
      (run clock sleeps (fresh hz limit s c)).2.console.isStopped = false := by
    generalize run clock sleeps (fresh hz limit s c) = out at houtcome ⊢
    cases houtcome with
    | failed hfail =>
        rw [hplay] at hfail
        exact nomatch hfail
    | stopped hs hraised => exact absurd (hraised hquiet) (by simp [hstop])
    | overflow hmany hraised =>
        exact ⟨nofun, Bool.eq_false_iff.mpr fun hs => absurd (hraised hs) (by simp [hstop])⟩
    | complete hok hconsole htimers hinstructions hfew =>
        have hsame := hconsole.resolve_right fun h => h.2 hquiet
        exact ⟨nofun, by rw [Console.isStopped_congr hsame, hstop]⟩
  exact ⟨ht, hsleeps, hgood.1, hgood.2⟩

/-- On a quiet clock, nothing disturbs a run of an idle program, however long and fast it is. -/
theorem Undisturbed.of_idle {a : Addr} {sleeps : Nat} {d : Console w h}
    (ht : Timed clock s limit) (hquiet : clock.Quiet (clock.now s + limit) s)
    (hsleeps : count hz limit .timer + count hz limit .instruction < sleeps)
    (hd : c.present = (.ok (), d)) (hidle : d.Idle a) :
    Undisturbed clock s hz limit sleeps c := by
  obtain ⟨e, hserves, he⟩ := hidle.serveAll (ticks hz limit)
  have hplay : c.play hz limit = (.ok (), e) := by rw [Console.play, hd]; exact hserves
  exact .of_play ht hquiet hsleeps (by rw [hplay]) (by rw [hplay]; exact he.going)

/-! ## Exactness -/

/-- **Exactness under any lateness.** The timetable holds the ticks that are due within the
span, in the order of their deadlines and with the timers first on a tie.  If the instructions
among them can be counted, a run of any steady clock that nobody disturbs stops by itself when
it has carried out these ticks, all of them, once each and in this order, whenever it was woken
for them; so no other clock could have left another console or other counts. -/
theorem run_exact {sleeps : Nat} (hrun : Undisturbed clock s hz limit sleeps c)
    (hcount : count hz limit .instruction < Cadence.maxTicks) :
    (∀ e, e ∈ entries hz limit ↔ 1 ≤ e.2 ∧ e.2 * Span.second / rate hz e.1 ≤ limit) ∧
    (entries hz limit).Pairwise (Before hz) ∧
    (run clock sleeps (fresh hz limit s c)).1 = .stopped ∧
    (c.play hz limit).1 = .ok () ∧
    (run clock sleeps (fresh hz limit s c)).2.console.unnoted = (c.play hz limit).2.unnoted ∧
    (run clock sleeps (fresh hz limit s c)).2.pacer.timers.ticks = count hz limit .timer ∧
    (run clock sleeps (fresh hz limit s c)).2.pacer.instructions.ticks =
      count hz limit .instruction ∧
    ∀ {τ : Type} (other : Clock τ) (s' : τ) (sleeps' : Nat),
      Undisturbed other s' hz limit sleeps' c →
      (run other sleeps' (fresh hz limit s' c)).2.console.unnoted =
        (run clock sleeps (fresh hz limit s c)).2.console.unnoted ∧
      (run other sleeps' (fresh hz limit s' c)).2.pacer.timers.ticks =
        (run clock sleeps (fresh hz limit s c)).2.pacer.timers.ticks ∧
      (run other sleeps' (fresh hz limit s' c)).2.pacer.instructions.ticks =
        (run clock sleeps (fresh hz limit s c)).2.pacer.instructions.ticks := by
  obtain ⟨hending, hplay, hconsole, htimers, hinstructions⟩ := hrun.complete hcount
  refine ⟨fun e => mem_entries, pairwise_entries hz limit, hending, hplay, hconsole, htimers,
    hinstructions, fun other s' sleeps' hother => ?_⟩
  obtain ⟨-, -, hconsole', htimers', hinstructions'⟩ := hother.complete hcount
  exact ⟨hconsole'.trans hconsole.symm, htimers'.trans htimers.symm,
    hinstructions'.trans hinstructions.symm⟩

/-- A program that jumps to its own address. -/
def looping : Console 8 4 := ((Console.initial 8 4 0).load { bytes := [0x12, 0x00] }).2

theorem idle_looping :
    looping.present = (.ok (), looping.present.2) ∧ looping.present.2.Idle 0x200 := by
  have hok : looping.present.1 = .ok () := by decide +kernel
  have hidle : looping.present.2.machine.upcoming? = some (.jump 0x200) ∧
      looping.present.2.machine.cpu.pc = Machine.ofAddr 0x200 ∧
      looping.present.2.machine.cpu.sound = 0 ∧ looping.present.2.sounding = false ∧
      looping.present.2.isStopped = false := by decide +kernel
  obtain ⟨hjump, hplace, hsound, hsilent, hgoing⟩ := hidle
  exact ⟨Prod.ext hok rfl, ⟨hjump, hplace, hsound, hsilent, hgoing⟩⟩

/-- On a punctual clock, two jumps are carried out in four milliseconds at the nominal rate. -/
theorem run_exact_looping :
    Undisturbed .punctual 0 500 4000000 3 looping ∧
    count 500 4000000 .instruction < Cadence.maxTicks ∧
    (run .punctual 3 (fresh 500 4000000 0 looping)).1 = .stopped ∧
    (run .punctual 3 (fresh 500 4000000 0 looping)).2.pacer.instructions.ticks = 2 := by
  have hrun : Undisturbed .punctual 0 500 4000000 3 looping :=
    .of_idle (timed_punctual (by decide)) Clock.quiet_punctual (by decide) idle_looping.1
      idle_looping.2
  have hcount : count 500 4000000 .instruction < Cadence.maxTicks := by decide
  obtain ⟨-, -, hending, -, -, -, hinstructions, -⟩ := run_exact hrun hcount
  exact ⟨hrun, hcount, hending, hinstructions.trans (by decide)⟩

/-- At more than four jumps in a nanosecond, and with the longest limit for which every offset
is a 64-bit number of nanoseconds, nothing disturbs the run and yet it does not stop by itself:
more jumps are due than can be counted. -/
theorem run_counts_over :
    18446744072709551614 + Span.second + 1 < Nat.pow 2 64 ∧
    Undisturbed .punctual 0 4294967295 18446744072709551614 (Nat.pow 2 70) looping ∧
    Clock.punctual.Quiet 18446744072709551614 0 ∧
    Cadence.maxTicks ≤ count 4294967295 18446744072709551614 .instruction ∧
    (run .punctual (Nat.pow 2 70) (fresh 4294967295 18446744072709551614 0 looping)).1 =
      .overflow := by
  have hshort : 18446744072709551614 + Span.second + 1 < Nat.pow 2 64 := by decide
  have hrun : Undisturbed .punctual 0 4294967295 18446744072709551614 (Nat.pow 2 70) looping :=
    .of_idle (timed_punctual hshort) Clock.quiet_punctual (by decide) idle_looping.1
      idle_looping.2
  have hcount : Cadence.maxTicks ≤ count 4294967295 18446744072709551614 .instruction := by
    decide
  exact ⟨hshort, hrun, Clock.quiet_punctual, hcount, hrun.overflow hcount⟩

end Run

end Chip8Vm
