import Chip8Vm.Pace.Clock
import Chip8Vm.Pace.Repeat

/-!
# Chip8Vm.Pace.Pacer

Driving a console at a fixed rate.

A pacer has two cadences, one for the instructions and one for the timers at
60 Hz, and perhaps a limit.  After each look at the clock it makes up for
every tick that is due by then, though for none past the limit, in the order of
the deadlines and the timers first on a tie; then it sleeps until the next
deadline or the limit.  The stop signal is minded before every tick.

A pacer that ended never runs again.
-/

namespace Chip8Vm

inductive Tick where
  | timer
  | instruction
  deriving DecidableEq, Repr

/-- How a run ended. -/
inductive Ending where
  /-- The stop signal was raised, or the limit was reached. -/
  | stopped
  /-- The first picture could not be shown, or a tick failed. -/
  | failed (f : Fault)
  /-- A time had to be computed that is no span. -/
  | overflow
  /-- It has not ended within the sleeps that were granted. -/
  | unfinished
  deriving DecidableEq, Repr

structure Pacer where
  instructions : Cadence
  timers : Cadence
  limit : Option Nat
  stopped : Bool := false
  deriving DecidableEq, Repr

/-- What a run works with. -/
structure Run (σ : Type) (w h : Nat) where
  pacer : Pacer
  console : Console w h
  clock : σ

namespace Pacer

/-- How often the timers tick in a second. -/
def timerRate : Nat := 60

/-- A pacer for so many instructions in a second. -/
def ofRate (hz : Nat) (limit : Option Nat) : Pacer where
  instructions := .ofRate hz
  timers := .ofRate timerRate
  limit := limit

def restart (p : Pacer) (origin : Nat) : Pacer :=
  { p with instructions := p.instructions.restart origin, timers := p.timers.restart origin }

/-- The tick that is due next, the timers first on a tie, and its deadline. -/
def upcoming? (p : Pacer) : Option (Tick × Nat) := do
  let timer ← p.timers.next?
  let instruction ← p.instructions.next?
  if timer ≤ instruction then some (.timer, timer) else some (.instruction, instruction)

def advance? (p : Pacer) : Tick → Option Pacer
  | .timer => p.timers.advance?.map fun t => { p with timers := t }
  | .instruction => p.instructions.advance?.map fun i => { p with instructions := i }

/-- How many more ticks both cadences can count together. -/
def remaining (p : Pacer) : Nat :=
  (Cadence.maxTicks - p.timers.ticks) + (Cadence.maxTicks - p.instructions.ticks)

theorem remaining_advance {p q : Pacer} {t : Tick} (h : p.advance? t = some q) :
    q.remaining < p.remaining := by
  cases t with
  | timer =>
    obtain ⟨c, hc, rfl⟩ := Option.map_eq_some_iff.mp h
    obtain ⟨rfl, hlt⟩ := Cadence.of_advance? hc
    simp only [remaining] at *
    omega
  | instruction =>
    obtain ⟨c, hc, rfl⟩ := Option.map_eq_some_iff.mp h
    obtain ⟨rfl, hlt⟩ := Cadence.of_advance? hc
    simp only [remaining] at *
    omega

end Pacer

namespace Console

variable {w h : Nat}

def serve (c : Console w h) : Tick → Except Fault Unit × Console w h
  | .timer => c.tickTimers
  | .instruction =>
    match c.step with
    | (.ok _, c) => (.ok (), c)
    | (.error f, c) => (.error f, c)

end Console

namespace Pacer

variable {w h : Nat}

def capped (limit : Option Nat) (time : Nat) : Nat :=
  match limit with
  | some l => min time l
  | none => time

def reached (limit : Option Nat) (now : Nat) : Bool :=
  match limit with
  | some l => l ≤ now
  | none => false

/-- Begin at a time: both cadences count from then on, the limit becomes a time, and
the first picture is shown.  The limit, unless the run ends before. -/
def begin (now : Nat) (p : Pacer) (c : Console w h) :
    Except Ending (Option Nat) × Pacer × Console w h :=
  let p := p.restart now
  match p.limit.mapM (Span.add? now) with
  | none => (.error .overflow, p, c)
  | some limit =>
    match c.present with
    | (.error f, c) => (.error (.failed f), p, c)
    | (.ok (), c) => (.ok limit, p, c)

def finish (p : Pacer) (c : Console w h) : Pacer × Console w h :=
  ({ p with stopped := true },
    c.note [.pacerStopped p.instructions.ticks p.timers.ticks])

end Pacer

namespace Run

variable {σ : Type} {w h : Nat}

/-! ## The surroundings -/

/-- The clock has gone on and others did these things. -/
def elapse (r : Run σ w h) (meanwhile : σ × List Happening) : Run σ w h :=
  { r with clock := meanwhile.1, console := meanwhile.2.foldl Console.happen r.console }

def lapse (clock : Clock σ) (r : Run σ w h) : Run σ w h := r.elapse (clock.lapse r.clock)

def sleepUntil (clock : Clock σ) (deadline : Nat) (r : Run σ w h) : Run σ w h :=
  r.elapse (clock.sleepUntil deadline r.clock)

def note (r : Run σ w h) (notes : List Note) : Run σ w h :=
  { r with console := r.console.note notes }

/-! ## Catching up -/

/-- What catching up gives: how the run ended, or the next deadline; and the run
then. -/
abbrev Caught (σ : Type) (w h : Nat) := Except Ending Nat × Run σ w h

/-- One turn of catching up: mind the stop signal, then carry out the next tick
if it is due by the horizon. -/
def turn (clock : Clock σ) (horizon : Nat) (a : Run σ w h) :
    StepResult (Caught σ w h) (fun b : Run σ w h => b.pacer.remaining) a :=
  let r := a.lapse clock
  if r.console.isStopped then
    .inl (.error .stopped, r.note [.stopRequested])
  else
    match a.pacer.upcoming? with
    | none => .inl (.error .overflow, r)
    | some (tick, due) =>
      if due > horizon then
        .inl (.ok due, r)
      else
        match r.console.serve tick with
        | (.error f, c) => .inl (.error (.failed f), { r with console := c })
        | (.ok (), c) =>
          match hq : a.pacer.advance? tick with
          | none => .inl (.error .overflow, { r with console := c })
          | some q =>
            .inr ⟨{ r with pacer := q, console := c }, Pacer.remaining_advance hq⟩

/-- Make up for every tick that is due by the horizon; the next deadline after
it, unless the run ends before. -/
def catchUp (clock : Clock σ) (horizon : Nat) (r : Run σ w h) : Caught σ w h :=
  repeatUntil _ (turn clock horizon) r

/-- What is to be done at a time: catch up, and then either end at the limit or
sleep until the deadline that is given back. -/
def pass (clock : Clock σ) (limit : Option Nat) (now : Nat) (r : Run σ w h) : Caught σ w h :=
  match r.catchUp clock (Pacer.capped limit now) with
  | (.error e, r) => (.error e, r)
  | (.ok due, r) =>
    if Pacer.reached limit now then
      (.error .stopped, r.note [.limitReached])
    else
      (.ok (Pacer.capped limit due), r)

/-! ## Whole runs -/

/-- Passes with sleeps between them, with at most so many sleeps. -/
def loop (clock : Clock σ) (limit : Option Nat) :
    (sleeps : Nat) → Run σ w h → Ending × Run σ w h
  | sleeps, r =>
    match clock.read? r.clock with
    | none => (.overflow, r)
    | some now =>
      match r.pass clock limit now with
      | (.error e, r) => (e, r)
      | (.ok deadline, r) =>
        match sleeps with
        | 0 => (.unfinished, r)
        | sleeps + 1 => loop clock limit sleeps ((r.sleepUntil clock deadline).lapse clock)

/-- Begin and go on from there. -/
def start (clock : Clock σ) (sleeps : Nat) (r : Run σ w h) : Ending × Run σ w h :=
  match clock.read? r.clock with
  | none => (.overflow, r)
  | some now =>
    match r.pacer.begin now r.console with
    | (.error e, pacer, console) => (e, { r with pacer := pacer, console := console })
    | (.ok limit, pacer, console) =>
      loop clock limit sleeps (lapse clock { r with pacer := pacer, console := console })

def finish (r : Run σ w h) : Run σ w h :=
  let (pacer, console) := r.pacer.finish r.console
  { r with pacer := pacer, console := console }

/-- Run until the stop signal is raised, the limit is reached or something fails,
with at most so many sleeps.  A pacer that is done does nothing. -/
def run (clock : Clock σ) (sleeps : Nat) (r : Run σ w h) : Ending × Run σ w h :=
  if r.pacer.stopped then
    (.stopped, r)
  else
    match start clock sleeps r with
    | (.unfinished, r) => (.unfinished, r)
    | (.overflow, r) => (.overflow, r)
    | (e, r) => (e, r.finish)

end Run

end Chip8Vm
