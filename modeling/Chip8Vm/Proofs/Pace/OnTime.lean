import Chip8Vm.Proofs.Pace.Steady
import Chip8Vm.Proofs.Pace.Turn
import Chip8Vm.Proofs.Pace.Within

/-!
# Chip8Vm.Proofs.Pace.OnTime

Catching up keeps to the timetable.

`OnTime` says of a run that it has carried out the timetable up to some entry: the
console is, notes apart, the one on which the ticks before that entry were served one
after the other, and the pacer has counted exactly these.  A turn that serves a tick
serves the next entry (`OnTime.served`), so catching up goes on from entry to entry
until the next one is past the horizon (`catchUp_onTime`).
-/

namespace Chip8Vm

/-! ## Serving a timetable -/

namespace Console

variable {w h : Nat}

/-- Carry out ticks one after the other, up to the first that fails. -/
def serveAll : List Tick → Console w h → Except Fault Unit × Console w h
  | [], c => (.ok (), c)
  | t :: ts, c =>
    match c.serve t with
    | (.ok (), d) => serveAll ts d
    | (.error f, d) => (.error f, d)

/-- Show the picture and carry out all ticks that are due within a span. -/
def play (hz limit : Nat) (c : Console w h) : Except Fault Unit × Console w h :=
  match c.present with
  | (.ok (), d) => serveAll (Timetable.ticks hz limit) d
  | (.error f, d) => (.error f, d)

theorem serveAll_append {ts : List Tick} {c d : Console w h} (hd : serveAll ts c = (.ok (), d))
    (us : List Tick) : serveAll (ts ++ us) c = serveAll us d := by
  induction ts generalizing c with
  | nil =>
      obtain rfl : c = d := congrArg Prod.snd hd
      rfl
  | cons t ts ih =>
      simp only [serveAll, List.cons_append] at hd ⊢
      rcases hc : c.serve t with ⟨_ | _, c'⟩
      · simp only [hc, Prod.mk.injEq, reduceCtorEq, false_and] at hd
      · exact ih (by simpa only [hc] using hd)

/-- Ticks do not take the stop signal back. -/
theorem isStopped_serveAll (ts : List Tick) {c : Console w h} (hc : c.isStopped = true) :
    (serveAll ts c).2.isStopped = true := by
  induction ts generalizing c with
  | nil => exact hc
  | cons t ts ih =>
      have hserve := stable_isStopped.serve c t hc
      unfold serveAll
      rcases hd : c.serve t with ⟨_ | _, d⟩
      · rwa [hd] at hserve
      · exact ih (by rwa [hd] at hserve)

end Console

namespace Run

open Timetable

variable {σ : Type} {w h : Nat} {clock : Clock σ} {s : σ} {hz limit : Nat} {c : Console w h}
  {r : Run σ w h}

/-- The console is another one, notes apart, unless the stop signal was raised from
outside. -/
def Follows (clock : Clock σ) (last : Nat) (s : σ) (c d : Console w h) : Prop :=
  c.unnoted = d.unnoted ∨ c.isStopped = true ∧ ¬ clock.Quiet last s

/-- The run has carried out the timetable that begins in state `s` with console `c` up
to some entry. -/
structure OnTime (clock : Clock σ) (s : σ) (hz limit : Nat) (c : Console w h) (r : Run σ w h) :
    Prop where
  timers : r.pacer.timers = ⟨rate hz .timer, clock.now s, r.pacer.timers.ticks⟩
  instructions :
    r.pacer.instructions = ⟨rate hz .instruction, clock.now s, r.pacer.instructions.ticks⟩
  timersDue : r.pacer.timers.ticks ≤ count hz limit .timer
  instructionsDue : r.pacer.instructions.ticks ≤ count hz limit .instruction
  countable : r.pacer.instructions.ticks < Cadence.maxTicks
  reaches : clock.Reaches (clock.now s + limit) s r.clock
  course : ∃ l d,
    entries hz limit = l ++ left hz limit r.pacer.timers.ticks r.pacer.instructions.ticks ∧
    Console.serveAll (l.map Prod.fst) c = (.ok (), d) ∧
    Follows clock (clock.now s + limit) s r.console d

/-- A clock that a run of this length can be timed with, from state `s` on. -/
structure Timed (clock : Clock σ) (s : σ) (limit : Nat) : Prop where
  steady : clock.Steady (clock.now s + limit) s
  /-- The offsets of all deadlines are 64-bit numbers of nanoseconds. -/
  short : limit + Span.second + 1 < Nat.pow 2 64
  /-- The deadlines are spans. -/
  early : clock.now s + limit + 2 * Span.second ≤ Span.longest

/-- The punctual clock times every run that is short enough. -/
theorem timed_punctual (hshort : limit + Span.second + 1 < Nat.pow 2 64) :
    Timed .punctual 0 limit := by
  have hearly : 0 + limit + 2 * Span.second ≤ Span.longest := by
    have hpos : Nat.pow 2 64 + Span.second ≤ Span.longest := by decide
    omega
  have hlast : 0 + limit ≤ Span.longest := Nat.le_trans (Nat.le_add_right _ _) hearly
  exact { steady := Clock.steady_punctual (Nat.zero_le _) hlast, short := hshort, early := hearly }

/-! ## Time going on -/

theorem Follows.goes {last : Nat} {d e : Console w h} (hsteady : clock.Steady last s) {t : σ}
    {meanwhile : σ × List Happening} (ht : clock.Reaches last s t)
    (hgoes : clock.Goes last t meanwhile) (hd : Follows clock last s d e) :
    Follows clock last s (meanwhile.2.foldl Console.happen d) e := by
  obtain hsame | ⟨hstopped, hloud⟩ := hd
  · by_cases hstop : .stop ∈ meanwhile.2
    · exact .inr ⟨Console.isStopped_happenings _ hstop d, fun hquiet => hquiet ht hgoes hstop⟩
    · rw [← Console.unnoted_happenings _ (hsteady.keyless ht hgoes) hstop d] at hsame
      exact .inl hsame
  · refine .inr ⟨?_, hloud⟩
    exact List.foldlRecOn (motive := fun d : Console w h => d.isStopped = true) _ _ hstopped
      fun d hd e _ => Console.stable_isStopped.happen d e hd

/-- Time going on takes no run off the timetable. -/
theorem OnTime.elapse (hr : OnTime clock s hz limit c r) (ht : Timed clock s limit)
    {meanwhile : σ × List Happening}
    (hgoes : clock.Goes (clock.now s + limit) r.clock meanwhile) :
    OnTime clock s hz limit c (r.elapse meanwhile) := by
  obtain ⟨l, d, hentries, hserve, hfollows⟩ := hr.course
  exact { hr with
    reaches := hr.reaches.next hgoes
    course := ⟨l, d, hentries, hserve, hfollows.goes ht.steady hr.reaches hgoes⟩ }

theorem OnTime.lapse (hr : OnTime clock s hz limit c r) (ht : Timed clock s limit) :
    OnTime clock s hz limit c (r.lapse clock) :=
  hr.elapse ht .lapse

/-! ## The tick that is next -/

theorem OnTime.within (hr : OnTime clock s hz limit c r) :
    r.pacer.Within (clock.now s) hz limit where
  timers := hr.timers
  instructions := hr.instructions
  timersDue := hr.timersDue
  instructionsDue := hr.instructionsDue

/-- If the tick that a pacer picks is due within the span, it is the first of what is left
of the timetable, and the others are what is left once it is counted. -/
theorem OnTime.left_eq (hr : OnTime clock s hz limit c r) (ht : Timed clock s limit) {tick : Tick}
    {due : Nat} (hu : r.pacer.upcoming? = some (tick, due)) (hd : due ≤ clock.now s + limit) :
    (tick = .timer ∧ r.pacer.timers.ticks + 1 ≤ count hz limit .timer ∧
      left hz limit r.pacer.timers.ticks r.pacer.instructions.ticks =
        (.timer, r.pacer.timers.ticks + 1) ::
          left hz limit (r.pacer.timers.ticks + 1) r.pacer.instructions.ticks) ∨
    (tick = .instruction ∧ r.pacer.instructions.ticks + 1 ≤ count hz limit .instruction ∧
      left hz limit r.pacer.timers.ticks r.pacer.instructions.ticks =
        (.instruction, r.pacer.instructions.ticks + 1) ::
          left hz limit r.pacer.timers.ticks (r.pacer.instructions.ticks + 1)) := by
  obtain ⟨htick, hdue, hfirst⟩ | ⟨htick, hdue, hfirst⟩ := hr.within.upcoming_cases ht.short hu
  · have hlimit : deadline hz (.timer, r.pacer.timers.ticks + 1) ≤ limit := by omega
    exact .inl ⟨htick, le_count_iff.mpr hlimit, left_timer hfirst hlimit⟩
  · have hlimit : deadline hz (.instruction, r.pacer.instructions.ticks + 1) ≤ limit := by omega
    exact .inr ⟨htick, le_count_iff.mpr hlimit, left_instruction hfirst hlimit⟩

/-- A tick that a pacer picks and that is due within the span is the first of what is left. -/
theorem OnTime.left_cons (hr : OnTime clock s hz limit c r) (ht : Timed clock s limit)
    {tick : Tick} {due : Nat} (hu : r.pacer.upcoming? = some (tick, due))
    (hd : due ≤ clock.now s + limit) :
    ∃ k rest,
      left hz limit r.pacer.timers.ticks r.pacer.instructions.ticks = (tick, k) :: rest := by
  obtain ⟨rfl, -, hleft⟩ | ⟨rfl, -, hleft⟩ := hr.left_eq ht hu hd
  · exact ⟨_, _, hleft⟩
  · exact ⟨_, _, hleft⟩

/-! ## Serving the next tick -/

/-- The next tick fails on the run's console exactly as it does in the timetable. -/
theorem OnTime.failed (hr : OnTime clock s hz limit c r) (ht : Timed clock s limit) {tick : Tick}
    {due : Nat} {f : Fault} {d : Console w h} (hs : r.console.isStopped = false)
    (hu : r.pacer.upcoming? = some (tick, due)) (hd : due ≤ clock.now s + limit)
    (hc : r.console.serve tick = (.error f, d)) :
    (Console.serveAll (ticks hz limit) c).1 = .error f := by
  obtain ⟨l, e, hentries, hserve, hfollows⟩ := hr.course
  have hsame : r.console.unnoted = e.unnoted := hfollows.resolve_right (by simp [hs])
  have hresult := (Console.serve_congr hsame tick).1
  obtain ⟨k, rest, hleft⟩ := hr.left_cons ht hu hd
  rw [ticks, hentries, hleft, List.map_append, Console.serveAll_append hserve, List.map_cons,
    Console.serveAll]
  rw [hc] at hresult
  rcases he : e.serve tick with ⟨g | u, e'⟩
  · rw [he] at hresult
    exact hresult.symm
  · rw [he] at hresult
    exact nomatch hresult

/-- A tick that the run serves goes as well after the entries carried out so far, and leaves
the same console there. -/
theorem OnTime.course_served (hr : OnTime clock s hz limit c r) {tick : Tick}
    {d : Console w h} (hs : r.console.isStopped = false)
    (hc : r.console.serve tick = (.ok (), d)) :
    ∃ l e,
      entries hz limit = l ++ left hz limit r.pacer.timers.ticks r.pacer.instructions.ticks ∧
      (∀ k, Console.serveAll ((l ++ [(tick, k)]).map Prod.fst) c = (.ok (), e)) ∧
      d.unnoted = e.unnoted := by
  obtain ⟨l, e, hentries, hserve, hfollows⟩ := hr.course
  have hsame : r.console.unnoted = e.unnoted := hfollows.resolve_right (by simp [hs])
  obtain ⟨hresult, hconsole⟩ := Console.serve_congr hsame tick
  rw [hc] at hresult hconsole
  have he : e.serve tick = (.ok (), (e.serve tick).2) := Prod.ext hresult.symm rfl
  refine ⟨l, (e.serve tick).2, hentries, fun k => ?_, hconsole⟩
  rw [List.map_append, Console.serveAll_append hserve, List.map_singleton, Console.serveAll, he]
  rfl

/-- A run that serves the next tick and counts it stays on time. -/
theorem OnTime.served (hr : OnTime clock s hz limit c r) (ht : Timed clock s limit) {tick : Tick}
    {due : Nat} {d : Console w h} {q : Pacer} (hs : r.console.isStopped = false)
    (hu : r.pacer.upcoming? = some (tick, due)) (hd : due ≤ clock.now s + limit)
    (hc : r.console.serve tick = (.ok (), d)) (ha : r.pacer.advance? tick = some q) :
    OnTime clock s hz limit c { r with pacer := q, console := d } := by
  -- the tick is the next entry whatever its kind; only the counting differs
  obtain ⟨l, e, hentries, hcourse, hconsole⟩ := hr.course_served hs hc
  obtain ⟨rfl, hdue, hleft⟩ | ⟨rfl, hdue, hleft⟩ := hr.left_eq ht hu hd
  · obtain ⟨cadence, hcadence, rfl⟩ := Option.map_eq_some_iff.mp ha
    obtain ⟨rfl, hticks⟩ := Cadence.of_advance? hcadence
    exact { hr with
      timers := congrArg (fun t : Cadence => { t with ticks := t.ticks + 1 }) hr.timers
      timersDue := hdue
      course := ⟨l ++ [(.timer, _)], e, by rw [hentries, hleft, List.append_assoc]; rfl,
        hcourse _, .inl hconsole⟩ }
  · obtain ⟨cadence, hcadence, rfl⟩ := Option.map_eq_some_iff.mp ha
    obtain ⟨rfl, hticks⟩ := Cadence.of_advance? hcadence
    exact { hr with
      instructions := congrArg (fun t : Cadence => { t with ticks := t.ticks + 1 }) hr.instructions
      instructionsDue := hdue
      countable := hticks
      course := ⟨l ++ [(.instruction, _)], e, by rw [hentries, hleft, List.append_assoc]; rfl,
        hcourse _, .inl hconsole⟩ }

/-- If the stop signal is raised by a tick that is served, the timetable raises it. -/
theorem OnTime.raised (hr : OnTime clock s hz limit c r) (ht : Timed clock s limit) {tick : Tick}
    {due : Nat} {d : Console w h} (hs : r.console.isStopped = false)
    (hu : r.pacer.upcoming? = some (tick, due)) (hd : due ≤ clock.now s + limit)
    (hc : r.console.serve tick = (.ok (), d)) (hraised : d.isStopped = true) :
    (Console.serveAll (ticks hz limit) c).2.isStopped = true := by
  obtain ⟨l, e, hentries, hcourse, hconsole⟩ := hr.course_served hs hc
  obtain ⟨k, rest, hleft⟩ := hr.left_cons ht hu hd
  rw [ticks, hentries, hleft, List.append_cons, List.map_append,
    Console.serveAll_append (hcourse k)]
  exact Console.isStopped_serveAll _ (Console.isStopped_congr hconsole ▸ hraised)

/-! ## Catching up -/

/-- The ways in which a run can end before the timetable does, and with which console. -/
inductive Cut (clock : Clock σ) (s : σ) (hz limit : Nat) (c : Console w h) :
    Ending → Console w h → Prop where
  /-- The stop signal is raised, by somebody outside or by the ticks themselves. -/
  | stopped {d : Console w h} (hs : d.isStopped = true)
      (hplay : clock.Quiet (clock.now s + limit) s →
        (Console.serveAll (ticks hz limit) c).2.isStopped = true) :
      Cut clock s hz limit c .stopped d
  /-- A tick fails. -/
  | failed {f : Fault} {d : Console w h}
      (hplay : (Console.serveAll (ticks hz limit) c).1 = .error f) :
      Cut clock s hz limit c (.failed f) d
  /-- There are more instructions to be done than can be counted. -/
  | overflow {d : Console w h} (hcount : Cadence.maxTicks ≤ count hz limit .instruction)
      (hplay : d.isStopped = true →
        (Console.serveAll (ticks hz limit) c).2.isStopped = true) :
      Cut clock s hz limit c .overflow d

/-- What catching up to a horizon comes to. -/
inductive CaughtUp (clock : Clock σ) (s : σ) (hz limit : Nat) (c : Console w h) (horizon : Nat)
    (a : Run σ w h) : Caught σ w h → Prop where
  | cut {e : Ending} {b : Run σ w h} (hcut : Cut clock s hz limit c e b.console) :
      CaughtUp clock s hz limit c horizon a (.error e, b)
  | due {b : Run σ w h} (hb : OnTime clock s hz limit c b)
      (hdue : horizon < clock.now s + nextDue hz b.pacer)
      (htimers : a.pacer.timers.ticks ≤ b.pacer.timers.ticks)
      (hinstructions : a.pacer.instructions.ticks ≤ b.pacer.instructions.ticks) :
      CaughtUp clock s hz limit c horizon a (.ok (clock.now s + nextDue hz b.pacer), b)

/-- A run with the stop signal raised has it raised by somebody, or the ticks do it. -/
theorem OnTime.cut (hr : OnTime clock s hz limit c r) (hs : r.console.isStopped = true)
    (notes : List Note) : Cut clock s hz limit c .stopped (r.console.note notes) := by
  obtain ⟨l, d, hentries, hserve, hfollows⟩ := hr.course
  refine .stopped hs fun hquiet => ?_
  have hsame : r.console.unnoted = d.unnoted := hfollows.resolve_right fun h => h.2 hquiet
  rw [Console.isStopped_congr hsame] at hs
  rw [ticks, hentries, List.map_append, Console.serveAll_append hserve]
  exact Console.isStopped_serveAll _ hs

/-- Catching up on a run that is on time keeps it on time until nothing more is due by the
horizon, unless it is cut short. -/
theorem catchUp_onTime (ht : Timed clock s limit) {horizon : Nat}
    (hhorizon : horizon ≤ clock.now s + limit) (a : Run σ w h) (ha : OnTime clock s hz limit c a) :
    CaughtUp clock s hz limit c horizon a (a.catchUp clock horizon) := by
  refine catchUp_induct
    (fun a b => OnTime clock s hz limit c a → CaughtUp clock s hz limit c horizon a b)
    (fun a b hb ha => ?_) (fun a r b hr ih ha => ?_) a ha
  · have hlapse := ha.lapse ht
    cases hb with
    | stopped hs => exact .cut (hlapse.cut hs _)
    | overflow hs hu =>
        have hlong := ha.within.longest_lt ht.short hu
        have hearly := ht.early
        have hpos : 0 < Span.second := by decide
        omega
    | @caughtUp tick due hs hu hd =>
        rw [hlapse.within.due_eq ht.short hu] at hd ⊢
        exact .due hlapse hd (Nat.le_refl _) (Nat.le_refl _)
    | failed hs hu hd hc =>
        exact .cut (.failed (hlapse.failed ht hs hu (Nat.le_trans hd hhorizon) hc))
    | uncounted hs hu hd hc hn =>
        have hlast := Nat.le_trans hd hhorizon
        exact .cut (.overflow (ha.within.uncounted ht.short hu hlast hn)
          (hlapse.raised ht hs hu hlast hc))
  · have hlapse := ha.lapse ht
    cases hr with
    | @served tick due d q hs hu hd hc hq =>
        have hserved := hlapse.served ht hs hu (Nat.le_trans hd hhorizon) hc hq
        cases ih hserved with
        | cut hcut => exact .cut hcut
        | due hb hdue htimers hinstructions =>
            obtain ⟨htimer, hinstruction, -⟩ := Pacer.ticks_of_advance? hq
            exact .due hb hdue (Nat.le_trans (htimer ▸ Nat.le_add_right _ _) htimers)
              (Nat.le_trans (hinstruction ▸ Nat.le_add_right _ _) hinstructions)

end Run

end Chip8Vm
