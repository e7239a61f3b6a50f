import Chip8Vm.Proofs.Pace.Ending
import Chip8Vm.Proofs.Pace.Exact

/-!
# Chip8Vm.Proofs.Pace.Sleeps

A run with a limit ends, and it never spins.

`Run.naps` is the list of the sleeps of a run, each with its deadline and with the reading of
the clock that its pass was made for.  Nothing is known here of the program, of the keys or of
what goes wrong; the clock only has to go on, and to be there when a sleep was to end
(`Clock.Onward`).  A pass that ends with a sleep has caught up, so it sleeps for something later
than its reading, and when it wakes fewer sleeps are left (`allowance_lt`).

* `catchUp_within`, `pass_within` — what catching up and a pass come to;
* `Loops.course` — the list has all sleeps of the clock;
* `Loops.rested` — how many sleeps a loop has, and in which order;
* `run_naps` — the same of whole runs, and that they end.
-/

namespace Chip8Vm

namespace Clock

variable {σ : Type} {clock : Clock σ} {last : Nat} {s t : σ}

/-- From `s` on, and for sleeps until `last` at the latest, the clock goes on: its readings are
spans and never go back, and no sleep ends early. -/
structure Onward (clock : Clock σ) (last : Nat) (s : σ) : Prop where
  readable : ∀ {t}, clock.Reaches last s t → clock.now t ≤ Span.longest
  forward : ∀ {t meanwhile}, clock.Reaches last s t → clock.Goes last t meanwhile →
    clock.now t ≤ clock.now meanwhile.1
  awake : ∀ {t deadline}, clock.Reaches last s t → deadline ≤ last →
    deadline ≤ clock.now (clock.sleepUntil deadline t).1

theorem Onward.read? (hclock : clock.Onward last s) (ht : clock.Reaches last s t) :
    clock.read? t = some (clock.now t) :=
  if_pos (hclock.readable ht)

theorem Steady.onward (hclock : clock.Steady last s) : clock.Onward last s where
  readable := hclock.readable
  forward := hclock.forward
  awake := hclock.awake

/-- How a clock comes from one state to another: it goes on over lapses, and over sleeps with
these deadlines in this order. -/
inductive Course (clock : Clock σ) (s : σ) : List Nat → σ → Prop where
  | here : Course clock s [] s
  | lapse {deadlines : List Nat} {t : σ} (ht : Course clock s deadlines t) :
      Course clock s deadlines (clock.lapse t).1
  | sleep {deadlines : List Nat} {t : σ} (ht : Course clock s deadlines t) (deadline : Nat) :
      Course clock s (deadlines ++ [deadline]) (clock.sleepUntil deadline t).1

end Clock

/-- A sleep: its deadline, and the reading of the clock that its pass was made for. -/
structure Nap where
  reading : Nat
  deadline : Nat
  deriving DecidableEq, Repr

namespace Run

open Timetable

variable {σ : Type} {w h : Nat} {clock : Clock σ} {s : σ} {origin hz limit horizon : Nat}
  {a b r : Run σ w h} {ts : List (Started w h)}

/-! ## The sleeps of a run -/

/-- The sleeps between passes. -/
def loopNaps (clock : Clock σ) (limit : Option Nat) : (sleeps : Nat) → Run σ w h → List Nap
  | sleeps, r =>
    match clock.read? r.clock with
    | none => []
    | some now =>
      match r.pass clock limit now with
      | (.error _, _) => []
      | (.ok deadline, r) =>
        match sleeps with
        | 0 => []
        | sleeps + 1 =>
          ⟨now, deadline⟩ :: loopNaps clock limit sleeps ((r.sleepUntil clock deadline).lapse clock)

/-- The sleeps of a run, in their order. -/
def naps (clock : Clock σ) (sleeps : Nat) (r : Run σ w h) : List Nap :=
  if r.pacer.stopped then []
  else
    match clock.read? r.clock with
    | none => []
    | some now =>
      match r.pacer.begin now r.console with
      | (.error _, _, _) => []
      | (.ok limit, pacer, console) =>
        loopNaps clock limit sleeps (lapse clock { r with pacer := pacer, console := console })

/-- How a loop goes, with its sleeps, the ticks that it starts and what it comes to. -/
inductive Loops (clock : Clock σ) (limit : Option Nat) :
    Nat → Run σ w h → List Nap → List (Started w h) → Ending × Run σ w h → Prop where
  /-- The clock shows no span. -/
  | unreadable {sleeps : Nat} {r : Run σ w h} (hread : clock.read? r.clock = none) :
      Loops clock limit sleeps r [] [] (.overflow, r)
  /-- The pass ends the run. -/
  | ended {sleeps now : Nat} {r b : Run σ w h} {e : Ending}
      (hread : clock.read? r.clock = some now) (hpass : r.pass clock limit now = (.error e, b)) :
      Loops clock limit sleeps r [] (r.catchUpStarts clock (Pacer.capped limit now)) (e, b)
  /-- There is something to sleep for, and no sleep is granted. -/
  | unfinished {now deadline : Nat} {r b : Run σ w h} (hread : clock.read? r.clock = some now)
      (hpass : r.pass clock limit now = (.ok deadline, b)) :
      Loops clock limit 0 r [] (r.catchUpStarts clock (Pacer.capped limit now)) (.unfinished, b)
  /-- A sleep, and what comes after it. -/
  | sleep {sleeps now deadline : Nat} {r b : Run σ w h} {naps : List Nap}
      {ts : List (Started w h)} {out : Ending × Run σ w h}
      (hread : clock.read? r.clock = some now)
      (hpass : r.pass clock limit now = (.ok deadline, b))
      (hrest : Loops clock limit sleeps ((b.sleepUntil clock deadline).lapse clock) naps ts out) :
      Loops clock limit (sleeps + 1) r (⟨now, deadline⟩ :: naps)
        (r.catchUpStarts clock (Pacer.capped limit now) ++ ts) out

theorem loops (clock : Clock σ) (limit : Option Nat) (sleeps : Nat) (r : Run σ w h) :
    Loops clock limit sleeps r (r.loopNaps clock limit sleeps) (r.loopStarts clock limit sleeps)
      (loop clock limit sleeps r) := by
  induction sleeps generalizing r with
  | zero =>
      unfold loop loopNaps loopStarts
      cases hread : clock.read? r.clock with
      | none => exact .unreadable hread
      | some now =>
          rcases hpass : r.pass clock limit now with ⟨e | deadline, b⟩
          · simpa [hpass] using .ended hread hpass
          · simpa [hpass] using .unfinished hread hpass
  | succ sleeps ih =>
      unfold loop loopNaps loopStarts
      cases hread : clock.read? r.clock with
      | none => exact .unreadable hread
      | some now =>
          rcases hpass : r.pass clock limit now with ⟨e | deadline, b⟩
          · simpa [hpass] using .ended hread hpass
          · simpa [hpass] using .sleep hread hpass (ih _)

/-- A loop that has ended is not changed by more sleeps. -/
theorem Loops.loop_eq {limit : Option Nat} {sleeps more : Nat} {naps : List Nap}
    {out : Ending × Run σ w h} (hloop : Loops clock limit sleeps r naps ts out)
    (hended : out.1 ≠ .unfinished) (hmore : sleeps ≤ more) : loop clock limit more r = out := by
  induction hloop generalizing more with
  | unreadable hread =>
      unfold loop
      simp only [hread]
  | ended hread hpass =>
      unfold loop
      simp only [hread, hpass]
  | unfinished hread hpass => exact absurd rfl hended
  | @sleep sleeps now deadline r b naps ts out hread hpass hrest ih =>
      obtain ⟨more, rfl⟩ : ∃ n, more = n + 1 := ⟨more - 1, by omega⟩
      unfold loop
      simp only [hread, hpass]
      exact ih hended (Nat.le_of_succ_le_succ hmore)

/-! ## Passes -/

/-- Why a run within a span may not be able to go on: its deadlines are no spans, or there are
more instructions to be done than can be counted. -/
def OutOfReach (origin hz limit : Nat) : Prop :=
  Span.longest < origin + limit + Span.second + 1 ∨
    Cadence.maxTicks ≤ count hz limit .instruction

/-- What catching up within a span comes to, and with which ticks. -/
inductive CaughtWithin (origin hz limit horizon : Nat) (a : Run σ w h) (ts : List (Started w h)) :
    Caught σ w h → Prop where
  | ended {e : Ending} {b : Run σ w h} (hts : ts.length ≤ toGo hz limit a.pacer)
      (he : e ≠ .unfinished) (hreach : e = .overflow → OutOfReach origin hz limit) :
      CaughtWithin origin hz limit horizon a ts (.error e, b)
  | due {b : Run σ w h} (hb : b.pacer.Within origin hz limit)
      (hdue : horizon < origin + nextDue hz b.pacer)
      (hts : ts.length + toGo hz limit b.pacer = toGo hz limit a.pacer)
      (hidle : ts = [] → b.pacer = a.pacer) :
      CaughtWithin origin hz limit horizon a ts (.ok (origin + nextDue hz b.pacer), b)

/-- Every tick that catching up starts is one of those to go. -/
theorem catchUp_within (clock : Clock σ) (hshort : limit + Span.second + 1 < Nat.pow 2 64)
    (hhorizon : horizon ≤ origin + limit) (ha : a.pacer.Within origin hz limit) :
    CaughtWithin origin hz limit horizon a (a.catchUpStarts clock horizon)
      (a.catchUp clock horizon) := by
  refine catchUp_starts_induct
    (fun a ts b => a.pacer.Within origin hz limit → CaughtWithin origin hz limit horizon a ts b)
    (fun a b hb ha => ?_) (fun a r ts b hr ih ha => ?_) a ha
  · cases hb with
    | stopped hs =>
        rw [started?_eq_none (.inl hs)]
        exact .ended (Nat.zero_le _) (by simp) (by simp)
    | overflow hs hu =>
        rw [started?_eq_none (.inr fun tick due hsome => by simp [hu] at hsome)]
        exact .ended (Nat.zero_le _) (by simp) fun _ => .inl (ha.longest_lt hshort hu)
    | @caughtUp tick due hs hu hd =>
        have hlate : ∀ tick' due', a.pacer.upcoming? = some (tick', due') → horizon < due' :=
          fun tick' due' hsome => by
            rw [hu] at hsome
            cases hsome
            exact hd
        rw [started?_eq_none (.inr hlate)]
        rw [ha.due_eq hshort hu] at hd ⊢
        exact .due (b := a.lapse clock) ha hd (Nat.zero_add _) fun _ => rfl
    | failed hs hu hd hc =>
        rw [started?_eq_some hs hu hd]
        exact .ended (ha.toGo_pos hshort hu (Nat.le_trans hd hhorizon)) (by simp) (by simp)
    | uncounted hs hu hd hc hn =>
        have hd' := Nat.le_trans hd hhorizon
        rw [started?_eq_some hs hu hd]
        exact .ended (ha.toGo_pos hshort hu hd') (by simp) fun _ =>
          .inr (ha.uncounted hshort hu hd' hn)
  · cases hr with
    | @served tick due d q hs hu hd hc hq =>
        obtain ⟨hwithin, htoGo⟩ := ha.advance hshort hu (Nat.le_trans hd hhorizon) hq
        rw [started?_eq_some hs hu hd]
        cases ih hwithin with
        | ended hts he hreach =>
            refine .ended ?_ he hreach
            rw [← htoGo]
            exact Nat.succ_le_succ hts
        | @due b hb hdue hts hidle =>
            refine .due hb hdue ?_ (by simp)
            calc ts.length + 1 + toGo hz limit b.pacer = ts.length + toGo hz limit b.pacer + 1 :=
                  Nat.add_right_comm _ _ _
              _ = toGo hz limit q + 1 := congrArg (· + 1) hts
              _ = toGo hz limit a.pacer := htoGo

/-- What a pass within a span comes to: it ends the run, or it sleeps for something that is
later than its reading. -/
inductive PassedWithin (origin hz limit now : Nat) (a : Run σ w h) (ts : List (Started w h)) :
    Caught σ w h → Prop where
  | ended {e : Ending} {b : Run σ w h} (hts : ts.length ≤ toGo hz limit a.pacer)
      (he : e ≠ .unfinished) (hreach : e = .overflow → OutOfReach origin hz limit) :
      PassedWithin origin hz limit now a ts (.error e, b)
  | sleep {b : Run σ w h} (hb : b.pacer.Within origin hz limit) (hnow : now < origin + limit)
      (hdue : now < origin + nextDue hz b.pacer)
      (hts : ts.length + toGo hz limit b.pacer = toGo hz limit a.pacer)
      (hidle : ts = [] → b.pacer = a.pacer) :
      PassedWithin origin hz limit now a ts
        (.ok (min (origin + nextDue hz b.pacer) (origin + limit)), b)

theorem pass_within (clock : Clock σ) (hshort : limit + Span.second + 1 < Nat.pow 2 64) (now : Nat)
    (hr : r.pacer.Within origin hz limit) :
    PassedWithin origin hz limit now r
      (r.catchUpStarts clock (Pacer.capped (some (origin + limit)) now))
      (r.pass clock (some (origin + limit)) now) := by
  have hcaught := catchUp_within clock hshort (Nat.min_le_right now (origin + limit)) hr
  unfold pass
  simp only [Pacer.capped, Pacer.reached]
  generalize r.catchUpStarts clock (min now (origin + limit)) = ts at hcaught ⊢
  generalize r.catchUp clock (min now (origin + limit)) = out at hcaught
  cases hcaught with
  | ended hts he hreach => exact .ended hts he hreach
  | @due b hb hdue hts hidle =>
      by_cases hreached : origin + limit ≤ now
      · simp only [hreached, decide_true, if_true]
        exact .ended (by omega) (by simp) (by simp)
      · rw [Nat.min_eq_left (by omega)] at hdue
        simp only [hreached, decide_false, Bool.false_eq_true, if_false]
        exact .sleep hb (by omega) hdue hts hidle

/-! ## The clock of a run -/

/-- Catching up and a pass let the clock go on over lapses only. -/
theorem clock_catchUp {P : σ → Prop} (hlapse : ∀ t, P t → P (clock.lapse t).1) (horizon : Nat)
    (a : Run σ w h) (ha : P a.clock) : P (a.catchUp clock horizon).2.clock := by
  refine catchUp_induct (fun a b => P a.clock → P b.2.clock) (fun a b hb ha => ?_)
    (fun a r b hr ih ha => ?_) a ha
  · cases hb <;> exact hlapse _ ha
  · cases hr
    exact ih (hlapse _ ha)

theorem clock_pass {P : σ → Prop} (hlapse : ∀ t, P t → P (clock.lapse t).1) (limit : Option Nat)
    (now : Nat) (r : Run σ w h) (hr : P r.clock) : P (r.pass clock limit now).2.clock := by
  have hcaught := clock_catchUp hlapse (Pacer.capped limit now) r hr
  unfold pass
  rcases hout : r.catchUp clock (Pacer.capped limit now) with ⟨e | due, b⟩
  · rwa [hout] at hcaught
  · rw [hout] at hcaught
    cases hreached : Pacer.reached limit now <;> simpa [hreached, note] using hcaught

/-- The clock of a loop sleeps as the list of its sleeps says, and at no other time. -/
theorem Loops.course {limit : Option Nat} {sleeps : Nat} {naps : List Nap}
    {out : Ending × Run σ w h} (hloop : Loops clock limit sleeps r naps ts out)
    {deadlines : List Nat} (hr : clock.Course s deadlines r.clock) :
    clock.Course s (deadlines ++ naps.map Nap.deadline) out.2.clock := by
  induction hloop generalizing deadlines with
  | unreadable hread => simpa using hr
  | @ended sleeps now r b e hread hpass =>
      have hb := clock_pass (fun _ => .lapse) limit now r hr
      rw [hpass] at hb
      simpa using hb
  | @unfinished now deadline r b hread hpass =>
      have hb := clock_pass (fun _ => .lapse) limit now r hr
      rw [hpass] at hb
      simpa using hb
  | @sleep sleeps now deadline r b naps ts out hread hpass hrest ih =>
      have hb := clock_pass (fun _ => .lapse) limit now r hr
      rw [hpass] at hb
      have hcourse := ih (hb.sleep deadline).lapse
      rwa [List.append_assoc] at hcourse

/-! ## Loops -/

/-- What is known of the sleeps of a loop from a reading on and of the ticks that it starts. -/
structure Rested (origin hz limit sleeps now : Nat) (p : Pacer) (naps : List Nap)
    (ts : List (Started w h)) (e : Ending) : Prop where
  each : ∀ n ∈ naps, now ≤ n.reading ∧ n.reading < n.deadline ∧ n.deadline ≤ origin + limit
  apart : naps.Pairwise fun m n => m.deadline ≤ n.reading
  allowed : naps.length ≤ allowance origin hz limit now p
  starts : ts.length ≤ toGo hz limit p
  unfinished : e = .unfinished → sleeps < allowance origin hz limit now p
  reach : e = .overflow → OutOfReach origin hz limit

/-- A sleep before all that is known to come after it. -/
theorem Rested.cons {sleeps now later deadline : Nat} {p q : Pacer} {naps : List Nap}
    {ts us : List (Started w h)} {e : Ending} (hnext : now < deadline)
    (hdeadline : deadline ≤ origin + limit) (hlater : deadline ≤ later)
    (hts : ts.length + toGo hz limit q = toGo hz limit p)
    (hless : allowance origin hz limit later q < allowance origin hz limit now p)
    (hrest : Rested origin hz limit sleeps later q naps us e) :
    Rested origin hz limit (sleeps + 1) now p (⟨now, deadline⟩ :: naps) (ts ++ us) e where
  each n hn := by
    obtain rfl | hn := List.mem_cons.mp hn
    · exact ⟨Nat.le_refl _, hnext, hdeadline⟩
    · obtain ⟨hreading, hn⟩ := hrest.each n hn
      exact ⟨by omega, hn⟩
  apart := .cons (fun n hn => Nat.le_trans hlater (hrest.each n hn).1) hrest.apart
  allowed := Nat.le_trans (Nat.succ_le_succ hrest.allowed) hless
  starts := by
    have hstarts := hrest.starts
    rw [List.length_append]
    omega
  unfinished he := Nat.lt_of_le_of_lt (hrest.unfinished he) hless
  reach := hrest.reach

/-- A loop without a sleep, whose first pass ended the run or wants a sleep. -/
theorem Rested.nil {sleeps now : Nat} {p : Pacer} {ts : List (Started w h)} {e : Ending}
    (hts : ts.length ≤ toGo hz limit p)
    (hunfinished : e = .unfinished → sleeps < allowance origin hz limit now p)
    (hreach : e = .overflow → OutOfReach origin hz limit) :
    Rested origin hz limit sleeps now p [] ts e where
  each _ hn := absurd hn List.not_mem_nil
  apart := .nil
  allowed := Nat.zero_le _
  starts := hts
  unfinished := hunfinished
  reach := hreach

/-- Where as much is left as before, no tick was done. -/
theorem nextDue_eq (hts : ts.length + toGo hz limit b.pacer = toGo hz limit a.pacer)
    (hidle : ts = [] → b.pacer = a.pacer) (hsame : toGo hz limit b.pacer = toGo hz limit a.pacer) :
    nextDue hz b.pacer = nextDue hz a.pacer := by
  rw [hidle (List.eq_nil_of_length_eq_zero (by omega))]

theorem Loops.rested (hshort : limit + Span.second + 1 < Nat.pow 2 64)
    (hclock : clock.Onward (origin + limit) s) {sleeps : Nat} {naps : List Nap}
    {out : Ending × Run σ w h} (hloop : Loops clock (some (origin + limit)) sleeps r naps ts out)
    (hr : r.pacer.Within origin hz limit) (hreaches : clock.Reaches (origin + limit) s r.clock) :
    Rested origin hz limit sleeps (clock.now r.clock) r.pacer naps ts out.1 := by
  induction hloop with
  | unreadable hread =>
      rw [hclock.read? hreaches] at hread
      cases hread
  | @ended sleeps now r b e hread hpass =>
      have hcase := pass_within clock hshort now hr
      rw [hpass] at hcase
      cases hcase with
      | ended hts he hreach => exact .nil hts (fun h => absurd h he) hreach
  | @unfinished now deadline r b hread hpass =>
      have hcase := pass_within clock hshort now hr
      rw [hclock.read? hreaches] at hread
      cases hread
      rw [hpass] at hcase
      cases hcase with
      | sleep hb hnow hdue hts hidle =>
          have hless := allowance_lt hnow hdue (by omega) (nextDue_eq hts hidle) (Nat.le_refl _)
          exact .nil (by omega) (fun _ => Nat.zero_lt_of_lt hless) (by simp)
  | @sleep sleeps now deadline r b naps ts out hread hpass hrest ih =>
      have hcase := pass_within clock hshort now hr
      have hreached :=
        clock_pass (fun _ ht => ht.next .lapse) (some (origin + limit)) now r hreaches
      rw [hclock.read? hreaches] at hread
      cases hread
      rw [hpass] at hcase hreached
      cases hcase with
      | sleep hb hnow hdue hts hidle =>
          have hlast : min (origin + nextDue hz b.pacer) (origin + limit) ≤ origin + limit :=
            Nat.min_le_right _ _
          have hslept := hreached.next (.sleep hlast)
          have hlater := Nat.le_trans (hclock.awake hreached hlast) (hclock.forward hslept .lapse)
          exact (ih hb (hslept.next .lapse)).cons (Nat.lt_min.mpr ⟨hdue, hnow⟩) hlast hlater hts
            (allowance_lt hnow hdue (by omega) (nextDue_eq hts hidle) hlater)

/-! ## Whole runs -/

/-- How a run with a limit goes, with its sleeps, the ticks that it starts, its ending and the
clock then. -/
inductive Begun (clock : Clock σ) (s : σ) (hz limit sleeps : Nat) (c : Console w h) :
    List Nap → List (Started w h) → Ending → σ → Prop where
  /-- The limit is no span. -/
  | unlimited (hlong : Span.longest < clock.now s + limit) :
      Begun clock s hz limit sleeps c [] [] .overflow s
  /-- The first picture cannot be shown. -/
  | unshown (f : Fault) : Begun clock s hz limit sleeps c [] [] (.failed f) s
  | shown {d : Console w h} {naps : List Nap} {ts : List (Started w h)} {out : Ending × Run σ w h}
      (hloop : Loops clock (some (clock.now s + limit)) sleeps
        (lapse clock
          { pacer := (Pacer.ofRate hz (some limit)).restart (clock.now s),
            console := d, clock := s })
        naps ts out) :
      Begun clock s hz limit sleeps c naps ts out.1 out.2.clock

theorem begun (hread : clock.read? s = some (clock.now s)) (hz limit sleeps : Nat)
    (c : Console w h) :
    Begun clock s hz limit sleeps c ((fresh hz limit s c).naps clock sleeps)
      ((fresh hz limit s c).starts clock sleeps) (run clock sleeps (fresh hz limit s c)).1
      (run clock sleeps (fresh hz limit s c)).2.clock := by
  have hclock : (run clock sleeps (fresh hz limit s c)).2.clock =
      ((fresh hz limit s c).start clock sleeps).2.clock := by
    rw [run_eq_start clock sleeps rfl]
    dsimp only
    split <;> rfl
  rw [hclock, run_eq_start clock sleeps rfl]
  unfold naps starts Run.start
  rw [if_neg (by simp [fresh, Pacer.ofRate]), if_neg (by simp [fresh, Pacer.ofRate])]
  simp only [fresh, hread, Pacer.begin, Pacer.ofRate, Pacer.restart, Option.mapM_some,
    Option.map_eq_map]
  cases hlimit : Span.add? (clock.now s) limit with
  | none => exact .unlimited (by simpa [Span.add?] using hlimit)
  | some last =>
      obtain rfl : clock.now s + limit = last := by
        simpa using (Option.ite_none_right_eq_some.mp hlimit).2
      rcases hpresent : c.present with ⟨f | u, d⟩
      · exact .unshown f
      · exact .shown (loops clock _ sleeps _)

/-- A run that has ended is not changed by more sleeps. -/
theorem run_eq_of_le {sleeps more : Nat} (hnew : r.pacer.stopped = false)
    (hended : (run clock sleeps r).1 ≠ .unfinished) (hmore : sleeps ≤ more) :
    run clock more r = run clock sleeps r := by
  have hstart : r.start clock more = r.start clock sleeps := by
    have hended' : (r.start clock sleeps).1 ≠ .unfinished := by
      rwa [run_eq_start clock sleeps hnew] at hended
    unfold Run.start at hended' ⊢
    cases hread : clock.read? r.clock with
    | none => rfl
    | some now =>
        rcases hbegin : r.pacer.begin now r.console with ⟨e | limit, pacer, console⟩
        · simp only [hbegin]
        · simp only [hread, hbegin] at hended' ⊢
          exact (loops clock limit sleeps _).loop_eq hended' hmore
  rw [run_eq_start clock more hnew, run_eq_start clock sleeps hnew, hstart]

section Begun

variable {sleeps : Nat} {c : Console w h} {naps : List Nap} {e : Ending} {t : σ}
  (hbegun : Begun clock s hz limit sleeps c naps ts e t)

include hbegun

theorem Begun.course : clock.Course s (naps.map Nap.deadline) t := by
  cases hbegun with
  | unlimited | unshown => exact .here
  | shown hloop => exact hloop.course (.lapse .here)

/-- A whole run has the whole timetable to go. -/
theorem Begun.rested (hshort : limit + Span.second + 1 < Nat.pow 2 64)
    (hclock : clock.Onward (clock.now s + limit) s) :
    ∃ now p, toGo hz limit p = count hz limit .timer + count hz limit .instruction ∧
      Rested (clock.now s) hz limit sleeps now p naps ts e := by
  cases hbegun with
  | unlimited hlong =>
      refine ⟨clock.now s, (Pacer.ofRate hz (some limit)).restart (clock.now s), rfl,
        .nil (Nat.zero_le _) (by simp) fun _ => .inl ?_⟩
      exact Nat.lt_of_lt_of_le hlong (by omega)
  | unshown f =>
      exact ⟨clock.now s, (Pacer.ofRate hz (some limit)).restart (clock.now s), rfl,
        .nil (Nat.zero_le _) (by simp) (by simp)⟩
  | shown hloop =>
      have hwithin := Pacer.within_restart (clock.now s) hz limit
      exact ⟨_, _, rfl, hloop.rested hshort hclock hwithin (.next .here .lapse)⟩

end Begun

/-- **A run with a limit ends and never spins.** Take any program and any rate, and whatever others
do meanwhile; all that is asked of the clock is that it goes on.  A run that is granted a sleep for
every tick that is due within the span and one more ends, goes no other way if more are granted,
and comes back unless its deadlines are no spans or its instructions too many to be counted.
However many sleeps are granted, it starts no more ticks than are due and sleeps at most once
more; the clock sleeps just as the list of its sleeps says; and every one is until later than the
reading it was found out from, until the limit at the latest, and over before the next reading.
So no deadline is slept until twice. -/
theorem run_naps (hshort : limit + Span.second + 1 < Nat.pow 2 64)
    (hclock : clock.Onward (clock.now s + limit) s) (hz sleeps : Nat) (c : Console w h) :
    (count hz limit .timer + count hz limit .instruction < sleeps →
      (run clock sleeps (fresh hz limit s c)).1 ≠ .unfinished ∧
      (∀ more, sleeps ≤ more →
        run clock more (fresh hz limit s c) = run clock sleeps (fresh hz limit s c)) ∧
      (clock.now s + limit + Span.second + 1 ≤ Span.longest →
        count hz limit .instruction < Cadence.maxTicks →
        (run clock sleeps (fresh hz limit s c)).1.isBack = true)) ∧
    ((fresh hz limit s c).starts clock sleeps).length ≤
      count hz limit .timer + count hz limit .instruction ∧
    ((fresh hz limit s c).naps clock sleeps).length ≤
      count hz limit .timer + count hz limit .instruction + 1 ∧
    clock.Course s (((fresh hz limit s c).naps clock sleeps).map Nap.deadline)
      (run clock sleeps (fresh hz limit s c)).2.clock ∧
    (∀ n ∈ (fresh hz limit s c).naps clock sleeps,
      n.reading < n.deadline ∧ n.deadline ≤ clock.now s + limit) ∧
    ((fresh hz limit s c).naps clock sleeps).Pairwise fun m n =>
      m.deadline ≤ n.reading ∧ m.deadline < n.deadline := by
  have hbegun := begun (hclock.read? .here) hz limit sleeps c
  obtain ⟨now, p, htoGo, hrested⟩ := hbegun.rested hshort hclock
  have hallowed : allowance (clock.now s) hz limit now p ≤ toGo hz limit p + 1 := allowance_le now p
  rw [htoGo] at hallowed
  refine ⟨fun hsleeps => ?_, htoGo ▸ hrested.starts, Nat.le_trans hrested.allowed hallowed,
    hbegun.course, fun n hn => (hrested.each n hn).2, ?_⟩
  · have hfinished : (run clock sleeps (fresh hz limit s c)).1 ≠ .unfinished := fun he => by
      have hless := hrested.unfinished he
      omega
    refine ⟨hfinished, fun _ => run_eq_of_le rfl hfinished, fun hspan hcount => ?_⟩
    have hreach := hrested.reach
    generalize (run clock sleeps (fresh hz limit s c)).1 = e at hfinished hreach
    cases e with
    | stopped | failed => rfl
    | unfinished => exact absurd rfl hfinished
    | overflow =>
        obtain hlong | hmany := hreach rfl
        · omega
        · exact absurd hcount (Nat.not_lt.mpr hmany)
  · refine hrested.apart.imp_of_mem fun {m n} _ hn hmn => ⟨hmn, ?_⟩
    exact Nat.lt_of_le_of_lt hmn (hrested.each n hn).2.1

/-- A program that waits for a key. -/
def expectant : Console 8 4 := ((Console.initial 8 4 0).load { bytes := [0xF0, 0x0A] }).2

/-- No key ever comes, and at the nominal rate the run is over after four milliseconds and two
sleeps. -/
theorem run_naps_expectant :
    (run .punctual 3 (fresh 500 4000000 0 expectant)).1.isBack = true ∧
      (fresh 500 4000000 0 expectant).naps .punctual 3 = [⟨0, 2000000⟩, ⟨2000000, 4000000⟩] ∧
      ((fresh 500 4000000 0 expectant).starts .punctual 3).length ≤ 2 := by
  have hclock : Clock.punctual.Onward (0 + 4000000) 0 :=
    (Clock.steady_punctual (by decide) (by decide)).onward
  obtain ⟨hends, hstarts, -⟩ := run_naps (by decide) hclock 500 3 expectant
  exact ⟨(hends (by decide)).2.2 (by decide) (by decide), by decide +kernel,
    Nat.le_trans hstarts (by decide)⟩

end Run

end Chip8Vm
