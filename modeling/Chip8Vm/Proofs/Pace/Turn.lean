import Chip8Vm.Proofs.Console.Step

/-!
# Chip8Vm.Proofs.Pace.Turn

What a turn of catching up can do, and what a whole run keeps.

`TurnCase` lists the ways a turn can go, with the conditions under which it goes
so; `catchUp_induct` is how properties of catching up are proved from them.  The
first consequence is `upheld_run`: what the first picture makes true and no tick that
succeeds takes away is true at the end of every run that stops in good order, on any
clock.  What nothing at all takes away holds however the run ends (`keeps_run`).
-/

namespace Chip8Vm.Run

variable {σ : Type} {w h : Nat} {clock : Clock σ} {horizon : Nat}

/-! ## Turns by cases -/

/-- The ways a turn can go: it ends the catching up, or it leaves a run to go on
from. -/
inductive TurnCase (clock : Clock σ) (horizon : Nat) (a : Run σ w h) :
    Caught σ w h ⊕ Run σ w h → Prop where
  /-- The stop signal is raised. -/
  | stopped (hs : (a.lapse clock).console.isStopped = true) :
      TurnCase clock horizon a (.inl (.error .stopped, (a.lapse clock).note [.stopRequested]))
  /-- The next deadline is no span. -/
  | overflow (hs : (a.lapse clock).console.isStopped = false)
      (hu : a.pacer.upcoming? = none) :
      TurnCase clock horizon a (.inl (.error .overflow, a.lapse clock))
  /-- Nothing more is due by the horizon. -/
  | caughtUp {tick : Tick} {due : Nat} (hs : (a.lapse clock).console.isStopped = false)
      (hu : a.pacer.upcoming? = some (tick, due)) (hd : horizon < due) :
      TurnCase clock horizon a (.inl (.ok due, a.lapse clock))
  /-- The tick that is due fails. -/
  | failed {tick : Tick} {due : Nat} {f : Fault} {c : Console w h}
      (hs : (a.lapse clock).console.isStopped = false)
      (hu : a.pacer.upcoming? = some (tick, due)) (hd : due ≤ horizon)
      (hc : (a.lapse clock).console.serve tick = (.error f, c)) :
      TurnCase clock horizon a (.inl (.error (.failed f), { a.lapse clock with console := c }))
  /-- The tick that was carried out cannot be counted. -/
  | uncounted {tick : Tick} {due : Nat} {c : Console w h}
      (hs : (a.lapse clock).console.isStopped = false)
      (hu : a.pacer.upcoming? = some (tick, due)) (hd : due ≤ horizon)
      (hc : (a.lapse clock).console.serve tick = (.ok (), c))
      (ha : a.pacer.advance? tick = none) :
      TurnCase clock horizon a (.inl (.error .overflow, { a.lapse clock with console := c }))
  /-- The tick that is due is carried out and counted. -/
  | served {tick : Tick} {due : Nat} {c : Console w h} {q : Pacer}
      (hs : (a.lapse clock).console.isStopped = false)
      (hu : a.pacer.upcoming? = some (tick, due)) (hd : due ≤ horizon)
      (hc : (a.lapse clock).console.serve tick = (.ok (), c))
      (ha : a.pacer.advance? tick = some q) :
      TurnCase clock horizon a (.inr { a.lapse clock with pacer := q, console := c })

theorem turnCase (clock : Clock σ) (horizon : Nat) (a : Run σ w h) :
    TurnCase clock horizon a ((turn clock horizon a).map id Subtype.val) := by
  unfold turn
  by_cases hs : (a.lapse clock).console.isStopped = true
  · simp only [hs, if_true, Sum.map_inl, id]
    exact .stopped hs
  · simp only [Bool.not_eq_true] at hs
    simp only [hs, Bool.false_eq_true, if_false]
    split
    · next hu => exact .overflow hs hu
    · next tick due hu =>
        split
        · next hd => exact .caughtUp hs hu hd
        · next hd =>
            have hd := Nat.le_of_not_lt hd
            split
            · next f c hc => exact .failed hs hu hd hc
            · next c hc =>
                split
                · next ha => exact .uncounted hs hu hd hc ha
                · next q ha => exact .served hs hu hd hc ha

/-- What holds of a run and what ends its catching up, and passes from a run to the
one a turn before, holds of every catching up. -/
theorem catchUp_induct (P : Run σ w h → Caught σ w h → Prop)
    (done : ∀ a b, TurnCase clock horizon a (.inl b) → P a b)
    (more : ∀ a r b, TurnCase clock horizon a (.inr r) → P r b → P a b) (a : Run σ w h) :
    P a (a.catchUp clock horizon) := by
  refine repeatUntil_induct _ (turn clock horizon) P (fun a b hb => ?_) (fun a r b hr hP => ?_) a
  · have hcase := turnCase clock horizon a
    rw [hb] at hcase
    exact done a b hcase
  · have hcase := turnCase clock horizon a
    rw [hr] at hcase
    exact more a r.val b hcase hP

/-! ## What a run keeps -/

/-- The one property lasts as long as a run goes well, and the other is what is left of it when
a run ends in any other way. -/
structure Lasting (Q F : Console w h → Prop) : Prop where
  weaken : ∀ {c}, Q c → F c
  served : ∀ {c d tick}, Q c → c.serve tick = (.ok (), d) → Q d
  failed : ∀ {c d tick f}, Q c → c.serve tick = (.error f, d) → F d
  happen : ∀ {c} e, Q c → Q (c.happen e)
  note : ∀ {c} n, Q c → Q (c.note n)
  noteFailed : ∀ {c} n, F c → F (c.note n)

/-- What nothing takes away lasts in any case. -/
theorem Lasting.of_stable {Q : Console w h → Prop} (hQ : Console.Stable Q) : Lasting Q Q where
  weaken := id
  served {c d tick} hc hd := by simpa [hd] using hQ.serve c tick hc
  failed {c d tick f} hc hd := by simpa [hd] using hQ.serve c tick hc
  happen {c} e hc := hQ.happen c e hc
  note {c} n hc := hQ.note c n hc
  noteFailed {c} n hc := hQ.note c n hc

/-- What is said of the console that a run leaves: the one property if it stopped in good
order. -/
@[simp] def Upheld (Q F : Console w h → Prop) : Ending → Console w h → Prop
  | .stopped => Q
  | _ => F

/-- The same of catching up, which goes on or ends the run. -/
@[simp] def Caught.Upheld (Q F : Console w h → Prop) : Caught σ w h → Prop
  | (.error e, r) => Run.Upheld Q F e r.console
  | (.ok _, r) => Q r.console

variable {Q F : Console w h → Prop}

theorem Lasting.upheld (hQ : Lasting Q F) (e : Ending) {c : Console w h} (hc : Q c) :
    Upheld Q F e c := by
  cases e with
  | stopped => exact hc
  | _ => exact hQ.weaken hc

theorem Lasting.upheld_note (hQ : Lasting Q F) {e : Ending} {c : Console w h}
    (hc : Upheld Q F e c) (n : List Note) : Upheld Q F e (c.note n) := by
  cases e with
  | stopped => exact hQ.note n hc
  | _ => exact hQ.noteFailed n hc

/-- Whatever others do is kept. -/
theorem keeps_elapse (hQ : Lasting Q F) (r : Run σ w h) (meanwhile : σ × List Happening)
    (hr : Q r.console) : Q (r.elapse meanwhile).console := by
  obtain ⟨s, happenings⟩ := meanwhile
  show Q (happenings.foldl Console.happen r.console)
  exact List.foldlRecOn happenings Console.happen hr fun c hc e _ => hQ.happen e hc

theorem keeps_lapse (hQ : Lasting Q F) (clock : Clock σ) (r : Run σ w h) (hr : Q r.console) :
    Q (r.lapse clock).console :=
  keeps_elapse hQ r _ hr

/-- A turn upholds it in either way. -/
theorem upheld_turn (hQ : Lasting Q F) {a : Run σ w h} {b : Caught σ w h ⊕ Run σ w h}
    (hb : TurnCase clock horizon a b) (ha : Q a.console) :
    b.elim (Caught.Upheld Q F) fun r => Q r.console := by
  have hlapse := keeps_lapse hQ clock a ha
  cases hb with
  | stopped hs => exact hQ.note _ hlapse
  | overflow hs hu => exact hQ.weaken hlapse
  | caughtUp hs hu hd => exact hlapse
  | failed hs hu hd hc => exact hQ.failed hlapse hc
  | uncounted hs hu hd hc hn => exact hQ.weaken (hQ.served hlapse hc)
  | served hs hu hd hc hq => exact hQ.served hlapse hc

theorem upheld_catchUp (hQ : Lasting Q F) (a : Run σ w h) (ha : Q a.console) :
    Caught.Upheld Q F (a.catchUp clock horizon) := by
  refine catchUp_induct (fun a b => Q a.console → Caught.Upheld Q F b) (fun a b hb ha => ?_)
    (fun a r b hr ih ha => ?_) a ha
  · exact upheld_turn hQ hb ha
  · exact ih (upheld_turn hQ hr ha)

theorem upheld_pass (hQ : Lasting Q F) (limit : Option Nat) (now : Nat) (r : Run σ w h)
    (hr : Q r.console) : Caught.Upheld Q F (r.pass clock limit now) := by
  have hcaught : Caught.Upheld Q F (r.catchUp clock (Pacer.capped limit now)) :=
    upheld_catchUp hQ r hr
  unfold pass
  rcases hcase : r.catchUp clock (Pacer.capped limit now) with ⟨e | due, r'⟩
  · rwa [hcase] at hcaught
  · rw [hcase] at hcaught
    cases hreached : Pacer.reached limit now
    · simpa [hreached] using hcaught
    · simpa [hreached, note] using hQ.note [.limitReached] hcaught

theorem upheld_loop (hQ : Lasting Q F) (limit : Option Nat) (sleeps : Nat) (r : Run σ w h)
    (hr : Q r.console) :
    Upheld Q F (loop clock limit sleeps r).1 (loop clock limit sleeps r).2.console := by
  induction sleeps generalizing r with
  | zero =>
      unfold loop
      cases clock.read? r.clock with
      | none => exact hQ.weaken hr
      | some now =>
          have hpass : Caught.Upheld Q F (r.pass clock limit now) := upheld_pass hQ limit now r hr
          rcases hcase : r.pass clock limit now with ⟨e | due, r'⟩
          · simpa [hcase] using hpass
          · rw [hcase] at hpass
            simpa [hcase] using hQ.upheld .unfinished hpass
  | succ sleeps ih =>
      unfold loop
      cases clock.read? r.clock with
      | none => exact hQ.weaken hr
      | some now =>
          have hpass : Caught.Upheld Q F (r.pass clock limit now) := upheld_pass hQ limit now r hr
          rcases hcase : r.pass clock limit now with ⟨e | due, r'⟩
          · simpa [hcase] using hpass
          · rw [hcase] at hpass
            have hnext := keeps_lapse hQ clock _
              (keeps_elapse hQ r' (clock.sleepUntil due r'.clock) hpass)
            simpa [hcase] using ih ((r'.sleepUntil clock due).lapse clock) hnext

/-- A run that shows the first picture and goes on well from there upholds what lasts. -/
theorem upheld_run (hQ : Lasting Q F) (clock : Clock σ) (sleeps : Nat) (r : Run σ w h)
    (hr : F r.console) (hstopped : r.pacer.stopped = true → Q r.console)
    (hshown : ∀ c, r.console.present = (.ok (), c) → Q c)
    (hfailed : ∀ f c, r.console.present = (.error f, c) → F c) :
    Upheld Q F (run clock sleeps r).1 (run clock sleeps r).2.console := by
  have hstart : Upheld Q F (start clock sleeps r).1 (start clock sleeps r).2.console := by
    unfold start
    cases clock.read? r.clock with
    | none => exact hr
    | some now =>
        unfold Pacer.begin
        cases hlimit : (r.pacer.restart now).limit.mapM (Span.add? now) with
        | none => simpa [hlimit] using hr
        | some limit =>
            rcases hcase : r.console.present with ⟨f | u, c⟩
            · simpa [hlimit, hcase] using hfailed f c hcase
            · simpa [hlimit, hcase] using
                upheld_loop hQ limit sleeps _ (keeps_lapse hQ clock _ (hshown c hcase))
  unfold run
  split
  · next hpacer => exact hstopped hpacer
  · split
    · next hcase => simpa [hcase] using hstart
    · next hcase => simpa [hcase] using hstart
    · next hcase =>
        rw [hcase] at hstart
        exact hQ.upheld_note hstart _

/-- What no tick, no happening and no note takes away holds at the end of a run. -/
theorem keeps_run (hQ : Console.Stable Q) (clock : Clock σ) (sleeps : Nat) (r : Run σ w h)
    (hr : Q r.console) : Q (run clock sleeps r).2.console := by
  have hpresent := hQ.present _ hr
  have hrun := upheld_run (.of_stable hQ) clock sleeps r hr (fun _ => hr)
    (fun c hc => by rwa [hc] at hpresent) (fun f c hc => by rwa [hc] at hpresent)
  generalize (run clock sleeps r).1 = e at hrun
  cases e <;> exact hrun

end Chip8Vm.Run
