import Chip8Vm.Proofs.Console.InTune
import Chip8Vm.Proofs.Pace.Turn
import Chip8Vm.Proofs.Pace.Within

/-!
# Chip8Vm.Proofs.Pace.Starts

The ticks that a run starts.

`Run.starts` is the list of all ticks that a run starts, in their order and each with the
console that it was started on; how a tick went is a function of these two.  What such a list
says of the counters is `Tally.after`: ticks are counted if they succeed, and an instruction
if it was carried out.

* `Leads` — how such a list leads from one console to another;
* `catchUp_starts_induct` — how properties of catching up and of its ticks are proved;
* `countP_succeeds_eq` — a step that succeeds carries out an instruction or is idle.
-/

namespace Chip8Vm

/-- Was an instruction carried out, rather than a key waited for or taken? -/
def Outcome.isExecuted : Outcome → Bool
  | executed _ => true
  | _ => false

/-- A tick that was started, and the console that it was started on. -/
structure Started (w h : Nat) where
  tick : Tick
  console : Console w h

namespace Started

variable {w h : Nat}

/-- How the tick went. -/
def answer (t : Started w h) : Except Fault Unit := (t.console.serve t.tick).1

/-- Is it a tick of that kind that succeeded? -/
def succeeds (kind : Tick) (t : Started w h) : Bool := t.tick == kind && t.answer.isOk

/-- What the step did, if the tick is a step and it did not fail. -/
def outcome? (t : Started w h) : Option Outcome :=
  match t.tick with
  | .timer => none
  | .instruction => t.console.step.1.toOption

/-- Is it a step that carried out an instruction? -/
def executes (t : Started w h) : Bool := t.outcome?.any Outcome.isExecuted

/-- Is it a step that found the machine waiting for a key, or that ended the wait? -/
def idles (t : Started w h) : Bool := t.outcome?.any fun o => !o.isExecuted

end Started

/-! ## Instructions carried out -/

namespace Console

variable {w h : Nat}

@[simp] theorem executed_perform (c : Console w h) (e : Effect) :
    (c.perform e).2.executed = c.executed := by
  cases e with
  | nothing => rfl
  | present => rfl
  | tone => exact executed_syncTone c

theorem executed_happenings (happenings : List Happening) (c : Console w h) :
    (happenings.foldl happen c).executed = c.executed := by
  refine List.foldlRecOn (motive := fun d : Console w h => d.executed = c.executed) happenings
    happen rfl fun d hd e _ => ?_
  cases e <;> exact hd

/-- An instruction that is carried out is counted, and nothing else that a tick does. -/
theorem executed_serve (t : Started w h) :
    (t.console.serve t.tick).2.executed = t.console.executed + t.executes.toNat := by
  obtain ⟨tick, c⟩ := t
  cases tick with
  | timer => exact executed_syncTone _
  | instruction =>
      simp only [serve_instruction_snd, Started.executes, Started.outcome?]
      generalize hout : c.step = out
      have hcase := hout ▸ c.stepCase
      cases hcase with
      | fault hf => rfl
      | @refused o e f d hr hd =>
          have hperform := executed_perform c.stepped e
          rw [hd] at hperform
          exact hperform
      | @done o e d hr hd =>
          have hperform := executed_perform c.stepped e
          rw [hd] at hperform
          cases o with
          | executed i => exact congrArg Nat.succ hperform
          | waiting => exact hperform
          | resumed k => exact hperform

end Console

namespace Started

variable {w h : Nat}

theorem executes_of_error {t : Started w h} {f : Fault} (ht : t.answer = .error f) :
    t.executes = false := by
  obtain ⟨tick, c⟩ := t
  cases tick with
  | timer => rfl
  | instruction =>
      simp only [answer, Console.serve] at ht
      simp only [executes, outcome?]
      rcases hstep : c.step with ⟨g | o, d⟩
      · rfl
      · rw [hstep] at ht
        exact nomatch ht

/-- A step that succeeds carries out an instruction or is idle. -/
theorem succeeds_eq (t : Started w h) :
    (t.succeeds .instruction).toNat = t.executes.toNat + t.idles.toNat := by
  obtain ⟨tick, c⟩ := t
  cases tick with
  | timer => rfl
  | instruction =>
      simp only [succeeds, answer, Console.serve, executes, idles, outcome?]
      rcases hstep : c.step with ⟨f | o, d⟩
      · rfl
      · cases o <;> rfl

theorem countP_succeeds_eq (ts : List (Started w h)) :
    ts.countP (succeeds .instruction) = ts.countP executes + ts.countP idles := by
  induction ts with
  | nil => rfl
  | cons t ts ih =>
      have ht := t.succeeds_eq
      simp only [List.countP_cons, ih]
      cases hs : t.succeeds .instruction <;> cases he : t.executes <;> cases hi : t.idles <;>
        simp_all <;> omega

end Started

/-! ## Ticks that follow each other -/

/-- These ticks lead from one console to another, and between them others did what they did. -/
inductive Leads {w h : Nat} : Console w h → List (Started w h) → Console w h → Prop where
  | nil (c : Console w h) : Leads c [] c
  | happen {c d : Console w h} {ts : List (Started w h)} (e : Happening) (hts : Leads c ts d) :
      Leads c ts (d.happen e)
  | note {c d : Console w h} {ts : List (Started w h)} (notes : List Note) (hts : Leads c ts d) :
      Leads c ts (d.note notes)
  | serve {c d : Console w h} {ts : List (Started w h)} (tick : Tick) (hts : Leads c ts d) :
      Leads c (ts ++ [⟨tick, d⟩]) (d.serve tick).2

namespace Leads

variable {w h : Nat} {c d : Console w h} {ts us : List (Started w h)}

theorem trans {b : Console w h} (hts : Leads b ts c) (hus : Leads c us d) :
    Leads b (ts ++ us) d := by
  induction hus with
  | nil => simpa using hts
  | happen e _ ih => exact ih.happen e
  | note notes _ ih => exact ih.note notes
  | serve tick _ ih => exact List.append_assoc .. ▸ ih.serve tick

theorem of_serve {tick : Tick} {answer : Except Fault Unit} (hc : c.serve tick = (answer, d)) :
    Leads c [⟨tick, c⟩] d := by
  have hserve := (Leads.nil c).serve tick
  rwa [hc] at hserve

theorem happenings (hts : Leads c ts d) (happenings : List Happening) :
    Leads c ts (happenings.foldl Console.happen d) :=
  List.foldlRecOn (motive := Leads c ts) happenings _ hts fun _ hd e _ => hd.happen e

end Leads

/-! ## Counting -/

/-- How much a run has counted: ticks of either kind, and instructions carried out. -/
structure Tally where
  timers : Nat
  instructions : Nat
  executed : Nat

/-- The same after some more ticks. -/
def Tally.after {w h : Nat} (n : Tally) (ts : List (Started w h)) : Tally where
  timers := n.timers + ts.countP (Started.succeeds .timer)
  instructions := n.instructions + ts.countP (Started.succeeds .instruction)
  executed := n.executed + ts.countP Started.executes

theorem Tally.after_append {w h : Nat} (n : Tally) (ts us : List (Started w h)) :
    n.after (ts ++ us) = (n.after ts).after us := by
  simp only [after, List.countP_append, Nat.add_assoc]

namespace Run

variable {σ : Type} {w h : Nat} {clock : Clock σ} {horizon : Nat}

def tally (r : Run σ w h) : Tally where
  timers := r.pacer.timers.ticks
  instructions := r.pacer.instructions.ticks
  executed := r.console.executed

/-! ## The ticks of a run -/

/-- The tick that a turn of catching up starts, unless it starts none. -/
def started? (clock : Clock σ) (horizon : Nat) (a : Run σ w h) : Option (Started w h) :=
  if (a.lapse clock).console.isStopped then none
  else
    match a.pacer.upcoming? with
    | none => none
    | some (tick, due) => if due > horizon then none else some ⟨tick, (a.lapse clock).console⟩

/-- The ticks that catching up starts. -/
def catchUpStarts (clock : Clock σ) (horizon : Nat) (a : Run σ w h) : List (Started w h) :=
  (a.started? clock horizon).toList ++
    match turn clock horizon a with
    | .inl _ => []
    | .inr next => catchUpStarts clock horizon next.val
termination_by a.pacer.remaining
decreasing_by exact next.property

/-- The ticks that are started in passes with sleeps between them. -/
def loopStarts (clock : Clock σ) (limit : Option Nat) :
    (sleeps : Nat) → Run σ w h → List (Started w h)
  | sleeps, r =>
    match clock.read? r.clock with
    | none => []
    | some now =>
      r.catchUpStarts clock (Pacer.capped limit now) ++
        match r.pass clock limit now with
        | (.error _, _) => []
        | (.ok deadline, r) =>
          match sleeps with
          | 0 => []
          | sleeps + 1 =>
            loopStarts clock limit sleeps ((r.sleepUntil clock deadline).lapse clock)

/-- The ticks that a run starts, in their order. -/
def starts (clock : Clock σ) (sleeps : Nat) (r : Run σ w h) : List (Started w h) :=
  if r.pacer.stopped then []
  else
    match clock.read? r.clock with
    | none => []
    | some now =>
      match r.pacer.begin now r.console with
      | (.error _, _, _) => []
      | (.ok limit, pacer, console) =>
        loopStarts clock limit sleeps (lapse clock { r with pacer := pacer, console := console })

/-- The tick that is due by the horizon is started unless the stop signal is raised. -/
theorem started?_eq_some {a : Run σ w h} {tick : Tick} {due : Nat}
    (hs : (a.lapse clock).console.isStopped = false) (hu : a.pacer.upcoming? = some (tick, due))
    (hd : due ≤ horizon) : a.started? clock horizon = some ⟨tick, (a.lapse clock).console⟩ := by
  simp [started?, hs, hu, Nat.not_lt.mpr hd]

theorem started?_eq_none {a : Run σ w h} (hnone : (a.lapse clock).console.isStopped = true ∨
      ∀ tick due, a.pacer.upcoming? = some (tick, due) → horizon < due) :
    a.started? clock horizon = none := by
  unfold started?
  obtain hs | hlate := hnone
  · rw [if_pos hs]
  · split
    · rfl
    · split
      · rfl
      · next hu => rw [if_pos (hlate _ _ hu)]

/-- What holds of a run, the tick that its last turn starts and what ends its catching up, and
passes from a run to the one a turn before, holds of every catching up and all its ticks. -/
theorem catchUp_starts_induct (P : Run σ w h → List (Started w h) → Caught σ w h → Prop)
    (done : ∀ a b, TurnCase clock horizon a (.inl b) →
      P a (a.started? clock horizon).toList b)
    (more : ∀ a r ts b, TurnCase clock horizon a (.inr r) → P r ts b →
      P a ((a.started? clock horizon).toList ++ ts) b) (a : Run σ w h) :
    P a (a.catchUpStarts clock horizon) (a.catchUp clock horizon) := by
  refine repeatUntil_induct _ (turn clock horizon)
    (fun a b => P a (a.catchUpStarts clock horizon) b)
    (fun a b hb => ?_) (fun a r b hr hP => ?_) a
  · have hcase := turnCase clock horizon a
    rw [hb] at hcase
    rw [catchUpStarts, hb, List.append_nil]
    exact done a b hcase
  · have hcase := turnCase clock horizon a
    rw [hr] at hcase
    rw [catchUpStarts, hr]
    exact more a r.val _ b hcase hP

end Run

end Chip8Vm
