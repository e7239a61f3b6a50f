import Mathlib.Data.List.DropRight
import Mathlib.Data.List.Induction
import Chip8Vm.Proofs.HexPad.History
import Chip8Vm.Terminal.KeyFeed

/-!
# Chip8Vm.Proofs.Terminal.Held

What a feed holds, told by its history.

The polls of a feed are taken apart into `Moment`s: an input is handled, or a poll ends that was
not asked to quit.  Keystrokes enter a key into the table and only the ends of polls take it
out, so what the table holds is told by the last keystroke for each key and by the polls that
have ended since (`mem_held_after`).

* `polls_eq` — polls do what their moments do, one after the other;
* `handle_of_key`, `handle_of_no_key` — what an input does;
* `holds_after_iff` — which keys are held.
-/

namespace Chip8Vm.Terminal

/-- One thing that a feed does in its polls. -/
inductive Moment where
  | input (time : Nat) (i : Input)
  /-- A poll ends, and the keys whose time is over are released. -/
  | finish (time : Nat)
  deriving DecidableEq, Repr

/-- A poll: the inputs that are there to be handled, with the times at which they are, and when
it ends. -/
structure Poll where
  inputs : List (Nat × Input)
  finish : Nat
  deriving DecidableEq, Repr

/-- The inputs that are handled: those before the first that asks to quit. -/
def handled (inputs : List (Nat × Input)) : List Moment :=
  (inputs.takeWhile fun e => !KeyFeed.isQuit e.2).map fun e => .input e.1 e.2

/-- Does one of the inputs ask to quit? -/
def asksToQuit (inputs : List (Nat × Input)) : Bool := inputs.any fun e => KeyFeed.isQuit e.2

/-- What is done in a poll.  One that is not asked to quit ends by releasing keys. -/
def Poll.moments (p : Poll) : List Moment :=
  handled p.inputs ++ if asksToQuit p.inputs then [] else [.finish p.finish]

namespace KeyFeed

variable {f : KeyFeed} {layout : Layout} {k : PadKey} {time : Nat} {i : Input}

/-! ## Moments -/

def initial (layout : Layout) : KeyFeed := { layout := layout }

/-- The feed after a moment, and what it made happen. -/
def live (f : KeyFeed) : Moment → KeyFeed × List Happening
  | .input time i => f.handle time i
  | .finish time => f.expire time

/-- The feed after some moments. -/
def after (f : KeyFeed) (moments : List Moment) : KeyFeed :=
  moments.foldl (fun f m => (f.live m).1) f

/-- What some moments make happen, in order. -/
def told (f : KeyFeed) : List Moment → List Happening
  | [] => []
  | m :: rest => (f.live m).2 ++ (f.live m).1.told rest

/-- Poll after poll: the feed then, and what happened. -/
def polls (f : KeyFeed) : List Poll → KeyFeed × List Happening
  | [] => (f, [])
  | p :: rest =>
    let (_, next, happenings, _) := f.poll p.inputs p.finish
    let (last, others) := next.polls rest
    (last, happenings ++ others)

theorem after_append (f : KeyFeed) (before later : List Moment) :
    f.after (before ++ later) = (f.after before).after later :=
  List.foldl_append

theorem told_append (f : KeyFeed) (before later : List Moment) :
    f.told (before ++ later) = f.told before ++ (f.after before).told later := by
  induction before generalizing f with
  | nil => rfl
  | cons m rest ih =>
      rw [List.cons_append, told, told, ih, List.append_assoc]
      rfl

/-- The inputs that are handled are those up to one that asks to quit; what comes after it is
left over. -/
theorem drain_eq (f : KeyFeed) (inputs : List (Nat × Input)) :
    f.drain inputs = (if asksToQuit inputs then .quit else .goOn, f.after (handled inputs),
      f.told (handled inputs), (inputs.dropWhile fun e => !isQuit e.2).drop 1) := by
  induction inputs generalizing f with
  | nil => rfl
  | cons e rest ih =>
      obtain ⟨time, i⟩ := e
      unfold drain
      cases hquit : isQuit i with
      | true => simp [asksToQuit, handled, hquit, after, told]
      | false =>
          have hasks : asksToQuit ((time, i) :: rest) = asksToQuit rest := by
            simp [asksToQuit, hquit]
          have hhandled : handled ((time, i) :: rest) = .input time i :: handled rest := by
            simp [handled, hquit]
          simp only [Bool.false_eq_true, if_false, ih, hasks, hhandled]
          simp [hquit, after, told, live]

/-- A poll does what its moments do. -/
theorem poll_eq (f : KeyFeed) (p : Poll) :
    f.poll p.inputs p.finish = (if asksToQuit p.inputs then .quit else .goOn, f.after p.moments,
      f.told p.moments, (p.inputs.dropWhile fun e => !isQuit e.2).drop 1) := by
  simp only [poll, drain_eq, Poll.moments]
  cases asksToQuit p.inputs with
  | true => simp
  | false => simp [told_append, after, told, live]

theorem polls_eq (f : KeyFeed) (ps : List Poll) :
    f.polls ps = (f.after (ps.flatMap Poll.moments), f.told (ps.flatMap Poll.moments)) := by
  induction ps generalizing f with
  | nil => rfl
  | cons p rest ih =>
      rw [polls, poll_eq, List.flatMap_cons, after_append, told_append]
      simp only [ih]

end KeyFeed

/-! ## What a moment does -/

/-- The input of a character without a modifier. -/
def Input.ofChar (c : Char) : Input := .stroke ⟨.char c, false, false⟩

/-- The character that is typed, if the input is one. -/
def Input.typed? : Input → Option Char
  | .stroke ⟨.char c, _, _⟩ => some c
  | _ => none

/-- The key of the pad that an input is a keystroke for. -/
def Input.key? (layout : Layout) (i : Input) : Option PadKey := i.typed?.bind layout.typedKey?

namespace KeyFeed

/-- A keystroke for a key renews its time, and presses it unless it is held. -/
theorem handle_of_key (f : KeyFeed) (time : Nat) (hk : i.key? f.layout = some k) :
    f.handle time i = (f.renew k time, if f.holds k then [] else [event k true]) := by
  unfold Input.key? Input.typed? at hk
  split at hk
  · next c ctrl alt =>
    have hc : f.layout.typedKey? c = some k := hk
    simp only [handle, type, hc]
  · cases hk

/-- Any other input leaves the feed as it is. -/
theorem handle_of_no_key (f : KeyFeed) (time : Nat) (hk : i.key? f.layout = none) :
    (f.handle time i).1 = f := by
  unfold Input.key? Input.typed? at hk
  split at hk
  · next c ctrl alt =>
    have hc : f.layout.typedKey? c = none := hk
    simp only [handle, type, hc]
  · next hchar =>
    unfold handle
    split
    · rfl
    · next s =>
      split
      · next c hs =>
        obtain ⟨key, ctrl, alt⟩ := s
        cases hs
        exact absurd rfl (hchar c ctrl alt)
      · rfl

@[simp] theorem layout_live (f : KeyFeed) (m : Moment) : (f.live m).1.layout = f.layout := by
  cases m with
  | input time i =>
      cases hk : i.key? f.layout with
      | none => rw [live, handle_of_no_key f time hk]
      | some k =>
          rw [live, handle_of_key f time hk]
          rfl
  | finish time => rfl

@[simp] theorem layout_after (f : KeyFeed) (moments : List Moment) :
    (f.after moments).layout = f.layout := by
  induction moments generalizing f with
  | nil => rfl
  | cons m rest ih => exact (ih _).trans (layout_live f m)

end KeyFeed

/-! ## What the table holds -/

/-- The time of a keystroke for the key, if that is what is handled. -/
def Moment.stroke? (layout : Layout) (k : PadKey) : Moment → Option Nat
  | input time i => if i.key? layout = some k then some time else none
  | finish _ => none

theorem Moment.stroke?_eq_some {layout : Layout} {k : PadKey} {m : Moment} {time : Nat}
    (hm : m.stroke? layout k = some time) :
    ∃ i : Input, i.key? layout = some k ∧ m = .input time i := by
  cases m with
  | input t i =>
      obtain ⟨hk, ht⟩ := Option.ite_none_right_eq_some.mp hm
      cases ht
      exact ⟨i, hk, rfl⟩
  | finish t => cases hm

/-- When a keystroke for the key was last handled. -/
def lastStroke (layout : Layout) (k : PadKey) (moments : List Moment) : Option Nat :=
  lastOf (Moment.stroke? layout k) moments

/-- What was done since then. -/
def sinceStroke (layout : Layout) (k : PadKey) (moments : List Moment) : List Moment :=
  moments.rtakeWhile fun m => (m.stroke? layout k).isNone

/-- Did a poll end since then when the key's time was over? -/
def IsOverdue (layout : Layout) (k : PadKey) (moments : List Moment) (last : Nat) : Prop :=
  ∃ time, .finish time ∈ sinceStroke layout k moments ∧ last + KeyFeed.hold ≤ time

section Since

variable {layout : Layout} {k : PadKey} {moments : List Moment} {m : Moment} {last : Nat}

theorem lastStroke_concat : lastStroke layout k (moments ++ [m]) =
    (m.stroke? layout k).or (lastStroke layout k moments) := by
  rw [lastStroke, lastOf_append, lastOf_singleton]
  rfl

/-- Nothing is overdue right after a keystroke. -/
theorem not_isOverdue_concat_stroke {time : Nat} (hm : m.stroke? layout k = some time) :
    ¬ IsOverdue layout k (moments ++ [m]) last := by
  rintro ⟨finish, hfinish, -⟩
  rw [sinceStroke, List.rtakeWhile_concat_neg _ _ _ (by simp [hm])] at hfinish
  cases hfinish

/-- A moment that is no keystroke for the key makes it overdue if it ends a poll late enough. -/
theorem isOverdue_concat (hm : m.stroke? layout k = none) :
    IsOverdue layout k (moments ++ [m]) last ↔
      IsOverdue layout k moments last ∨ ∃ time, m = .finish time ∧ last + KeyFeed.hold ≤ time := by
  have hsince : sinceStroke layout k (moments ++ [m]) = sinceStroke layout k moments ++ [m] :=
    List.rtakeWhile_concat_pos _ _ _ (by simp [hm])
  simp only [IsOverdue, hsince, List.mem_append, List.mem_singleton, or_and_right, exists_or,
    eq_comm]

end Since

namespace KeyFeed

theorem isOver_eq_true_iff {now time : Nat} : isOver now time = true ↔ time + hold ≤ now := by
  rw [isOver, decide_eq_true_iff]
  unfold hold
  omega

/-- A keystroke for a key enters it with its time. -/
theorem mem_held_live_stroke (f : KeyFeed) {m : Moment} {last : Nat}
    (hm : m.stroke? f.layout k = some time) : (k, last) ∈ (f.live m).1.held ↔ last = time := by
  obtain ⟨i, hk, rfl⟩ := Moment.stroke?_eq_some hm
  rw [live, handle_of_key f time hk]
  simp [renew]

/-- Any other moment leaves a key in the table, unless it ends a poll when its time is over. -/
theorem mem_held_live (f : KeyFeed) {m : Moment} {last : Nat}
    (hm : m.stroke? f.layout k = none) : (k, last) ∈ (f.live m).1.held ↔
      (k, last) ∈ f.held ∧ ¬ ∃ time, m = .finish time ∧ last + hold ≤ time := by
  cases m with
  | input time i =>
      have hother : i.key? f.layout ≠ some k := fun hk => by simp [Moment.stroke?, hk] at hm
      have hkept : (k, last) ∈ (f.handle time i).1.held ↔ (k, last) ∈ f.held := by
        cases hkey : i.key? f.layout with
        | none => rw [handle_of_no_key f time hkey]
        | some k' =>
            have hne : k ≠ k' := fun hk => hother (hk ▸ hkey)
            rw [handle_of_key f time hkey]
            simp [renew, hne]
      simpa [live] using hkept
  | finish time =>
      have hover : isOver time last = false ↔ ¬ last + hold ≤ time := by
        rw [← isOver_eq_true_iff, Bool.not_eq_true]
      simp [live, expire, hover]

/-- The table holds the keys whose time was not over when a poll ended, each with its last
keystroke. -/
theorem mem_held_after (layout : Layout) (moments : List Moment) (k : PadKey) (last : Nat) :
    (k, last) ∈ ((initial layout).after moments).held ↔
      lastStroke layout k moments = some last ∧ ¬ IsOverdue layout k moments last := by
  induction moments using List.reverseRecOn with
  | nil => simp [initial, after, lastStroke, lastOf]
  | append_singleton moments m ih =>
      have hstep : ((initial layout).after (moments ++ [m])) =
          (((initial layout).after moments).live m).1 := after_append _ _ _
      rw [hstep, lastStroke_concat]
      cases hm : m.stroke? layout k with
      | some time =>
          rw [mem_held_live_stroke _ (by simpa [initial] using hm), Option.some_or,
            Option.some.injEq, and_iff_left (not_isOverdue_concat_stroke hm), eq_comm]
      | none =>
          rw [mem_held_live _ (by simpa [initial] using hm), ih, Option.none_or,
            isOverdue_concat hm, not_or, and_assoc]

theorem holds_after_iff (layout : Layout) (moments : List Moment) (k : PadKey) :
    ((initial layout).after moments).holds k = true ↔
      ∃ last, lastStroke layout k moments = some last ∧ ¬ IsOverdue layout k moments last := by
  simp only [← mem_held_after, holds, List.any_eq_true, beq_iff_eq, Prod.exists]
  exact ⟨fun ⟨_, last, hmem, hk⟩ => ⟨last, hk ▸ hmem⟩, fun ⟨last, hmem⟩ => ⟨k, last, hmem, rfl⟩⟩

end KeyFeed

end Chip8Vm.Terminal
