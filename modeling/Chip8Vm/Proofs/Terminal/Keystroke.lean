import Chip8Vm.Proofs.Console.KeyWait
import Chip8Vm.Proofs.Terminal.Held

/-!
# Chip8Vm.Proofs.Terminal.Keystroke

Which keystrokes press their key.

A key is no longer held once its time is over, but the feed only finds out at the end of a
poll.  So a keystroke is a press if a poll has ended in time (`IsFresh`), and otherwise it
renews the key, however long ago the last keystroke was: the pad hears nothing of it
(`keystroke_presses_iff`).
-/

namespace Chip8Vm.Terminal

/-- No keystroke for the key was handled yet, or a poll has ended since the last one when the
key's time was over. -/
def IsFresh (layout : Layout) (k : PadKey) (past : List Moment) : Prop :=
  ∀ last, lastStroke layout k past = some last → IsOverdue layout k past last

namespace KeyFeed

variable {layout : Layout} {k : PadKey} {past : List Moment}

theorem holds_after_eq_false_iff :
    ((initial layout).after past).holds k = false ↔ IsFresh layout k past := by
  rw [← Bool.not_eq_true, holds_after_iff]
  simp only [not_exists, not_and, not_not, IsFresh]

/-- The pad takes in a press of the key. -/
theorem slot_event (pad : HexPad) (k : PadKey) :
    (pad.accept ⟨UInt8.ofNat k.val, true⟩).slot = some k := by
  have hnumber : (UInt8.ofNat k.val).toNat = k.val := by
    rw [UInt8.toNat_ofNat']
    omega
  rw [HexPad.slot_accept, KeyEvent.press?, if_pos rfl, HexPad.keyOf?_eq_some_iff.mpr hnumber,
    Option.some_or]

/-- A fresh keystroke makes nothing happen but a press of its key, and any other nothing. -/
theorem handle_after (past : List Moment) (time : Nat) {i : Input} (hk : i.key? layout = some k) :
    (IsFresh layout k past →
      (((initial layout).after past).handle time i).2 = [event k true]) ∧
    (¬ IsFresh layout k past → (((initial layout).after past).handle time i).2 = []) := by
  have hlayout : ((initial layout).after past).layout = layout := layout_after _ _
  rw [handle_of_key _ time (by rwa [hlayout]), ← holds_after_eq_false_iff, Bool.not_eq_false]
  exact ⟨fun hup => by simp [hup], fun hdown => by simp [hdown]⟩

/-- A press can be taken, and it ends the wait of a program for a key. -/
theorem press_ends_wait {w h : Nat} (c : Console w h) (k : PadKey) :
    (c.happen (event k true)).machine.pad.take.1 = some k ∧
      ∀ x, c.machine.mode = .awaiting x → (c.happen (event k true)).step.1 = .ok (.resumed k) := by
  have hslot : (c.happen (event k true)).machine.pad.slot = some k := slot_event c.machine.pad k
  refine ⟨hslot, fun x hx => ?_⟩
  have hmode : (c.happen (event k true)).machine.mode = .awaiting x := hx
  rw [Console.step_of_pressed hmode hslot]

theorem isFresh_iff : IsFresh layout k past ↔ lastStroke layout k past = none ∨ ∃ last finish,
    lastStroke layout k past = some last ∧ .finish finish ∈ sinceStroke layout k past ∧
      last + hold ≤ finish := by
  unfold IsFresh IsOverdue
  cases lastStroke layout k past with
  | none => simp
  | some last => simp

/-- **Which keystrokes are presses.** Poll as often as you like, whatever is typed and whenever
it is handled.  A keystroke for a key presses it if none was handled before, or if a poll that
was not asked to quit has ended since the last one and 150 milliseconds after it; then the pad
hears of that press, it can be taken, and it ends the wait of a program.  Any other keystroke
makes nothing happen at all, even if the last one was as long ago as that. -/
theorem keystroke_presses_iff {ps : List Poll} {later : List Moment} {time : Nat} {i : Input}
    (hmoments : ps.flatMap Poll.moments = past ++ .input time i :: later)
    (hk : i.key? layout = some k) :
    (∃ events, ((initial layout).polls ps).2 = (initial layout).told past ++ events ++
        ((initial layout).after (past ++ [.input time i])).told later ∧
      (events = [event k true] ↔ IsFresh layout k past) ∧
      (events = [] ↔ ¬ IsFresh layout k past)) ∧
    (IsFresh layout k past ↔ lastStroke layout k past = none ∨ ∃ last finish,
      lastStroke layout k past = some last ∧ .finish finish ∈ sinceStroke layout k past ∧
        last + hold ≤ finish) ∧
    ∀ {w h : Nat} (c : Console w h),
      (c.happen (event k true)).machine.pad.take.1 = some k ∧
      ∀ x, c.machine.mode = .awaiting x → (c.happen (event k true)).step.1 = .ok (.resumed k) := by
  have htold : ((initial layout).polls ps).2 = (initial layout).told past ++
      (((initial layout).after past).handle time i).2 ++
        ((initial layout).after (past ++ [.input time i])).told later := by
    have hafter : (initial layout).after (past ++ [.input time i]) =
        (((initial layout).after past).handle time i).1 := after_append _ _ _
    rw [polls_eq, hmoments, hafter]
    dsimp only
    rw [told_append, told, List.append_assoc]
    rfl
  obtain ⟨hfresh, hstale⟩ := handle_after past time hk
  refine ⟨⟨_, htold, ⟨fun hpress => ?_, hfresh⟩, ⟨fun hnothing hf => ?_, hstale⟩⟩, isFresh_iff,
    fun c => press_ends_wait c k⟩
  · by_contra hf
    rw [hstale hf] at hpress
    cases hpress
  · rw [hfresh hf] at hnothing
    cases hnothing

/-- Between two keystrokes for a key a poll ends, just when the first one's time is over. -/
def relaxed : List Poll :=
  [⟨[(0, .ofChar 'a')], 0⟩, ⟨[], 150000000⟩, ⟨[(200000000, .ofChar 'a')], 200000000⟩]

theorem keystroke_presses_iff_relaxed :
    ((initial .conventional).polls relaxed).2 =
        [event 7 true, event 7 false, event 7 true] ∧
      IsFresh .conventional 7 ((relaxed.take 2).flatMap Poll.moments) := by
  have hmoments : relaxed.flatMap Poll.moments = (relaxed.take 2).flatMap Poll.moments ++
      .input 200000000 (.ofChar 'a') :: [.finish 200000000] := by decide
  have hk : (Input.ofChar 'a').key? .conventional = some 7 := by decide
  obtain ⟨⟨events, htold, hpress, -⟩, hfresh, -⟩ := keystroke_presses_iff hmoments hk
  have hisFresh : IsFresh .conventional 7 ((relaxed.take 2).flatMap Poll.moments) :=
    hfresh.mpr (.inr ⟨0, 150000000, by decide, by decide, by decide⟩)
  refine ⟨?_, hisFresh⟩
  rw [htold, hpress.mpr hisFresh]
  decide

/-- The same keystrokes, and no poll ends between them before the second one is handled. -/
def tardy : List Poll := [⟨[(0, .ofChar 'a')], 0⟩, ⟨[(200000000, .ofChar 'a')], 200000000⟩]

/-- The second of two keystrokes that are 200 milliseconds apart is not a press. -/
theorem tardy_keystroke_unheard :
    tardy.flatMap Poll.moments = (tardy.take 1).flatMap Poll.moments ++
        .input 200000000 (.ofChar 'a') :: [.finish 200000000] ∧
      (Input.ofChar 'a').key? .conventional = some 7 ∧
      lastStroke .conventional 7 ((tardy.take 1).flatMap Poll.moments) = some 0 ∧
      0 + hold ≤ 200000000 ∧
      ((initial .conventional).polls (tardy.take 1)).2 = [event 7 true] ∧
      ((initial .conventional).polls tardy).2 = [event 7 true] := by
  decide

end KeyFeed

end Chip8Vm.Terminal
