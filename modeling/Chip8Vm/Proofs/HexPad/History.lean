import Mathlib.Data.List.DropRight
import Mathlib.Data.List.Induction
import Chip8Vm.HexPad

/-!
# Chip8Vm.Proofs.HexPad.History

The pad by what was done to it.

Whatever is asked of a pad depends on its history alone, and each question on a part of it.  Is a
key held?  That is told by the last transition of the key (`held_after`).  Which press is
pending?  The last one since the slot was emptied (`slot_after`).  Both are read off a history
by `lastOf`.
-/

namespace Chip8Vm

/-! ## The last of a history -/

/-- The last thing that `f` tells of a history. -/
def lastOf {α β : Type} (f : α → Option β) (history : List α) : Option β :=
  (history.filterMap f).getLast?

section LastOf

variable {α β : Type} {f : α → Option β}

theorem lastOf_append (before later : List α) :
    lastOf f (before ++ later) = (lastOf f later).or (lastOf f before) := by
  rw [lastOf, List.filterMap_append, List.getLast?_append]
  rfl

theorem lastOf_singleton (a : α) : lastOf f [a] = f a := by
  cases ha : f a with
  | none => simp [lastOf, ha]
  | some b => simp [lastOf, ha]

theorem lastOf_eq_none_iff {history : List α} :
    lastOf f history = none ↔ ∀ a ∈ history, f a = none := by
  rw [lastOf, List.getLast?_eq_none_iff, List.filterMap_eq_nil_iff]

theorem exists_of_lastOf {history : List α} {b : β} (hb : lastOf f history = some b) :
    ∃ a ∈ history, f a = some b :=
  List.mem_filterMap.mp (List.mem_of_getLast? hb)

end LastOf

/-! ## Events -/

/-- The key of the pad that an event presses. -/
def KeyEvent.press? (e : KeyEvent) : Option PadKey :=
  if e.pressed then HexPad.keyOf? e.key else none

/-- Which way a key goes with an event, if the event is about that key. -/
def KeyEvent.transition? (k : PadKey) (e : KeyEvent) : Option Bool :=
  if e.key.toNat = k.val then some e.pressed else none

namespace HexPad

variable {p : HexPad} {e : KeyEvent}

theorem keyOf?_eq_some_iff {key : UInt8} {k : PadKey} :
    keyOf? key = some k ↔ key.toNat = k.val := by
  unfold keyOf?
  split
  · simp [Fin.ext_iff]
  · next hkey =>
      simp only [reduceCtorEq, false_iff]
      intro hk
      exact hkey (hk ▸ k.isLt)

theorem keyOf?_eq_none_iff {key : UInt8} : keyOf? key = none ↔ 16 ≤ key.toNat := by
  simp [keyOf?]

/-- A press of the pad's keys fills the slot, and no other event touches it. -/
theorem slot_accept (p : HexPad) (e : KeyEvent) : (p.accept e).slot = e.press?.or p.slot := by
  unfold accept KeyEvent.press?
  cases keyOf? e.key with
  | none => cases e.pressed <;> rfl
  | some k => cases e.pressed <;> rfl

theorem held_enter (p : HexPad) (k' k : PadKey) (held : Bool) :
    (p.enter k' held).held.get k = if k' = k then held else p.held.get k := by
  have hget : (p.enter k' held).held.get k = (p.held.set k'.val held)[k.val] := rfl
  rw [hget, Vector.getElem_set]
  simp only [Fin.ext_iff]
  rfl

/-- An event moves the key that it is about, and no other. -/
theorem held_accept (p : HexPad) (e : KeyEvent) (k : PadKey) :
    (p.accept e).held.get k = (e.transition? k).getD (p.held.get k) := by
  unfold accept KeyEvent.transition?
  cases hkey : keyOf? e.key with
  | none =>
      have hne : e.key.toNat ≠ k.val := fun h => by
        have hsome := keyOf?_eq_some_iff.mpr h
        rw [hkey] at hsome
        cases hsome
      rw [if_neg hne]
      rfl
  | some k' =>
      have hk' : e.key.toNat = k'.val := keyOf?_eq_some_iff.mp hkey
      have hsame : (e.key.toNat = k.val) = (k' = k) := by rw [hk', Fin.ext_iff]
      have hheld : (if e.pressed = true then (p.enter k' true).post k' else p.enter k' false).held =
          (p.enter k' e.pressed).held := by cases e.pressed <;> rfl
      simp only [hsame, hheld, held_enter]
      split <;> rfl

/-! ## Calls -/

/-- What can be asked of a pad. -/
inductive Call where
  | accept (e : KeyEvent)
  | arm
  | take
  | isHeld (key : UInt8)
  deriving DecidableEq

inductive Answer where
  | done
  | taken (key : Option PadKey)
  | held (held : Bool)
  deriving DecidableEq

/-- The answer of a pad, and the pad after it. -/
def call (p : HexPad) : Call → Answer × HexPad
  | .accept e => (.done, p.accept e)
  | .arm => (.done, p.arm)
  | .take => (.taken p.take.1, p.take.2)
  | .isHeld key => (.held (p.isHeld key), p)

/-- The pad after some calls. -/
def after (p : HexPad) (calls : List Call) : HexPad := calls.foldl (fun p c => (p.call c).2) p

theorem after_concat (p : HexPad) (calls : List Call) (c : Call) :
    p.after (calls ++ [c]) = ((p.after calls).call c).2 := by
  rw [after, List.foldl_concat]
  rfl

namespace Call

/-- The key of the pad that a call presses. -/
def press? : Call → Option PadKey
  | accept e => e.press?
  | _ => none

/-- Which way the key goes with a call, if it does. -/
def transition? (k : PadKey) : Call → Option Bool
  | accept e => e.transition? k
  | _ => none

/-- Does the call empty the slot? -/
def empties : Call → Bool
  | arm | take => true
  | _ => false

end Call

/-- The calls since the slot was last emptied by one of them. -/
def sinceEmptied (calls : List Call) : List Call := calls.rtakeWhile (!·.empties)

theorem sinceEmptied_concat {calls : List Call} {c : Call} (hc : c.empties = false) :
    sinceEmptied (calls ++ [c]) = sinceEmptied calls ++ [c] :=
  List.rtakeWhile_concat_pos _ _ _ (by rw [hc]; rfl)

theorem sinceEmptied_concat_empties {calls : List Call} {c : Call} (hc : c.empties = true) :
    sinceEmptied (calls ++ [c]) = [] :=
  List.rtakeWhile_concat_neg _ _ _ (by rw [hc]; decide)

/-! ## What a history leaves -/

variable {calls : List Call}

/-- A key is held if its last transition was downwards. -/
theorem held_after (calls : List Call) (k : PadKey) :
    (initial.after calls).held.get k =
      (lastOf (Call.transition? k) calls).getD false := by
  induction calls using List.reverseRecOn with
  | nil => exact Vector.getElem_replicate k.isLt
  | append_singleton calls c ih =>
      rw [after_concat, lastOf_append, lastOf_singleton]
      cases c with
      | accept e =>
          have hheld : ((initial.after calls).call (.accept e)).2.held.get k =
              (e.transition? k).getD ((initial.after calls).held.get k) := held_accept _ e k
          rw [hheld, ih, Call.transition?]
          cases e.transition? k <;> rfl
      | _ => exact ih

/-- The press that is pending is the last one since the slot was emptied. -/
theorem slot_after (calls : List Call) :
    (initial.after calls).slot =
      lastOf Call.press? (sinceEmptied calls) := by
  induction calls using List.reverseRecOn with
  | nil => rfl
  | append_singleton calls c ih =>
      rw [after_concat]
      cases c with
      | accept e =>
          have hslot : ((initial.after calls).call (.accept e)).2.slot =
              e.press?.or (initial.after calls).slot := slot_accept _ e
          rw [hslot, ih, sinceEmptied_concat rfl, lastOf_append, lastOf_singleton]
          rfl
      | isHeld key =>
          rw [sinceEmptied_concat rfl, lastOf_append, lastOf_singleton]
          exact ih
      | arm | take =>
          rw [sinceEmptied_concat_empties rfl]
          rfl

/-- **The pad tells its history.** Do anything to a new pad.  A key is held, as told by the low
nibble of the number that is asked for, if the last event for it was a press, whatever else was
called.  The press that is taken is the last one of a key that the pad has since the slot was
last emptied, and there is none if there was no such press.  A release leaves the slot as it is,
and an event for a key that the pad does not have changes nothing. -/
theorem pad_tells_history (calls : List Call) :
    (∀ (key : UInt8) (k : PadKey), k.val = key.toNat % 16 →
      (((initial.after calls).call (.isHeld key)).1 = .held true ↔
        lastOf (Call.transition? k) calls = some true)) ∧
    ((initial.after calls).call .take).1 = .taken (lastOf Call.press? (sinceEmptied calls)) ∧
    ∀ e : KeyEvent,
      (e.pressed = false ∨ 16 ≤ e.key.toNat →
        ((initial.after calls).accept e).slot = (initial.after calls).slot) ∧
      (16 ≤ e.key.toNat → ((initial.after calls).accept e).held = (initial.after calls).held) := by
  refine ⟨fun key k hk => ?_, ?_, fun e => ⟨fun he => ?_, fun he => ?_⟩⟩
  · have hlow : Nibble.ofNat key.toNat = k := Fin.ext hk.symm
    have hasked : ((initial.after calls).call (.isHeld key)).1 =
        .held ((initial.after calls).held.get (Nibble.ofNat key.toNat)) := rfl
    rw [hasked, hlow, held_after, Answer.held.injEq]
    cases lastOf (Call.transition? k) calls with
    | none => simp
    | some held => simp
  · exact congrArg Answer.taken (slot_after calls)
  · have hpress : e.press? = none := by
      unfold KeyEvent.press?
      cases he with
      | inl hup => rw [hup]; rfl
      | inr hkey => rw [keyOf?_eq_none_iff.mpr hkey, ite_self]
    rw [slot_accept, hpress, Option.none_or]
  · rw [accept, keyOf?_eq_none_iff.mpr he]

/-- Key 3 goes down before the slot is armed and key 4 after; the pad has no key 0x14. -/
def busy : List Call :=
  [.accept ⟨0x3, true⟩, .arm, .accept ⟨0x4, true⟩, .accept ⟨0x14, true⟩, .accept ⟨0x4, false⟩]

/-- Key 3 is held, also by the name of 0x13, and key 4 is taken although it is up. -/
theorem pad_tells_history_busy :
    ((initial.after busy).call (.isHeld 0x13)).1 = .held true ∧
    ((initial.after busy).call .take).1 = .taken (some 4) ∧
    ((initial.after busy).accept ⟨0x14, true⟩).slot = (initial.after busy).slot := by
  obtain ⟨hheld, htaken, hrest⟩ := pad_tells_history busy
  have hthree := (hheld 0x13 3 (by decide)).mpr (by decide)
  have hfour : lastOf Call.press? (sinceEmptied busy) = some 4 := by decide
  rw [hfour] at htaken
  exact ⟨hthree, htaken, (hrest ⟨0x14, true⟩).1 (.inr (by decide))⟩

end HexPad

end Chip8Vm
