import Mathlib.Data.List.Chain
import Chip8Vm.Proofs.Terminal.Held

/-!
# Chip8Vm.Proofs.Terminal.Agreement

The feed and the pad agree on which keys are held.

The feed has a table of held keys and the pad a switch for every key, and the two meet only in
the events that the feed reports.

* `heard_live` — a moment reports a key exactly if it enters the key into the table or takes it
  out, because the table has at most one entry for it (`Tidy`);
* `heard_told` — so what is reported of a key moves it down and up in turn, and where the last
  report has left it tells whether the table has it;
* `feed_and_pad_agree` — the pad has it there too, and keys come up when their time is over.
-/

namespace Chip8Vm

/-! ## Events -/

/-- The key event that happens, if it is one. -/
def Happening.event? : Happening → Option KeyEvent
  | key e => some e
  | _ => none

/-- The event that is taken in by a call, if it takes one in. -/
def HexPad.Call.event? : HexPad.Call → Option KeyEvent
  | accept e => some e
  | _ => none

theorem HexPad.Call.transition?_eq (k : PadKey) (c : HexPad.Call) :
    c.transition? k = c.event?.bind (KeyEvent.transition? k) := by
  cases c <;> simp [transition?, event?]

/-- Which ways the key goes with what happens, one after the other. -/
def heard (k : PadKey) (happenings : List Happening) : List Bool :=
  happenings.filterMap fun e => e.event?.bind (KeyEvent.transition? k)

theorem heard_append (k : PadKey) (before later : List Happening) :
    heard k (before ++ later) = heard k before ++ heard k later := by
  simp [heard]

/-- A pad that takes in what happens, and no other event, has a key where the last event has left
it. -/
theorem HexPad.held_of_events {calls : List HexPad.Call} {happenings : List Happening}
    (hcalls : calls.filterMap HexPad.Call.event? = happenings.filterMap Happening.event?)
    (k : PadKey) :
    (HexPad.initial.after calls).held.get k = (heard k happenings).getLast?.getD false := by
  have hheard : calls.filterMap (HexPad.Call.transition? k) = heard k happenings := by
    simp only [heard, ← List.filterMap_filterMap, ← hcalls]
    simp [List.filterMap_filterMap, HexPad.Call.transition?_eq]
  rw [HexPad.held_after, lastOf, hheard]

namespace Terminal.KeyFeed

variable {f : KeyFeed} {layout : Layout} {k : PadKey} {m : Moment} {time : Nat} {i : Input}

theorem transition?_event (k k' : PadKey) (pressed : Bool) :
    (event k' pressed).event?.bind (KeyEvent.transition? k) =
      if k' = k then some pressed else none := by
  have hnumber : (UInt8.ofNat k'.val).toNat = k'.val := by
    rw [UInt8.toNat_ofNat']
    omega
  simp [event, Happening.event?, KeyEvent.transition?, hnumber, Fin.val_inj]

/-! ## The entries for a key -/

/-- The entries of the table for a key. -/
def entries (f : KeyFeed) (k : PadKey) : List (PadKey × Nat) := f.held.filter fun e => e.1 == k

/-- No key has two entries. -/
def Tidy (f : KeyFeed) : Prop := ∀ k, (f.entries k).length ≤ 1

theorem holds_eq (f : KeyFeed) (k : PadKey) : f.holds k = !(f.entries k).isEmpty := by
  rw [Bool.eq_iff_iff]
  simp [holds, entries]

theorem entries_renew (f : KeyFeed) (k' k : PadKey) (time : Nat) :
    (f.renew k' time).entries k = if k' = k then [(k, time)] else f.entries k := by
  by_cases hk : k' = k
  · subst hk
    simp [entries, renew]
  · have hother : ∀ e : PadKey × Nat, (e.1 == k && e.1 != k') = (e.1 == k) := by
      intro e
      by_cases he : e.1 = k <;> simp [he, Ne.symm hk]
    simp [entries, renew, hk, hother]

theorem entries_expire (f : KeyFeed) (k : PadKey) (now : Nat) :
    (f.expire now).1.entries k = (f.entries k).filter fun e => !isOver now e.2 := by
  simp [entries, expire, Bool.and_comm]

theorem heard_releases (k : PadKey) (held : List (PadKey × Nat)) :
    heard k (held.map fun e => event e.1 false) =
      (held.filter fun e => e.1 == k).map fun _ => false := by
  induction held with
  | nil => rfl
  | cons e rest ih =>
      rw [List.map_cons, heard, List.filterMap_cons, transition?_event, ← heard, ih]
      by_cases he : e.1 = k <;> simp [he]

/-- At the end of a poll a key is released for each of its entries that is too old. -/
theorem heard_expire (f : KeyFeed) (k : PadKey) (now : Nat) :
    heard k (f.expire now).2 =
      ((f.entries k).filter fun e => isOver now e.2).map fun _ => false := by
  simp [expire, heard_releases, entries, Bool.and_comm]

/-! ## Moments -/

theorem heard_handle_of_no_key (f : KeyFeed) (time : Nat) (hi : i.key? f.layout = none)
    (k : PadKey) : heard k (f.handle time i).2 = [] := by
  have hnote (n : Note) : heard k [.note n] = [] := rfl
  cases i with
  | pointer => rfl
  | stroke s =>
      obtain ⟨key, ctrl, alt⟩ := s
      cases key with
      | char c =>
          have hc : f.layout.typedKey? c = none := hi
          simp [handle, type, hc, hnote]
      | _ => exact hnote _

theorem Tidy.live (hf : f.Tidy) (m : Moment) : (f.live m).1.Tidy := by
  intro k
  cases m with
  | input time i =>
      cases hi : i.key? f.layout with
      | none =>
          rw [KeyFeed.live, handle_of_no_key f time hi]
          exact hf k
      | some k' =>
          rw [KeyFeed.live, handle_of_key f time hi, entries_renew]
          by_cases hk : k' = k <;> simp [hk, hf k]
  | finish time =>
      rw [KeyFeed.live, entries_expire]
      exact (List.length_filter_le _ _).trans (hf k)

/-- A moment reports a key if it enters the key into the table or takes it out, and says which
of the two. -/
theorem heard_live (hf : f.Tidy) (m : Moment) (k : PadKey) :
    heard k (f.live m).2 =
      if (f.live m).1.holds k = f.holds k then [] else [(f.live m).1.holds k] := by
  cases m with
  | input time i =>
      cases hi : i.key? f.layout with
      | none => simp [KeyFeed.live, handle_of_no_key f time hi, heard_handle_of_no_key f time hi]
      | some k' =>
          rw [KeyFeed.live, handle_of_key f time hi, holds_eq (f.renew k' time), entries_renew]
          by_cases hk : k' = k
          · cases hdown : f.holds k <;> simp [hk, hdown, heard, transition?_event]
          · cases f.holds k' <;> simp [hk, heard, transition?_event, holds_eq]
  | finish time =>
      simp only [KeyFeed.live, heard_expire, holds_eq, entries_expire]
      -- with one entry at most, either it goes or all stays as it is
      obtain hnone | ⟨e, hone⟩ : f.entries k = [] ∨ ∃ e, f.entries k = [e] := by
        rw [← List.length_eq_zero_iff, ← List.length_eq_one_iff]
        have := hf k
        omega
      · simp [hnone]
      · cases hover : isOver time e.2 <;> simp [hone, hover]

/-- A release comes at the end of a poll, for a key whose time is over. -/
theorem released_live (hk : event k false ∈ (f.live m).2) :
    ∃ time last, m = .finish time ∧ (k, last) ∈ f.held ∧ last + hold ≤ time := by
  have hheard : false ∈ heard k (f.live m).2 :=
    List.mem_filterMap.mpr ⟨_, hk, by simp [transition?_event]⟩
  cases m with
  | input time i =>
      exfalso
      cases hi : i.key? f.layout with
      | none => simp [live, heard_handle_of_no_key f time hi] at hheard
      | some k' =>
          rw [live, handle_of_key f time hi] at hheard
          cases f.holds k' <;> simp [heard, transition?_event] at hheard
  | finish time =>
      simp only [live, heard_expire, List.mem_map, List.mem_filter, entries, beq_iff_eq,
        isOver_eq_true_iff] at hheard
      obtain ⟨⟨k', last⟩, ⟨⟨hmem, rfl⟩, hover⟩, -⟩ := hheard
      exact ⟨time, last, rfl, hmem, hover⟩

/-! ## Histories -/

theorem tidy_after (layout : Layout) (moments : List Moment) :
    ((initial layout).after moments).Tidy := by
  induction moments using List.reverseRecOn with
  | nil => simp [Tidy, initial, after, entries]
  | append_singleton moments m ih =>
      rw [after_append]
      exact ih.live m

/-- What is reported of a key moves it every time, down at first, and the last report leaves it
where the table has it. -/
theorem heard_told (layout : Layout) (moments : List Moment) (k : PadKey) :
    (false :: heard k ((initial layout).told moments)).IsChain (· ≠ ·) ∧
      (heard k ((initial layout).told moments)).getLast?.getD false =
        ((initial layout).after moments).holds k := by
  induction moments using List.reverseRecOn with
  | nil => simp [told, heard, after, initial, holds]
  | append_singleton moments m ih =>
      obtain ⟨hchain, hlast⟩ := ih
      have hlive := heard_live (tidy_after layout moments) m k
      have hafter : (initial layout).after (moments ++ [m]) =
          (((initial layout).after moments).live m).1 := after_append _ _ _
      have htold : heard k ((initial layout).told (moments ++ [m])) =
          heard k ((initial layout).told moments) ++
            heard k (((initial layout).after moments).live m).2 := by
        simp [told_append, told, heard_append]
      rw [htold, hafter, hlive]
      by_cases hsame : (((initial layout).after moments).live m).1.holds k =
          ((initial layout).after moments).holds k
      · simp [hsame, hchain, hlast]
      · rw [if_neg hsame]
        refine ⟨?_, by simp⟩
        rw [← List.cons_append, List.isChain_append]
        refine ⟨hchain, by simp, ?_⟩
        simp [List.getLast?_cons, hlast, Ne.symm hsame]

theorem mem_keys_iff (f : KeyFeed) (k : PadKey) : k ∈ f.held.map Prod.fst ↔ f.holds k = true := by
  simp [holds]

/-- The end of a poll that was not asked to quit leaves no key whose time is over. -/
theorem lt_of_mem_polls {before : List Poll} {p : Poll} {last : Nat}
    (hp : (((initial layout).polls before).1.poll p.inputs p.finish).1 = .goOn)
    (hk : (k, last) ∈ ((initial layout).polls (before ++ [p])).1.held) :
    p.finish < last + hold := by
  have hquit : asksToQuit p.inputs = false := by
    rw [poll_eq] at hp
    cases hasks : asksToQuit p.inputs <;> simp [hasks] at hp ⊢
  have hmoments : (before ++ [p]).flatMap Poll.moments =
      (before.flatMap Poll.moments ++ handled p.inputs) ++ [.finish p.finish] := by
    simp [Poll.moments, hquit]
  rw [polls_eq, hmoments, after_append] at hk
  have hover : isOver p.finish last = false := by
    simpa [after, live, expire] using (List.mem_filter.mp hk).2
  rw [← Bool.not_eq_true, isOver_eq_true_iff] at hover
  omega

/-- **The feed and the pad agree.** Poll as often as you like, whatever is typed and whenever it
is handled, and let a pad take in the events that the feed reports and no others, whatever else
is done with it.  After the last poll the pad has down exactly the keys in the feed's table.  The
events for a key move it down and up in turn, down at first.  A key is released only at the end
of a poll, 150 milliseconds or more after its last keystroke; and after a poll that was not asked
to quit every held key has its last keystroke less than that ago. -/
theorem feed_and_pad_agree (layout : Layout) (ps : List Poll) :
    (∀ calls : List HexPad.Call,
      calls.filterMap HexPad.Call.event? =
        ((initial layout).polls ps).2.filterMap Happening.event? →
      ∀ (key : UInt8) (k : PadKey), k.val = key.toNat % 16 →
        ((HexPad.initial.after calls).isHeld key = true ↔
          k ∈ ((initial layout).polls ps).1.held.map Prod.fst)) ∧
    (∀ k, (false :: heard k ((initial layout).polls ps).2).IsChain (· ≠ ·)) ∧
    (∀ past m later, ps.flatMap Poll.moments = past ++ m :: later →
      ((initial layout).polls ps).2 = (initial layout).told past ++
        (((initial layout).after past).live m).2 ++
          ((initial layout).after (past ++ [m])).told later ∧
      ∀ k, event k false ∈ (((initial layout).after past).live m).2 →
        ∃ time last, m = .finish time ∧ lastStroke layout k past = some last ∧
          last + hold ≤ time) ∧
    (∀ before p, ps = before ++ [p] →
      (((initial layout).polls before).1.poll p.inputs p.finish).1 = .goOn →
      ∀ k ∈ ((initial layout).polls ps).1.held.map Prod.fst,
        ∃ last, lastStroke layout k (ps.flatMap Poll.moments) = some last ∧
          p.finish < last + hold) := by
  refine ⟨fun calls hcalls key k hk => ?_, fun k => ?_, fun past m later hsplit => ⟨?_, ?_⟩, ?_⟩
  · have hlow : Nibble.ofNat key.toNat = k := Fin.ext hk.symm
    rw [HexPad.isHeld, hlow, HexPad.held_of_events hcalls, polls_eq, (heard_told layout _ k).2,
      mem_keys_iff]
  · rw [polls_eq]
    exact (heard_told layout _ k).1
  · rw [polls_eq, hsplit]
    simp [told_append, told, after]
  · intro k hk
    obtain ⟨time, last, hm, hmem, hover⟩ := released_live hk
    exact ⟨time, last, hm, ((mem_held_after layout past k last).mp hmem).1, hover⟩
  · rintro before p rfl hp k hk
    obtain ⟨⟨_, last⟩, hmem, rfl⟩ := List.mem_map.mp hk
    have hlast := lt_of_mem_polls hp hmem
    rw [polls_eq, mem_held_after] at hmem
    exact ⟨last, hmem.1, hlast⟩

/-- Two keys go down and the first repeats, also as a capital letter; the poll in which the
second's time is over is asked to quit, so it is released by the next. -/
def repeating : List Poll :=
  [⟨[(0, .ofChar 'a'), (0, .ofChar 's'), (100000000, .ofChar 'A')], 100000000⟩,
    ⟨[(200000000, .ofChar 'a'), (200000000, .stroke ⟨.escape, false, false⟩)], 200000000⟩,
    ⟨[], 240000000⟩]

/-- What is done with the pad meanwhile: besides the events, presses are looked for. -/
def repeatingCalls : List HexPad.Call :=
  [.accept ⟨0x7, true⟩, .take, .accept ⟨0x8, true⟩, .isHeld 0x8, .arm, .accept ⟨0x8, false⟩]

theorem feed_and_pad_agree_repeating :
    repeatingCalls.filterMap HexPad.Call.event? =
      ((initial .conventional).polls repeating).2.filterMap Happening.event? ∧
    (HexPad.initial.after repeatingCalls).isHeld 0x7 = true ∧
    ¬ (HexPad.initial.after repeatingCalls).isHeld 0x8 = true ∧
    (∃ last, lastStroke .conventional 7 (repeating.flatMap Poll.moments) = some last ∧
      240000000 < last + hold) := by
  have hcalls : repeatingCalls.filterMap HexPad.Call.event? =
      ((initial .conventional).polls repeating).2.filterMap Happening.event? := by decide
  have hgoOn : (((initial .conventional).polls (repeating.take 2)).1.poll [] 240000000).1 =
      .goOn := by decide
  obtain ⟨hheld, -, -, hcurrent⟩ := feed_and_pad_agree .conventional repeating
  have hseven := hheld _ hcalls 0x7 7 (by decide)
  have height := hheld _ hcalls 0x8 8 (by decide)
  refine ⟨hcalls, hseven.mpr (by decide), fun hdown => ?_, ?_⟩
  · exact absurd (height.mp hdown) (by decide)
  · exact hcurrent (repeating.take 2) ⟨[], 240000000⟩ rfl hgoOn 7 (by decide)

end Terminal.KeyFeed

end Chip8Vm
