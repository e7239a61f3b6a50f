import Chip8Vm.HexPad.Wait
import Chip8Vm.Proofs.HexPad.History

/-!
# Chip8Vm.Proofs.HexPad.Contention

Waiting for a press while other threads use the pad.

A wait is followed twice.  In the large its looks are single acts among those of the others
(`WaitScene.run`); there the wait ends at the first look that finds a press or the stop signal,
with what was pending then (`waits_or_ends`).  In the small a look is made of steps: the waiter gets
the lock of the slot, takes the press, looks at the stop signal and lets the lock go, and others
go on in between, except that no press is stored while the lock is held (`Step`).  Each path in
the small is a run in the large (`Steps.simulates`), so the small steps of a look may be taken
for one act, and no press is lost (`wait_loses_no_press`).
-/

namespace Chip8Vm

/-! ## Waiting in the large -/

/-- The key whose press an act stores. -/
def Act.posted? : Act → Option PadKey
  | .post k => some k
  | _ => none

namespace WaitScene

variable {s : WaitScene} {acts : List Act} {key : Option PadKey}

/-- The press that was stored last, unless it was taken. -/
def pending (s : WaitScene) (acts : List Act) : Option PadKey :=
  (lastOf Act.posted? acts).or s.pad.slot

theorem run_append (s : WaitScene) (before later : List Act) :
    s.run (before ++ later) = (s.run before).run later :=
  List.foldl_append

theorem pending_concat (s : WaitScene) (acts : List Act) (a : Act) :
    s.pending (acts ++ [a]) = a.posted?.or (s.pending acts) := by
  rw [pending, lastOf_append, lastOf_singleton, Option.or_assoc]
  rfl

/-! ### Looks and other acts -/

theorem look_of_back (hs : s.waiter = .back key) : s.look = s := by
  rw [look, hs]

theorem look_of_pending {k : PadKey} (hs : s.waiter = .waiting) (hk : s.pad.slot = some k) :
    s.look = { s with pad := s.pad.take.2, waiter := .back (some k) } := by
  simp only [look, hs, HexPad.take, hk]

theorem look_of_empty (hs : s.waiter = .waiting) (hk : s.pad.slot = none) :
    s.look = if s.stop then { s with waiter := .back none } else s := by
  simp only [look, hs, HexPad.take, hk]

/-- Acts other than looks leave the waiter alone, and the slot holds what was stored last. -/
theorem act_of_ne_look {a : Act} (ha : a ≠ .look) :
    (s.act a).waiter = s.waiter ∧ (s.act a).pad.slot = a.posted?.or s.pad.slot := by
  cases a with
  | look => exact absurd rfl ha
  | _ => exact ⟨rfl, rfl⟩

theorem run_of_no_look (hacts : .look ∉ acts) :
    (s.run acts).waiter = s.waiter ∧ (s.run acts).pad.slot = s.pending acts := by
  induction acts using List.reverseRecOn with
  | nil => exact ⟨rfl, rfl⟩
  | append_singleton acts a ih =>
      obtain ⟨hearlier, hlast⟩ := not_or.mp (mt List.mem_append.mpr hacts)
      obtain ⟨hwaiter, hslot⟩ := ih hearlier
      obtain ⟨hwaiter', hslot'⟩ := act_of_ne_look (s := s.run acts) fun ha =>
        hlast (List.mem_singleton.mpr ha.symm)
      rw [run_append, pending_concat]
      exact ⟨hwaiter'.trans hwaiter, hslot'.trans (by rw [hslot])⟩

/-- Once the waiter is back, the slot holds what is stored from then on. -/
theorem run_of_back (hs : s.waiter = .back key) (acts : List Act) :
    (s.run acts).waiter = .back key ∧ (s.run acts).pad.slot = s.pending acts := by
  induction acts using List.reverseRecOn with
  | nil => exact ⟨hs, rfl⟩
  | append_singleton acts a ih =>
      obtain ⟨hwaiter, hslot⟩ := ih
      rw [run_append, pending_concat, ← hslot]
      by_cases ha : a = .look
      · subst ha
        have hsame : (s.run acts).run [.look] = s.run acts := look_of_back hwaiter
        rw [hsame]
        exact ⟨hwaiter, rfl⟩
      · obtain ⟨hwaiter', hslot'⟩ := act_of_ne_look (s := s.run acts) ha
        exact ⟨hwaiter'.trans hwaiter, hslot'⟩

theorem stop_act (s : WaitScene) (a : Act) :
    (s.act a).stop = true ↔ s.stop = true ∨ a = .raise := by
  cases a with
  | look =>
      have hstop : (s.act .look).stop = s.stop := by
        show s.look.stop = s.stop
        unfold look
        split
        · rfl
        · split
          · rfl
          · split <;> rfl
      simp [hstop]
  | enter k held => simp [act]
  | post k => simp [act]
  | raise => simp [act]

theorem stop_run (s : WaitScene) (acts : List Act) :
    (s.run acts).stop = true ↔ s.stop = true ∨ .raise ∈ acts := by
  induction acts generalizing s with
  | nil => simp [run]
  | cons a acts ih =>
      rw [List.mem_cons, ← or_assoc, eq_comm (a := Act.raise), ← stop_act]
      exact ih (s.act a)

/-! ### The look that ends the wait -/

/-- The waiter still waits, and its next look will find a press or the stop signal. -/
structure Due (s : WaitScene) (before : List Act) : Prop where
  waiting : (s.run before).waiter = .waiting
  slot : (s.run before).pad.slot = s.pending before
  found : s.pending before ≠ none ∨ (s.run before).stop = true

/-- The look between these acts ends the wait with this key or without one. -/
structure Ends (s : WaitScene) (before later : List Act) (key : Option PadKey) : Prop where
  /-- What is pending is taken. -/
  taken : s.pending before = key
  /-- Only a stop ends the wait without a key. -/
  stop : key = none → s.stop = true ∨ .raise ∈ before
  back : (s.run (before ++ .look :: later)).waiter = .back key
  /-- What is stored later stays. -/
  slot : (s.run (before ++ .look :: later)).pad.slot = lastOf Act.posted? later

variable {before : List Act}

theorem Due.look (hdue : s.Due before) :
    (s.run before).look.waiter = .back (s.pending before) ∧
      (s.run before).look.pad.slot = none := by
  cases hkey : s.pending before with
  | some k =>
      rw [look_of_pending hdue.waiting (hdue.slot.trans hkey)]
      exact ⟨rfl, rfl⟩
  | none =>
      have hslot : (s.run before).pad.slot = none := hdue.slot.trans hkey
      have hstop : (s.run before).stop = true := hdue.found.resolve_left (not_not.mpr hkey)
      rw [look_of_empty hdue.waiting hslot, if_pos hstop]
      exact ⟨rfl, hslot⟩

theorem Due.ends (hdue : s.Due before) (later : List Act) :
    s.Ends before later (s.pending before) := by
  have hrun : s.run (before ++ .look :: later) = (s.run before).look.run later :=
    run_append s before (.look :: later)
  obtain ⟨hback, hslot⟩ := run_of_back hdue.look.1 later
  refine ⟨rfl, fun hnone => ?_, ?_, ?_⟩
  · exact (stop_run s before).mp (hdue.found.resolve_left (not_not.mpr hnone))
  · rw [hrun, hback]
  · rw [hrun, hslot, pending, hdue.look.2, Option.or_none]

/-- The wait goes on, with what was stored last pending, or one look has ended it. -/
theorem waits_or_ends (hs : s.waiter = .waiting) (acts : List Act) :
    ((s.run acts).waiter = .waiting ∧ (s.run acts).pad.slot = s.pending acts) ∨
    ∃ before later, acts = before ++ .look :: later ∧ s.Due before := by
  induction acts using List.reverseRecOn with
  | nil => exact .inl ⟨hs, rfl⟩
  | append_singleton acts a ih =>
      cases ih with
      | inr hended =>
          obtain ⟨before, later, rfl, hdue⟩ := hended
          exact .inr ⟨before, later ++ [a], by simp, hdue⟩
      | inl hwaits =>
          obtain ⟨hwaiting, hslot⟩ := hwaits
          by_cases ha : a = .look
          · subst ha
            by_cases hfound : s.pending acts ≠ none ∨ (s.run acts).stop = true
            · exact .inr ⟨acts, [], rfl, hwaiting, hslot, hfound⟩
            · obtain ⟨hnone, hstop⟩ := not_or.mp hfound
              have hempty : (s.run acts).pad.slot = none := hslot.trans (not_not.mp hnone)
              have hsame : (s.run acts).run [.look] = s.run acts := by
                show (s.run acts).look = s.run acts
                rw [look_of_empty hwaiting hempty, if_neg hstop]
              rw [run_append, hsame, pending_concat]
              exact .inl ⟨hwaiting, hslot⟩
          · obtain ⟨hwaiter, hslot'⟩ := act_of_ne_look (s := s.run acts) ha
            rw [run_append, pending_concat]
            exact .inl ⟨hwaiter.trans hwaiting, hslot'.trans (by rw [hslot])⟩

/-- A waiter that is back came back by the look that ended its wait. -/
theorem ends_of_back (hs : s.waiter = .waiting) (hback : (s.run acts).waiter = .back key) :
    ∃ before later, acts = before ++ .look :: later ∧ s.Ends before later key := by
  cases waits_or_ends hs acts with
  | inl hwaits => exact nomatch hwaits.1.symm.trans hback
  | inr hended =>
      obtain ⟨before, later, rfl, hdue⟩ := hended
      have hends := hdue.ends later
      cases hends.back.symm.trans hback
      exact ⟨before, later, rfl, hends⟩

/-- The first look takes what is pending, whether or not the stop signal is raised. -/
theorem back_of_first_look {k : PadKey} {later : List Act} (hs : s.waiter = .waiting)
    (hfirst : .look ∉ before) (hk : s.pending before = some k) :
    (s.run (before ++ .look :: later)).waiter = .back (some k) := by
  obtain ⟨hwaiter, hslot⟩ := run_of_no_look (s := s) hfirst
  have hdue : s.Due before :=
    ⟨hwaiter.trans hs, hslot, .inl (by rw [hk]; exact Option.some_ne_none k)⟩
  rw [(hdue.ends later).back, hk]

/-- What is stored after the last look stays for the next reader. -/
theorem take_of_last_look {k : PadKey} {later : List Act} (hlast : .look ∉ later)
    (hk : lastOf Act.posted? later = some k) :
    (s.run (before ++ .look :: later)).pad.take.1 = some k := by
  have hrun : s.run (before ++ .look :: later) = (s.run before).look.run later :=
    run_append s before (.look :: later)
  have hslot := (run_of_no_look (s := (s.run before).look) hlast).2
  rw [hrun, HexPad.take, hslot, pending, hk]
  rfl

end WaitScene

/-! ## Waiting in the small -/

/-- Who has the lock of the slot. -/
inductive Latch where
  | free
  /-- The waiter has it and is about to take the press. -/
  | taking
  /-- The waiter has it, has found no press and is about to look at the stop signal. -/
  | minding
  deriving DecidableEq

/-- A scene with the lock of the slot. -/
structure LockedScene where
  scene : WaitScene
  latch : Latch

/-- One small thing that happens. -/
inductive Move where
  /-- The waiter gets the lock. -/
  | lock
  /-- The waiter takes the press and is back. -/
  | take
  /-- The waiter finds no press. -/
  | miss
  /-- The waiter finds the stop signal raised and is back. -/
  | cancel
  /-- The waiter finds it down and sleeps until it gets the lock again. -/
  | sleep
  /-- Another thread acts. -/
  | other (a : Act)
  deriving DecidableEq

namespace Move

/-- What a small step is in the large: a look is done when it has come to its end. -/
def acts : Move → List Act
  | lock | miss => []
  | take | cancel | sleep => [.look]
  | other a => [a]

def other? : Move → Option Act
  | other a => some a
  | _ => none

end Move

/-- The small steps.  Only a store into the slot has to wait for the lock. -/
inductive Step : LockedScene → Move → LockedScene → Prop where
  | lock {s} : s.waiter = .waiting → Step ⟨s, .free⟩ .lock ⟨s, .taking⟩
  | take {s k} : s.pad.slot = some k →
      Step ⟨s, .taking⟩ .take ⟨{ s with pad := s.pad.take.2, waiter := .back (some k) }, .free⟩
  | miss {s} : s.pad.slot = none → Step ⟨s, .taking⟩ .miss ⟨s, .minding⟩
  | cancel {s} : s.stop = true →
      Step ⟨s, .minding⟩ .cancel ⟨{ s with waiter := .back none }, .free⟩
  | sleep {s} : s.stop = false → Step ⟨s, .minding⟩ .sleep ⟨s, .free⟩
  | enter {s latch} (k held) :
      Step ⟨s, latch⟩ (.other (.enter k held)) ⟨s.act (.enter k held), latch⟩
  | post {s} (k) : Step ⟨s, .free⟩ (.other (.post k)) ⟨s.act (.post k), .free⟩
  | raise {s latch} : Step ⟨s, latch⟩ (.other .raise) ⟨s.act .raise, latch⟩

inductive Steps : LockedScene → List Move → LockedScene → Prop where
  | nil {s} : Steps s [] s
  | cons {s m t moves u} : Step s m t → Steps t moves u → Steps s (m :: moves) u

/-- Who has the lock is still waiting, and no press comes in once it has found none. -/
structure LockedScene.Sound (s : LockedScene) : Prop where
  waiting : s.latch ≠ .free → s.scene.waiter = .waiting
  empty : s.latch = .minding → s.scene.pad.slot = none

variable {s t : LockedScene} {m : Move} {moves : List Move}

theorem Step.sound (hstep : Step s m t) (hs : s.Sound) : t.Sound := by
  cases hstep with
  | lock hwaiting => exact ⟨fun _ => hwaiting, nofun⟩
  | take hk => exact ⟨fun h => absurd rfl h, nofun⟩
  | miss hnone => exact ⟨fun _ => hs.waiting nofun, fun _ => hnone⟩
  | cancel hstop => exact ⟨fun h => absurd rfl h, nofun⟩
  | sleep hstop => exact ⟨fun h => absurd rfl h, nofun⟩
  | enter k held => exact ⟨hs.waiting, hs.empty⟩
  | post k => exact ⟨fun h => absurd rfl h, nofun⟩
  | raise => exact ⟨hs.waiting, hs.empty⟩

/-- A small step does in the large what it stands for. -/
theorem Step.simulates (hstep : Step s m t) (hs : s.Sound) : t.scene = s.scene.run m.acts := by
  cases hstep with
  | lock hwaiting => rfl
  | take hk => exact (WaitScene.look_of_pending (hs.waiting nofun) hk).symm
  | miss hnone => rfl
  | cancel hstop =>
      refine Eq.symm ((WaitScene.look_of_empty (hs.waiting nofun) (hs.empty rfl)).trans ?_)
      exact if_pos hstop
  | sleep hstop =>
      refine Eq.symm ((WaitScene.look_of_empty (hs.waiting nofun) (hs.empty rfl)).trans ?_)
      rw [hstop]
      rfl
  | enter k held => rfl
  | post k => rfl
  | raise => rfl

theorem Steps.sound (hsteps : Steps s moves t) (hs : s.Sound) : t.Sound := by
  induction hsteps with
  | nil => exact hs
  | cons hstep hrest ih => exact ih (hstep.sound hs)

theorem Steps.simulates (hsteps : Steps s moves t) (hs : s.Sound) :
    t.scene = s.scene.run (moves.flatMap Move.acts) := by
  induction hsteps with
  | nil => rfl
  | cons hstep hrest ih =>
      rw [ih (hstep.sound hs), hstep.simulates hs, List.flatMap_cons, WaitScene.run_append]

/-- Left alone, a waiter that has something to find comes back, with what is pending. -/
theorem LockedScene.Sound.back_alone (hs : s.Sound) (hwaiting : s.scene.waiter = .waiting)
    (hfound : s.scene.pad.slot ≠ none ∨ s.scene.stop = true) :
    ∃ own t, own.filterMap Move.other? = [] ∧ Steps s own t ∧
      t.scene.waiter = .back s.scene.pad.slot := by
  obtain ⟨scene, latch⟩ := s
  have hlooking : ∃ own t, own.filterMap Move.other? = [] ∧ Steps ⟨scene, .taking⟩ own t ∧
      t.scene.waiter = .back scene.pad.slot := by
    cases hslot : scene.pad.slot with
    | some k => exact ⟨[.take], _, rfl, .cons (.take hslot) .nil, rfl⟩
    | none =>
        have hstop : scene.stop = true := hfound.resolve_left (not_not.mpr hslot)
        exact ⟨[.miss, .cancel], _, rfl, .cons (.miss hslot) (.cons (.cancel hstop) .nil), rfl⟩
  cases latch with
  | free =>
      obtain ⟨own, t, hown, hsteps, hback⟩ := hlooking
      exact ⟨.lock :: own, t, hown, .cons (.lock hwaiting) hsteps, hback⟩
  | taking => exact hlooking
  | minding =>
      have hslot : scene.pad.slot = none := hs.empty rfl
      have hstop : scene.stop = true := hfound.resolve_left (not_not.mpr hslot)
      exact ⟨[.cancel], _, rfl, .cons (.cancel hstop) .nil, congrArg Waiter.back hslot.symm⟩

/-! ## Other threads -/

/-- These acts are those of the threads, each thread's in its own order; the threads may have
more to do. -/
inductive Interleaved : List (List Act) → List Act → Prop where
  | none {threads} : Interleaved threads []
  | next {threads acts a rest} (i : Nat) : threads[i]? = some (a :: rest) →
      Interleaved (threads.set i rest) acts → Interleaved threads (a :: acts)

theorem Interleaved.mem {threads : List (List Act)} {acts : List Act} {a : Act}
    (hacts : Interleaved threads acts) (ha : a ∈ acts) : ∃ thread ∈ threads, a ∈ thread := by
  induction hacts with
  | none => exact nomatch ha
  | @next threads acts b rest i hi hrest ih =>
      have hthread : b :: rest ∈ threads := List.mem_of_getElem? hi
      cases List.mem_cons.mp ha with
      | inl hab => exact ⟨b :: rest, hthread, List.mem_cons.mpr (.inl hab)⟩
      | inr hlater =>
          obtain ⟨thread, hmem, hin⟩ := ih hlater
          cases List.mem_or_eq_of_mem_set hmem with
          | inl hold => exact ⟨thread, hold, hin⟩
          | inr hnew => exact ⟨b :: rest, hthread, List.mem_cons_of_mem b (hnew ▸ hin)⟩

/-- Only a press of a key that the pad has is stored. -/
theorem KeyEvent.pressed_of_post {e : KeyEvent} {k : PadKey} (hk : .post k ∈ e.acts) :
    e.pressed = true ∧ e.key.toNat = k.val := by
  unfold acts at hk
  cases hkey : HexPad.keyOf? e.key with
  | none =>
      rw [hkey] at hk
      exact nomatch hk
  | some k' =>
      rw [hkey] at hk
      cases hpressed : e.pressed with
      | false => simp [hpressed] at hk
      | true =>
          have hsame : k = k' := by simpa [hpressed] using hk
          exact ⟨rfl, hsame ▸ HexPad.keyOf?_eq_some_iff.mp hkey⟩

/-- What is stored in an interleaving was pressed in one of its threads. -/
theorem exists_press_of_posted {producers : List (List KeyEvent)} {acts : List Act} {k : PadKey}
    (hacts : Interleaved (producers.map (·.flatMap KeyEvent.acts) ++ [[.raise]]) acts)
    (hk : .post k ∈ acts) :
    ∃ e ∈ producers.flatten, e.pressed = true ∧ e.key.toNat = k.val := by
  obtain ⟨thread, hthread, hin⟩ := hacts.mem hk
  cases List.mem_append.mp hthread with
  | inr hraise =>
      rw [List.mem_singleton.mp hraise] at hin
      exact nomatch List.mem_singleton.mp hin
  | inl hproducer =>
      obtain ⟨events, hevents, rfl⟩ := List.mem_map.mp hproducer
      obtain ⟨e, he, hpost⟩ := List.mem_flatMap.mp hin
      exact ⟨e, List.mem_flatten.mpr ⟨events, hevents, he⟩, KeyEvent.pressed_of_post hpost⟩

/-! ## No press is lost -/

/-- The acts of a path in the order in which they take effect. -/
def actsOf (moves : List Move) : List Act := moves.flatMap Move.acts

/-- What is stored on a path is stored by another thread. -/
theorem mem_other_of_posted {k : PadKey} (hk : .post k ∈ actsOf moves) :
    .post k ∈ moves.filterMap Move.other? := by
  obtain ⟨m, hm, hin⟩ := List.mem_flatMap.mp hk
  refine List.mem_filterMap.mpr ⟨m, hm, ?_⟩
  cases m with
  | other a => exact congrArg some (List.mem_singleton.mp hin).symm
  | lock | miss => exact nomatch hin
  | take | cancel | sleep => exact nomatch List.mem_singleton.mp hin

/-- A press that is pending was stored meanwhile or was pending before. -/
theorem WaitScene.posted_of_pending {s : WaitScene} {acts : List Act} {k : PadKey}
    (hk : s.pending acts = some k) : .post k ∈ acts ∨ s.pad.slot = some k := by
  unfold pending at hk
  cases hlast : lastOf Act.posted? acts with
  | none => exact .inr (by rwa [hlast] at hk)
  | some k' =>
      obtain ⟨a, ha, hposted⟩ := exists_of_lastOf hlast
      rw [hlast] at hk
      cases hk
      cases a with
      | post k'' =>
          cases hposted
          exact .inl ha
      | _ => cases hposted

/-- **No press is lost to cancellation.** Follow one wait in the small, among any number of
threads that report key events and one that raises the stop signal.  If the waiter comes back with
a key, that was the last press stored before its look, it is one of the pad's keys, pressed by a
thread or pending from the start, and it is out of the slot.  If it comes back without a key, the
stop signal was raised and no press had been stored, neither before the wait nor until that look.
The first look takes a press that is pending, even if the stop signal is raised by then, and what
is stored after the last look is there for the next reader.  A waiter with something to find is
never stuck: left alone, it comes back with what is pending. -/
theorem wait_loses_no_press {p : HexPad} {stop : Bool} {producers : List (List KeyEvent)}
    {moves : List Move} {t : LockedScene}
    (hothers : Interleaved (producers.map (·.flatMap KeyEvent.acts) ++ [[.raise]])
      (moves.filterMap Move.other?))
    (hsteps : Steps ⟨{ pad := p, stop := stop }, .free⟩ moves t) :
    t.scene = WaitScene.run { pad := p, stop := stop } (actsOf moves) ∧
    (∀ k, t.scene.waiter = .back (some k) → ∃ before later,
      actsOf moves = before ++ .look :: later ∧
      (lastOf Act.posted? before).or p.slot = some k ∧
      (p.slot = some k ∨ .post k ∈ before ∧
        ∃ e ∈ producers.flatten, e.pressed = true ∧ e.key.toNat = k.val) ∧
      t.scene.pad.slot = lastOf Act.posted? later) ∧
    (t.scene.waiter = .back none → ∃ before later,
      actsOf moves = before ++ .look :: later ∧
      (stop = true ∨ .raise ∈ before) ∧ p.slot = none ∧ (∀ k, .post k ∉ before) ∧
      t.scene.pad.slot = lastOf Act.posted? later) ∧
    (∀ before later k, actsOf moves = before ++ .look :: later → .look ∉ before →
      (lastOf Act.posted? before).or p.slot = some k → t.scene.waiter = .back (some k)) ∧
    (∀ before later k, actsOf moves = before ++ .look :: later → .look ∉ later →
      lastOf Act.posted? later = some k → t.scene.pad.take.1 = some k) ∧
    (t.scene.waiter = .waiting → t.scene.pad.slot ≠ none ∨ t.scene.stop = true →
      ∃ own u, own.filterMap Move.other? = [] ∧ Steps t own u ∧
        u.scene.waiter = .back t.scene.pad.slot) := by
  have hsound : LockedScene.Sound ⟨{ pad := p, stop := stop }, .free⟩ := ⟨fun _ => rfl, nofun⟩
  have hrun : t.scene = WaitScene.run { pad := p, stop := stop } (actsOf moves) :=
    hsteps.simulates hsound
  refine ⟨hrun, fun k hback => ?_, fun hback => ?_, fun before later k hsplit hfirst hk => ?_,
    fun before later k hsplit hlast hk => ?_, (hsteps.sound hsound).back_alone⟩
  · rw [hrun] at hback
    obtain ⟨before, later, hsplit, hends⟩ := WaitScene.ends_of_back rfl hback
    refine ⟨before, later, hsplit, hends.taken, ?_, ?_⟩
    · cases WaitScene.posted_of_pending hends.taken with
      | inr hearlier => exact .inl hearlier
      | inl hposted =>
          have hmem : .post k ∈ actsOf moves := hsplit ▸ List.mem_append_left _ hposted
          exact .inr ⟨hposted, exists_press_of_posted hothers (mem_other_of_posted hmem)⟩
    · rw [hrun, hsplit]
      exact hends.slot
  · rw [hrun] at hback
    obtain ⟨before, later, hsplit, hends⟩ := WaitScene.ends_of_back rfl hback
    have hnone := Option.or_eq_none_iff.mp hends.taken
    refine ⟨before, later, hsplit, hends.stop rfl, hnone.2, fun k hk => ?_, ?_⟩
    · exact Option.some_ne_none k (lastOf_eq_none_iff.mp hnone.1 _ hk)
    · rw [hrun, hsplit]
      exact hends.slot
  · rw [hrun, hsplit]
    exact WaitScene.back_of_first_look rfl hfirst hk
  · rw [hrun, hsplit]
    exact WaitScene.take_of_last_look hlast hk

/-- The waiter misses key 4, which is about to be stored, and the stop signal is raised before it
looks for it; both presses come in when it has let the lock go. -/
def cancelled : List Move :=
  [.lock, .other (.enter 0x4 true), .miss, .other .raise, .other (.enter 0xe true), .cancel,
    .other (.post 0x4), .other (.post 0xe)]

/-- The press that came in last stays for the next reader; and where key 3 was pressed before the
wait, it is taken although the stop signal is raised. -/
theorem wait_loses_no_press_cancelled :
    (∃ t, Steps ⟨{ pad := .initial }, .free⟩ cancelled t ∧
      t.scene.waiter = .back none ∧ t.scene.pad.take.1 = some 0xe) ∧
    (∃ t, Steps ⟨{ pad := HexPad.initial.accept ⟨0x3, true⟩, stop := true }, .free⟩
        [.lock, .take] t ∧ t.scene.waiter = .back (some 0x3)) := by
  constructor
  · have hothers : Interleaved
        ([[⟨0x4, true⟩, ⟨0x4, false⟩], [⟨0xe, true⟩]].map (·.flatMap KeyEvent.acts) ++ [[.raise]])
        (cancelled.filterMap Move.other?) :=
      .next 0 rfl (.next 2 rfl (.next 1 rfl (.next 0 rfl (.next 1 rfl .none))))
    have hsteps : Steps ⟨{ pad := .initial, stop := false }, .free⟩ cancelled _ :=
      .cons (.lock rfl) (.cons (.enter _ _) (.cons (.miss rfl) (.cons .raise (.cons (.enter _ _)
        (.cons (.cancel rfl) (.cons (.post _) (.cons (.post _) .nil)))))))
    obtain ⟨-, -, -, -, hkept, -⟩ := wait_loses_no_press hothers hsteps
    exact ⟨_, hsteps, rfl, hkept [.enter 0x4 true, .raise, .enter 0xe true] [.post 0x4, .post 0xe]
      0xe rfl (by decide) rfl⟩
  · have hothers : Interleaved (([] : List (List KeyEvent)).map (·.flatMap KeyEvent.acts) ++
        [[.raise]]) ([.lock, .take].filterMap Move.other?) :=
      .none
    have hsteps : Steps ⟨{ pad := HexPad.initial.accept ⟨0x3, true⟩, stop := true }, .free⟩
        [.lock, .take] _ :=
      .cons (.lock rfl) (.cons (.take rfl) .nil)
    obtain ⟨-, -, -, hfirst, -, -⟩ := wait_loses_no_press hothers hsteps
    exact ⟨_, hsteps, hfirst [] [] 0x3 rfl List.not_mem_nil rfl⟩

end Chip8Vm
