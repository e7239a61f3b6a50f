import Chip8Vm.Pace.Script
import Chip8Vm.Proofs.Pace.Starts

/-!
# Chip8Vm.Proofs.Pace.Ending

However a run ends.

An `Account` is what a part of a run amounts to: which ticks it started, how they went, and
what was counted.  The turns of catching up, the passes and the whole loop all give one
(`account_turn`, `account_catchUp`, `account_pass`, `account_loop`), and two parts that follow
each other give the account of both (`Account.trans`).  `run_accounts` reads off it what a
run has come to, on any clock and whenever it is stopped.
-/

namespace Chip8Vm

/-- Has the run come back, in good order or with a fault? -/
def Ending.isBack : Ending → Bool
  | stopped | failed _ => true
  | overflow | unfinished => false

namespace Run

variable {σ : Type} {w h : Nat} {clock : Clock σ} {horizon start : Nat}
  {a b r : Run σ w h} {ts us : List (Started w h)} {e : Option Ending}

/-! ## Accounts -/

/-- What the ticks say of how a part of a run ended: none failed, or the last one did, with the
fault that the run ended with. -/
def Faults (ts : List (Started w h)) : Option Ending → Prop
  | some (.failed f) =>
    ∃ before t, ts = before ++ [t] ∧ t.answer = .error f ∧ ∀ s ∈ before, s.answer = .ok ()
  | _ => ∀ t ∈ ts, t.answer = .ok ()

/-- Why a run has no time or no number to go on with. -/
inductive OutOfRange (clock : Clock σ) (start : Nat) (b : Run σ w h) : Prop where
  /-- The clock shows no span. -/
  | reading (hnow : Span.longest < clock.now b.clock)
  /-- The deadline of the next tick of either kind is past the longest span. -/
  | deadline {c : Cadence} (hc : c = b.pacer.timers ∨ c = b.pacer.instructions)
      (hlong : Span.longest < start + c.offset)
  /-- As many ticks of either kind were counted as can be. -/
  | counter {c : Cadence} (hc : c = b.pacer.timers ∨ c = b.pacer.instructions)
      (hmany : Cadence.maxTicks ≤ c.ticks + 1)

/-- Both cadences count from this time on. -/
def Began (start : Nat) (p : Pacer) : Prop :=
  p.timers.origin = start ∧ p.instructions.origin = start

/-- What a part of a run amounts to that led from `a` to `b` and started these ticks: it ended
the run, or nothing did yet. -/
structure Account (clock : Clock σ) (start : Nat) (a : Run σ w h) (ts : List (Started w h))
    (e : Option Ending) (b : Run σ w h) : Prop where
  /-- No tick was started once the stop signal was raised. -/
  minded : ∀ t ∈ ts, t.console.isStopped = false
  /-- No tick was started once one had failed. -/
  faults : Faults ts e
  leads : Leads a.console ts b.console
  tally : e ≠ some .overflow → b.tally = a.tally.after ts
  began : Began start b.pacer
  outOfRange : e = some .overflow → OutOfRange clock start b

theorem Faults.append (hts : Faults ts none) (hus : Faults us e) : Faults (ts ++ us) e := by
  have hall : (∀ t ∈ us, t.answer = .ok ()) → ∀ t ∈ ts ++ us, t.answer = .ok () :=
    fun hus t ht => (List.mem_append.mp ht).elim (hts t) (hus t)
  match e with
  | some (.failed f) =>
      obtain ⟨before, t, rfl, ht, hbefore⟩ := hus
      refine ⟨ts ++ before, t, (List.append_assoc _ _ _).symm, ht, fun s hs => ?_⟩
      exact (List.mem_append.mp hs).elim (hts s) (hbefore s)
  | none => exact hall hus
  | some .stopped => exact hall hus
  | some .overflow => exact hall hus
  | some .unfinished => exact hall hus

theorem account_nil (clock : Clock σ) (ha : Began start a.pacer) :
    Account clock start a [] none a where
  minded := List.forall_mem_nil _
  faults := List.forall_mem_nil _
  leads := .nil _
  tally _ := rfl
  began := ha
  outOfRange := nofun

/-- A part that does not end the run, and what follows it. -/
theorem Account.trans {c : Run σ w h} (hts : Account clock start a ts none b)
    (hus : Account clock start b us e c) : Account clock start a (ts ++ us) e c where
  minded t ht := (List.mem_append.mp ht).elim (hts.minded t) (hus.minded t)
  faults := hts.faults.append hus.faults
  leads := hts.leads.trans hus.leads
  tally he := by rw [hus.tally he, hts.tally nofun, Tally.after_append]
  began := hus.began
  outOfRange := hus.outOfRange

/-- Where a run that goes on is said to have ended without a fault, what it amounts to is the
same. -/
theorem Account.ending (hts : Account clock start a ts none b) {e : Ending}
    (hfaults : Faults ts none → Faults ts (some e)) (he : e ≠ .overflow) :
    Account clock start a ts (some e) b where
  minded := hts.minded
  faults := hfaults hts.faults
  leads := hts.leads
  tally _ := hts.tally nofun
  began := hts.began
  outOfRange h := absurd (Option.some.inj h) he

theorem Account.note (hts : Account clock start a ts e b) (notes : List Note) :
    Account clock start a ts e (b.note notes) where
  minded := hts.minded
  faults := hts.faults
  leads := hts.leads.note notes
  tally := hts.tally
  began := hts.began
  outOfRange h := by
    cases hts.outOfRange h with
    | reading hnow => exact .reading hnow
    | deadline hc hlong => exact .deadline hc hlong
    | counter hc hmany => exact .counter hc hmany

/-- Nothing that others do is counted. -/
theorem tally_elapse (r : Run σ w h) (meanwhile : σ × List Happening) :
    (r.elapse meanwhile).tally = r.tally := by
  have hexecuted := Console.executed_happenings meanwhile.2 r.console
  simp only [tally, elapse, hexecuted]

theorem account_elapse (clock : Clock σ) (ha : Began start a.pacer)
    (meanwhile : σ × List Happening) :
    Account clock start a [] none (a.elapse meanwhile) where
  minded := List.forall_mem_nil _
  faults := List.forall_mem_nil _
  leads := (Leads.nil _).happenings _
  tally _ := tally_elapse a meanwhile
  began := ha
  outOfRange := nofun

/-! ## Turns -/

theorem Tally.after_singleton (n : Tally) (t : Started w h) :
    n.after [t] = ⟨n.timers + (t.succeeds .timer).toNat,
      n.instructions + (t.succeeds .instruction).toNat, n.executed + t.executes.toNat⟩ := by
  simp only [Tally.after, List.countP_singleton]
  cases t.succeeds .timer <;> cases t.succeeds .instruction <;> cases t.executes <;> rfl

/-- A deadline that is no span is too long after the start. -/
theorem outOfRange_of_upcoming? (ha : Began start a.pacer) (hu : a.pacer.upcoming? = none)
    (hb : b.pacer = a.pacer) : OutOfRange clock start b := by
  have hlong : ∀ c : Cadence, c.origin = start → c.next? = none →
      Span.longest < start + c.offset := by
    intro c hc hnext
    simpa [Cadence.next?, Span.add?, hc] using hnext
  cases htimer : a.pacer.timers.next? with
  | none => exact .deadline (.inl (hb ▸ rfl)) (hlong _ ha.1 htimer)
  | some timer =>
      cases hinstruction : a.pacer.instructions.next? with
      | none => exact .deadline (.inr (hb ▸ rfl)) (hlong _ ha.2 hinstruction)
      | some instruction =>
          rw [Pacer.upcoming?_eq htimer hinstruction] at hu
          split at hu <;> cases hu

/-- A tick that cannot be counted finds its counter at the end. -/
theorem outOfRange_of_advance? {tick : Tick} (hn : a.pacer.advance? tick = none)
    (hb : b.pacer = a.pacer) : OutOfRange clock start b := by
  have hmany : ∀ c : Cadence, c.advance? = none → Cadence.maxTicks ≤ c.ticks + 1 := by
    intro c hc
    simpa [Cadence.advance?] using hc
  cases tick with
  | timer => exact .counter (.inl (hb ▸ rfl)) (hmany _ (Option.map_eq_none_iff.mp hn))
  | instruction => exact .counter (.inr (hb ▸ rfl)) (hmany _ (Option.map_eq_none_iff.mp hn))

/-- What a tick that was started adds to what is counted. -/
theorem executed_of_serve {tick : Tick} {out : Except Fault Unit} {c : Console w h}
    (hc : r.console.serve tick = (out, c)) :
    c.executed = r.console.executed + (⟨tick, r.console⟩ : Started w h).executes.toNat := by
  rw [← Console.executed_serve ⟨tick, r.console⟩, hc]

variable {tick : Tick} {c : Console w h}

theorem account_served {q : Pacer} (hr : Began start r.pacer)
    (hs : r.console.isStopped = false) (hc : r.console.serve tick = (.ok (), c))
    (hq : r.pacer.advance? tick = some q) :
    Account clock start r [⟨tick, r.console⟩] none { r with pacer := q, console := c } := by
  have hanswer : (⟨tick, r.console⟩ : Started w h).answer = .ok () := congrArg Prod.fst hc
  obtain ⟨htimers, hinstructions, horigins⟩ := Pacer.ticks_of_advance? hq
  constructor
  · simpa using hs
  · simpa [Faults] using hanswer
  · exact .of_serve hc
  · intro _
    have hexecuted := executed_of_serve hc
    rw [Tally.after_singleton]
    simp [tally, htimers, hinstructions, hexecuted, Started.succeeds, hanswer, Except.isOk,
      Except.toBool]
  · exact ⟨horigins.1.trans hr.1, horigins.2.trans hr.2⟩
  · intro he
    cases he

theorem account_failed {f : Fault} (hr : Began start r.pacer) (hs : r.console.isStopped = false)
    (hc : r.console.serve tick = (.error f, c)) :
    Account clock start r [⟨tick, r.console⟩] (some (.failed f))
      { r with console := c } := by
  have hanswer : (⟨tick, r.console⟩ : Started w h).answer = .error f := congrArg Prod.fst hc
  constructor
  · simpa using hs
  · exact ⟨[], _, rfl, hanswer, List.forall_mem_nil _⟩
  · exact .of_serve hc
  · intro _
    have hexecuted := executed_of_serve hc
    rw [Started.executes_of_error hanswer] at hexecuted
    rw [Tally.after_singleton]
    simp [tally, hexecuted, Started.succeeds, Started.executes_of_error hanswer, hanswer,
      Except.isOk, Except.toBool]
  · exact hr
  · intro he
    cases he

theorem account_uncounted (hr : Began start r.pacer) (hs : r.console.isStopped = false)
    (hc : r.console.serve tick = (.ok (), c)) (hn : r.pacer.advance? tick = none) :
    Account clock start r [⟨tick, r.console⟩] (some .overflow) { r with console := c } := by
  have hanswer : (⟨tick, r.console⟩ : Started w h).answer = .ok () := congrArg Prod.fst hc
  constructor
  · simpa using hs
  · simpa [Faults] using hanswer
  · exact .of_serve hc
  · exact fun he => absurd rfl he
  · exact hr
  · exact fun _ => outOfRange_of_advance? hn rfl

/-- How a turn ends the run, if it does. -/
def Caught.ending? : Caught σ w h → Option Ending
  | (.error e, _) => some e
  | (.ok _, _) => none

/-- A turn that ends the catching up. -/
theorem account_turn {out : Caught σ w h} (hout : TurnCase clock horizon a (.inl out))
    (ha : Began start a.pacer) :
    Account clock start a (a.started? clock horizon).toList out.ending? out.2 := by
  have hlapse : Account clock start a [] none (a.lapse clock) := account_elapse clock ha _
  cases hout with
  | stopped hs =>
      rw [started?_eq_none (.inl hs)]
      exact (hlapse.ending (e := .stopped) id nofun).note _
  | overflow hs hu =>
      rw [started?_eq_none (.inr fun tick due hdue => nomatch hu.symm.trans hdue)]
      exact { hlapse with
        tally := fun he => absurd rfl he
        outOfRange := fun _ => outOfRange_of_upcoming? ha hu rfl }
  | caughtUp hs hu hd =>
      refine started?_eq_none (.inr fun tick due hdue => ?_) ▸ hlapse
      cases hu.symm.trans hdue
      exact hd
  | failed hs hu hd hc =>
      rw [started?_eq_some hs hu hd]
      exact hlapse.trans (account_failed (r := a.lapse clock) ha hs hc)
  | uncounted hs hu hd hc hn =>
      -- the tick was carried out, so it is among those that were started
      rw [started?_eq_some hs hu hd]
      exact hlapse.trans (account_uncounted (r := a.lapse clock) ha hs hc hn)

/-- A turn after which the catching up goes on. -/
theorem account_turn_served (hr : TurnCase clock horizon a (.inr r)) (ha : Began start a.pacer) :
    Account clock start a (a.started? clock horizon).toList none r := by
  have hlapse : Account clock start a [] none (a.lapse clock) := account_elapse clock ha _
  cases hr with
  | served hs hu hd hc hq =>
      rw [started?_eq_some hs hu hd]
      exact hlapse.trans (account_served (r := a.lapse clock) ha hs hc hq)

/-! ## Catching up, passes and the loop -/

theorem account_catchUp (clock : Clock σ) (horizon : Nat) (ha : Began start a.pacer) :
    Account clock start a (a.catchUpStarts clock horizon)
      (a.catchUp clock horizon).ending? (a.catchUp clock horizon).2 := by
  refine catchUp_starts_induct (fun a ts out => Began start a.pacer →
    Account clock start a ts out.ending? out.2) (fun a out hout ha => account_turn hout ha)
    (fun a r ts out hr ih ha => ?_) a ha
  have hturn := account_turn_served hr ha
  exact hturn.trans (ih hturn.began)

/-- A pass starts the ticks of its catching up. -/
theorem account_pass (clock : Clock σ) (limit : Option Nat) (now : Nat) (ha : Began start a.pacer) :
    Account clock start a (a.catchUpStarts clock (Pacer.capped limit now))
      (a.pass clock limit now).ending? (a.pass clock limit now).2 := by
  have hcaught := account_catchUp clock (Pacer.capped limit now) ha
  unfold pass
  generalize a.catchUp clock (Pacer.capped limit now) = out at hcaught ⊢
  obtain ⟨e | due, b⟩ := out
  · exact hcaught
  · cases hreached : Pacer.reached limit now with
    | true => exact (hcaught.ending (e := .stopped) id nofun).note _
    | false => exact hcaught

theorem outOfRange_of_read? (hnow : clock.read? a.clock = none) :
    OutOfRange clock start a :=
  .reading (by simpa [Clock.read?, Span.add?] using hnow)

theorem account_loop (clock : Clock σ) (limit : Option Nat) (sleeps : Nat)
    (ha : Began start a.pacer) :
    Account clock start a (a.loopStarts clock limit sleeps)
      (some (a.loop clock limit sleeps).1) (a.loop clock limit sleeps).2 := by
  -- one pass for each sleep: its account, the sleep's, and by induction that of what follows
  induction sleeps using Nat.strongRecOn generalizing a with
  | ind sleeps ih =>
      unfold loop loopStarts
      cases hread : clock.read? a.clock with
      | none =>
          exact { account_nil clock ha with
            tally := fun he => absurd rfl he
            outOfRange := fun _ => outOfRange_of_read? hread }
      | some now =>
          have hpass := account_pass clock limit now ha
          simp only
          generalize a.pass clock limit now = out at hpass ⊢
          obtain ⟨e | due, b⟩ := out
          · simpa [Caught.ending?] using hpass
          · cases sleeps with
            | zero => simpa using hpass.ending (e := .unfinished) id (by simp)
            | succ sleeps =>
                have hslept := account_elapse clock hpass.began
                  (clock.sleepUntil due b.clock)
                have hlapsed := account_elapse clock hslept.began
                  (clock.lapse (b.sleepUntil clock due).clock)
                have hrest := ih sleeps (Nat.lt_succ_self _) hlapsed.began
                exact hpass.trans (hslept.trans (hlapsed.trans hrest))

/-! ## Whole runs -/

/-- How a run begins, and what it amounts to if it comes as far as its loop. -/
inductive StartCase (clock : Clock σ) (r : Run σ w h) :
    List (Started w h) → Ending × Run σ w h → Prop where
  /-- The clock shows no span. -/
  | unreadable (hnow : Span.longest < clock.now r.clock) : StartCase clock r [] (.overflow, r)
  /-- The limit is past the longest span. -/
  | unlimited {l : Nat} {b : Run σ w h} (hl : r.pacer.limit = some l)
      (hlong : Span.longest < clock.now r.clock + l) : StartCase clock r [] (.overflow, b)
  /-- The first picture cannot be shown. -/
  | unshown {f : Fault} {c : Console w h} (hc : r.console.present = (.error f, c)) :
      StartCase clock r []
        (.failed f, { r with pacer := r.pacer.restart (clock.now r.clock), console := c })
  /-- The first picture is shown, and the ticks follow. -/
  | shown {c : Console w h} {ts : List (Started w h)} {out : Ending × Run σ w h}
      (hc : r.console.present = (.ok (), c))
      (hout : Account clock (clock.now r.clock)
        { r with pacer := r.pacer.restart (clock.now r.clock), console := c } ts (some out.1)
        out.2) :
      StartCase clock r ts out

theorem startCase (clock : Clock σ) (sleeps : Nat) (hnew : r.pacer.stopped = false) :
    StartCase clock r (r.starts clock sleeps) (r.start clock sleeps) := by
  unfold starts Run.start
  rw [if_neg (by simp [hnew])]
  cases hread : clock.read? r.clock with
  | none => exact .unreadable (by simpa [Clock.read?, Span.add?] using hread)
  | some now =>
      obtain rfl : clock.now r.clock = now := by
        simpa [Clock.read?, Span.add?] using (Option.ite_none_right_eq_some.mp hread).2
      simp only [Pacer.begin]
      cases hlimit : (r.pacer.restart (clock.now r.clock)).limit.mapM
          (Span.add? (clock.now r.clock)) with
      | none =>
          change r.pacer.limit.mapM _ = none at hlimit
          cases hl : r.pacer.limit with
          | none => simp [hl] at hlimit
          | some l =>
              refine .unlimited hl ?_
              simpa [hl, Span.add?] using hlimit
      | some limit =>
          rcases hc : r.console.present with ⟨f | u, c⟩
          · exact .unshown hc
          · refine .shown hc ?_
            have hbegan : Began (clock.now r.clock) (r.pacer.restart (clock.now r.clock)) :=
              ⟨rfl, rfl⟩
            have hlapsed := account_elapse clock (a := { r with
              pacer := r.pacer.restart (clock.now r.clock), console := c }) hbegan
              (clock.lapse r.clock)
            exact hlapsed.trans (account_loop clock limit sleeps hlapsed.began)

/-- A run ends as it does without its last note, and its pacer is done if it came back. -/
theorem run_eq_start (clock : Clock σ) (sleeps : Nat) (hnew : r.pacer.stopped = false) :
    run clock sleeps r =
      ((r.start clock sleeps).1,
        if (r.start clock sleeps).1.isBack then (r.start clock sleeps).2.finish
        else (r.start clock sleeps).2) := by
  unfold run
  rw [if_neg (by simp [hnew])]
  obtain ⟨e, b⟩ := r.start clock sleeps
  cases e <;> rfl

/-! ### What a run has come to -/

/-- The ticks before any other have succeeded. -/
theorem Faults.before (hts : Faults ts e) {before later : List (Started w h)} {t : Started w h}
    (hsplit : ts = before ++ t :: later) : ∀ s ∈ before, s.answer = .ok () := by
  intro s hs
  match e with
  | some (.failed f) =>
      obtain ⟨init, last, hts, -, hinit⟩ := hts
      have hinits : init = before ++ (t :: later).dropLast := by
        simpa using congrArg List.dropLast (hts.symm.trans hsplit)
      exact hinit s (hinits ▸ List.mem_append_left _ hs)
  | none | some .stopped | some .overflow | some .unfinished =>
      exact hts s (hsplit ▸ List.mem_append_left _ hs)

/-- A run ends with a fault of its ticks exactly when one of them failed with it. -/
theorem Faults.failed_iff {e : Ending} (hts : Faults ts (some e)) (f : Fault) :
    e = .failed f ↔ ∃ t ∈ ts, t.answer = .error f := by
  constructor
  · rintro rfl
    obtain ⟨before, t, rfl, ht, -⟩ := hts
    exact ⟨t, List.mem_append_right _ (List.mem_singleton_self t), ht⟩
  · rintro ⟨t, hmem, ht⟩
    match e with
    | .failed g =>
        obtain ⟨before, last, rfl, hlast, hbefore⟩ := hts
        obtain hmem | hmem := List.mem_append.mp hmem
        · exact nomatch (hbefore t hmem).symm.trans ht
        · cases List.mem_singleton.mp hmem
          cases hlast.symm.trans ht
          rfl
    | .stopped | .overflow | .unfinished => exact nomatch (hts t hmem).symm.trans ht

/-- Where every failure is told by a run's ending, a run that came back and tells of none has
stopped in good order. -/
theorem stopped_iff_of_failed_iff {e : Ending} {shown : Except Fault Unit}
    (hback : e.isBack = true)
    (hfailed : ∀ f, e = .failed f ↔ shown = .error f ∨ ∃ t ∈ ts, t.answer = .error f) :
    e = .stopped ↔ shown = .ok () ∧ ∀ t ∈ ts, t.answer = .ok () := by
  constructor
  · rintro rfl
    have hnone : ∀ f, ¬(shown = .error f ∨ ∃ t ∈ ts, t.answer = .error f) :=
      fun f hf => nomatch (hfailed f).mpr hf
    constructor
    · rcases hshown : shown with f | u
      · exact absurd (.inl hshown) (hnone f)
      · rfl
    · intro t ht
      rcases hanswer : t.answer with f | u
      · exact absurd (.inr ⟨t, ht, hanswer⟩) (hnone f)
      · rfl
  · rintro ⟨hshown, hall⟩
    match e with
    | .stopped => rfl
    | .failed f =>
        obtain hf | ⟨t, ht, hf⟩ := (hfailed f).mp rfl
        · exact nomatch hshown.symm.trans hf
        · exact nomatch (hall t ht).symm.trans hf

/-- What a run has come to that came back: the fault that it ended with, if any; what was
counted; and that its pacer is done. -/
structure Settled (r : Run σ w h) (ts : List (Started w h)) (e : Ending) (b : Run σ w h) :
    Prop where
  /-- The ticks that were started are all that was done to the console, besides what others did
  and what was noted. -/
  leads : Leads r.console.present.2 ts b.console
  failed : ∀ f, e = .failed f ↔ r.console.present.1 = .error f ∨ ∃ t ∈ ts, t.answer = .error f
  stopped : e = .stopped ↔ r.console.present.1 = .ok () ∧ ∀ t ∈ ts, t.answer = .ok ()
  timers : b.pacer.timers.ticks = ts.countP (Started.succeeds .timer)
  instructions : b.pacer.instructions.ticks = ts.countP (Started.succeeds .instruction)
  /-- The steps that succeeded have carried out an instruction, or were idle. -/
  executed : b.pacer.instructions.ticks + r.console.executed =
    b.console.executed + ts.countP Started.idles
  done : b.pacer.stopped = true
  /-- A pacer that is done leaves any console and any clock as they are. -/
  later : ∀ {τ : Type} {w' h' : Nat} (clock : Clock τ) (sleeps : Nat) (s : τ)
    (c : Console w' h'), run clock sleeps ⟨b.pacer, c, s⟩ = (.stopped, ⟨b.pacer, c, s⟩)

variable {out : Ending × Run σ w h}

theorem StartCase.minded (hcase : StartCase clock r ts out) :
    ∀ t ∈ ts, t.console.isStopped = false := by
  cases hcase with
  | unreadable | unlimited | unshown => exact List.forall_mem_nil _
  | shown hc hout => exact hout.minded

theorem StartCase.faults (hcase : StartCase clock r ts out)
    {before later : List (Started w h)} {t : Started w h} (hsplit : ts = before ++ t :: later) :
    ∀ s ∈ before, s.answer = .ok () := by
  cases hcase with
  | unreadable | unlimited | unshown => exact absurd hsplit (by simp)
  | shown hc hout => exact hout.faults.before hsplit

/-- A run ends with a fault exactly when the first picture or a tick failed with it. -/
theorem StartCase.failed_iff (hcase : StartCase clock r ts out) (hback : out.1.isBack = true)
    (f : Fault) :
    out.1 = .failed f ↔ r.console.present.1 = .error f ∨ ∃ t ∈ ts, t.answer = .error f := by
  cases hcase with
  | unreadable | unlimited => exact nomatch hback
  | unshown hc => simp [hc]
  | shown hc hout => simpa [hc] using hout.faults.failed_iff f

/-- What a run counts starts at zero, and its ticks add to it. -/
theorem StartCase.tally (hcase : StartCase clock r ts out) (hback : out.1.isBack = true) :
    out.2.tally = (⟨0, 0, r.console.executed⟩ : Tally).after ts := by
  have hpresent {shown : Except Fault Unit} {c : Console w h}
      (hc : r.console.present = (shown, c)) : r.console.executed = c.executed :=
    congrArg (fun p => p.2.executed) hc
  cases hcase with
  | unreadable | unlimited => exact nomatch hback
  | unshown hc => simp [Run.tally, Tally.after, hpresent hc, Pacer.restart, Cadence.restart]
  | shown hc hout =>
      rw [hout.tally (fun he => by simp [Option.some.inj he, Ending.isBack] at hback)]
      simp [Run.tally, hpresent hc, Pacer.restart, Cadence.restart]

theorem StartCase.leads (hcase : StartCase clock r ts out) (hback : out.1.isBack = true) :
    Leads r.console.present.2 ts out.2.console := by
  cases hcase with
  | unreadable | unlimited => exact nomatch hback
  | unshown hc =>
      rw [hc]
      exact .nil _
  | shown hc hout =>
      rw [hc]
      exact hout.leads

theorem StartCase.outOfRange (hcase : StartCase clock r ts out) (hout : out.1 = .overflow) :
    (∃ l, r.pacer.limit = some l ∧ Span.longest < clock.now r.clock + l) ∨
      OutOfRange clock (clock.now r.clock) out.2 := by
  cases hcase with
  | unreadable hnow => exact .inr (.reading hnow)
  | unlimited hl hlong => exact .inl ⟨_, hl, hlong⟩
  | unshown hc => exact nomatch hout
  | shown hc haccount => exact .inr (haccount.outOfRange (congrArg some hout))

/-- A run that came back is settled once its last note is made. -/
theorem settled_finish {e : Ending} {b : Run σ w h} (hcase : StartCase clock r ts (e, b))
    (hback : e.isBack = true) : Settled r ts e b.finish := by
  have htally := hcase.tally hback
  have htimers := congrArg Tally.timers htally
  have hinstructions := congrArg Tally.instructions htally
  have hexecuted := congrArg Tally.executed htally
  simp only [Run.tally, Tally.after, Nat.zero_add] at htimers hinstructions hexecuted
  have hidle := Started.countP_succeeds_eq ts
  exact {
    leads := (hcase.leads hback).note _
    failed := hcase.failed_iff hback
    stopped := stopped_iff_of_failed_iff hback (hcase.failed_iff hback)
    timers := htimers
    instructions := hinstructions
    executed := by
      have hticks : b.finish.pacer.instructions.ticks = b.pacer.instructions.ticks := rfl
      have hcount : b.finish.console.executed = b.console.executed := rfl
      omega
    done := rfl
    later := fun _ _ _ _ => rfl }

/-- However a run ends, on any clock and whatever others do meanwhile: it starts no tick once
the stop signal is raised or a tick has failed; it runs out of time or numbers only where they
end; and if it comes back, then with the fault of the first picture or of a tick exactly when
there was one, with counters that agree with the ticks that it started, and for good. -/
theorem run_accounts (clock : Clock σ) (sleeps : Nat) (r : Run σ w h)
    (hnew : r.pacer.stopped = false) :
    (∀ before t later, r.starts clock sleeps = before ++ t :: later →
        t.console.isStopped = false ∧ ∀ s ∈ before, s.answer = .ok ()) ∧
      ((run clock sleeps r).1 = .overflow →
        (∃ l, r.pacer.limit = some l ∧ Span.longest < clock.now r.clock + l) ∨
          OutOfRange clock (clock.now r.clock) (run clock sleeps r).2) ∧
      ((run clock sleeps r).1.isBack = true →
        Settled r (r.starts clock sleeps) (run clock sleeps r).1 (run clock sleeps r).2) := by
  have hcase := startCase clock sleeps hnew
  rw [run_eq_start clock sleeps hnew]
  refine ⟨fun before t later hsplit => ⟨?_, hcase.faults hsplit⟩, fun hout => ?_, fun hback => ?_⟩
  · exact hcase.minded t (hsplit ▸ List.mem_append_right _ List.mem_cons_self)
  · have hnot : (r.start clock sleeps).1.isBack = false := by
      simp only at hout
      rw [hout]
      rfl
    rw [if_neg (by simp [hnot])]
    exact hcase.outOfRange hout
  · rw [if_pos hback]
    exact settled_finish hcase hback

/-- A jump to itself at the nominal rate and without a limit; the second sleep raises the stop
signal. -/
def impatient : Run Script 8 4 where
  pacer := .ofRate 500 none
  console := ((Console.initial 8 4 0).load { bytes := [0x12, 0x00] }).2
  clock := { patience := some 2 }

/-- The jump is carried out once, and the stop signal ends the run in good order. -/
theorem run_accounts_impatient :
    impatient.pacer.stopped = false ∧ (run Script.clock 5 impatient).1 = .stopped ∧
    (∀ t ∈ impatient.starts Script.clock 5, t.answer = .ok ()) ∧
    (impatient.starts Script.clock 5).countP (Started.succeeds .instruction) = 1 ∧
    (run Script.clock 5 impatient).2.pacer.stopped = true := by
  have hnew : impatient.pacer.stopped = false := rfl
  have hending : (run Script.clock 5 impatient).1 = .stopped := by decide +kernel
  have hticks : (run Script.clock 5 impatient).2.pacer.instructions.ticks = 1 := by
    decide +kernel
  have hsettled := (run_accounts Script.clock 5 impatient hnew).2.2 (by rw [hending]; rfl)
  exact ⟨hnew, hending, (hsettled.stopped.mp hending).2, hsettled.instructions.symm.trans hticks,
    hsettled.done⟩

end Run

end Chip8Vm
