import Chip8Vm.Proofs.Console.Faults

/-!
# Chip8Vm.Proofs.Console.Nesting

Calls and returns nest.

A `Passage` is a call or a return that was carried out; the passages of a history are all
that is needed to say which subroutines are open and where a return goes.
`Passage.Innermost` says which call a return matches, by the shape of the history alone:
what stands after the call is balanced.

* `Passage.innermost_iff` — the innermost call is what is left on top after cancelling;
* `nestCase` — what an operation does to the call stack and to the passages;
* `subroutines_nest` — the main theorem, about every history of a new console.
-/

namespace Chip8Vm

/-- A subroutine was opened by the call at an address, or one was closed. -/
inductive Passage where
  | call (a : UInt16)
  | ret
  deriving DecidableEq, Repr

/-! ## Matching calls and returns -/

namespace Passage

def isCall : Passage → Bool
  | call _ => true
  | ret => false

/-- Every call is answered by a return, and every return answers a call. -/
inductive Balanced : List Passage → Prop where
  | nil : Balanced []
  | nest (a : UInt16) {inner rest : List Passage} (hinner : Balanced inner)
      (hrest : Balanced rest) : Balanced (call a :: (inner ++ ret :: rest))

theorem Balanced.append {l r : List Passage} (hl : Balanced l) (hr : Balanced r) :
    Balanced (l ++ r) := by
  induction hl with
  | nil => exact hr
  | @nest a inner rest hinner hrest _ ih =>
      rw [List.cons_append, List.append_assoc, List.cons_append]
      exact .nest a hinner ih

/-- The call at `a` is the last that no return answers: the one that a return would match. -/
def Innermost (past : List Passage) (a : UInt16) : Prop :=
  ∃ before inner, past = before ++ call a :: inner ∧ Balanced inner

/-- The open calls after one more passage, innermost first. -/
def pass (opened : List UInt16) : Passage → List UInt16
  | call a => a :: opened
  | ret => opened.tail

/-- The calls that are open after some passages, innermost first. -/
def opened (past : List Passage) : List UInt16 := past.foldl pass []

theorem opened_concat (past : List Passage) (p : Passage) :
    opened (past ++ [p]) = pass (opened past) p := by
  rw [opened, List.foldl_append]
  rfl

/-- Balanced passages leave the open calls as they were. -/
theorem foldl_pass_balanced {l : List Passage} (hl : Balanced l) (s : List UInt16) :
    l.foldl pass s = s := by
  induction hl generalizing s with
  | nil => rfl
  | @nest a inner rest _ _ ihinner ihrest =>
      rw [List.foldl_cons, List.foldl_append, ihinner, List.foldl_cons, ihrest]
      rfl

theorem opened_of_balanced {before inner : List Passage} (a : UInt16) (hinner : Balanced inner) :
    opened (before ++ call a :: inner) = a :: opened before := by
  rw [opened, List.foldl_append, List.foldl_cons, foldl_pass_balanced hinner]
  rfl

/-- The top of the open calls was opened by a call after which all is balanced.  A return
closes the call that is found in what stands before the call it answers, so the induction
is on the length. -/
theorem split_of_opened {past : List Passage} {a : UInt16} {outer : List UInt16}
    (hopened : opened past = a :: outer) :
    ∃ before inner, past = before ++ call a :: inner ∧ Balanced inner ∧ opened before = outer := by
  generalize hn : past.length = n
  induction n using Nat.strongRecOn generalizing past a outer with
  | ind n ih =>
      rcases List.eq_nil_or_concat past with rfl | ⟨earlier, p, rfl⟩
      · exact nomatch hopened
      · rw [List.concat_eq_append] at hopened hn ⊢
        rw [List.length_append, List.length_singleton] at hn
        rw [opened_concat] at hopened
        cases p with
        | call b =>
            obtain ⟨rfl, rfl⟩ := List.cons.inj hopened
            exact ⟨earlier, [], rfl, .nil, rfl⟩
        | ret =>
            cases hearlier : opened earlier with
            | nil =>
                rw [hearlier] at hopened
                exact nomatch hopened
            | cons b rest =>
                rw [hearlier] at hopened
                obtain rfl : rest = a :: outer := hopened
                obtain ⟨middle, inner, rfl, hinner, hmiddle⟩ :=
                  ih earlier.length (by omega) hearlier rfl
                obtain ⟨before, inner', rfl, hinner', hbefore⟩ :=
                  ih middle.length (by rw [List.length_append] at hn; omega) hmiddle rfl
                refine ⟨before, inner' ++ call b :: (inner ++ [ret]), ?_, ?_, hbefore⟩
                · simp only [List.append_assoc, List.cons_append]
                · exact hinner'.append (.nest b hinner .nil)

/-- The innermost call is the top of the open ones. -/
theorem innermost_iff {past : List Passage} {a : UInt16} :
    Innermost past a ↔ ∃ outer, opened past = a :: outer := by
  constructor
  · rintro ⟨before, inner, rfl, hinner⟩
    exact ⟨opened before, opened_of_balanced a hinner⟩
  · rintro ⟨outer, hopened⟩
    obtain ⟨before, inner, hpast, hinner, -⟩ := split_of_opened hopened
    exact ⟨before, inner, hpast, hinner⟩

end Passage

/-- What a step from an address carried out, by its answer. -/
def Passage.of? (pc : UInt16) : Except Fault Outcome → Option Passage
  | .ok (.executed (.call _)) => some (.call pc)
  | .ok (.executed .ret) => some .ret
  | _ => none

namespace Console

variable {w h : Nat} {c : Console w h}

/-! ## Passages of a history -/

/-- The call or the return that an operation carries out; only steps do. -/
def passage? (c : Console w h) : Operation → Option Passage
  | .step => Passage.of? c.machine.cpu.pc c.step.1
  | _ => none

/-- What an operation does to the subroutines that are open. -/
inductive NestCase (c : Console w h) (op : Operation) : Option Passage → Prop where
  /-- One is opened, to return behind the call. -/
  | called (hstack : (c.operate op).2.machine.cpu.stack.toList =
      c.machine.cpu.stack.toList ++ [Machine.following c.machine.cpu.pc]) :
      NestCase c op (some (.call c.machine.cpu.pc))
  /-- The innermost is closed, and the program goes on where it returns to. -/
  | returned (hstack : c.machine.cpu.stack.toList =
      (c.operate op).2.machine.cpu.stack.toList ++ [(c.operate op).2.machine.cpu.pc]) :
      NestCase c op (some .ret)
  | kept (hstack : (c.operate op).2.machine.cpu.stack = c.machine.cpu.stack) :
      NestCase c op none

/-- A step is a call, a return or neither. -/
theorem nestCase_step (c : Console w h) : NestCase c .step (c.passage? .step) := by
  have hmachine : (c.operate .step).2.machine = c.machine.step.machine := machine_step c
  rw [passage?]
  cases hstep : c.step.1 with
  | error f =>
      refine .kept ?_
      rw [hmachine]
      refine Machine.stack_step fun i e hr => ?_
      -- a call or a return asks nothing of the devices, so it would have been carried out
      cases hi : i.nests with
      | false => rfl
      | true =>
          obtain rfl := Machine.effect_of_nests hr hi
          exact nomatch hstep.symm.trans (step_of_nothing hr)
  | ok o =>
      obtain ⟨e, hr⟩ := result_of_step_ok hstep
      have hkept (hother : ∀ i, o = .executed i → i.nests = false) : NestCase c .step none := by
        refine .kept ?_
        rw [hmachine]
        refine Machine.stack_step fun i e' hr' => ?_
        cases hr.symm.trans hr'
        exact hother i rfl
      cases o with
      | waiting => exact hkept nofun
      | resumed key => exact hkept nofun
      | executed i =>
          cases i with
          | call nnn =>
              refine .called ?_
              rw [hmachine]
              exact Machine.stack_step_call hr
          | ret =>
              refine .returned ?_
              rw [hmachine]
              exact Machine.stack_step_ret hr
          | _ => exact hkept fun _ hi => by cases hi; rfl

theorem nestCase (c : Console w h) (op : Operation) : NestCase c op (c.passage? op) := by
  cases op with
  | step => exact nestCase_step c
  | _ => exact .kept (by rw [machine_operate]; rfl)

/-! ## Every history -/

/-- The call stack holds the addresses behind the open calls, and these are the calls that
the returns leave over. -/
structure Linked (past : List Passage) (c : Console w h) : Prop where
  stack : c.machine.cpu.stack.toList = ((Passage.opened past).map Machine.following).reverse
  count : past.countP Passage.isCall = past.count .ret + (Passage.opened past).length

theorem linked_plugged (random : Random.Stream) (wrap : OriginWrap) (hazards : Hazards) :
    Linked [] (plugged w h random wrap hazards) :=
  ⟨rfl, rfl⟩

variable {past : List Passage}

/-- What is on top of the call stack is behind the innermost open call. -/
theorem Linked.top (hc : Linked past c) {rest : List UInt16} {a : UInt16}
    (hstack : c.machine.cpu.stack.toList = rest ++ [a]) :
    ∃ at_ outer, Passage.opened past = at_ :: outer ∧ a = Machine.following at_ ∧
      rest = (outer.map Machine.following).reverse := by
  rw [hc.stack] at hstack
  cases hopened : Passage.opened past with
  | nil =>
      rw [hopened] at hstack
      simp at hstack
  | cons b outer =>
      rw [hopened, List.map_cons, List.reverse_cons] at hstack
      obtain ⟨hrest, htop⟩ := List.append_inj' hstack rfl
      exact ⟨b, outer, rfl, (List.cons.inj htop).1.symm, hrest.symm⟩

/-- How many subroutines are open. -/
theorem Linked.depth (hc : Linked past c) :
    past.countP Passage.isCall = past.count .ret + c.machine.cpu.stack.depth.val := by
  have hlength := congrArg List.length hc.stack
  rw [CallStack.length_toList, List.length_reverse, List.length_map] at hlength
  rw [hc.count, hlength]

/-- Every operation keeps the call stack and the passages together. -/
theorem Linked.operate (hc : Linked past c) (op : Operation) :
    Linked (past ++ (c.passage? op).toList) (c.operate op).2 := by
  have hcount := hc.count
  generalize hout : c.passage? op = p
  have hcase := hout ▸ c.nestCase op
  cases hcase with
  | kept hstack =>
      rw [Option.toList_none, List.append_nil]
      exact ⟨by rw [hstack, hc.stack], hcount⟩
  | called hstack =>
      rw [Option.toList_some]
      constructor
      · rw [hstack, hc.stack, Passage.opened_concat, Passage.pass, List.map_cons,
          List.reverse_cons]
      · have hcall : [Passage.call c.machine.cpu.pc].countP Passage.isCall = 1 := rfl
        have hret : [Passage.call c.machine.cpu.pc].count .ret = 0 := rfl
        rw [Passage.opened_concat, Passage.pass, List.length_cons, List.countP_append,
          List.count_append, hcall, hret]
        omega
  | returned hstack =>
      obtain ⟨a, outer, hopened, -, hrest⟩ := hc.top hstack
      rw [Option.toList_some]
      constructor
      · rw [hrest, Passage.opened_concat, hopened]
        rfl
      · have hcall : [Passage.ret].countP Passage.isCall = 0 := rfl
        have hret : [Passage.ret].count .ret = 1 := rfl
        rw [hopened, List.length_cons] at hcount
        rw [Passage.opened_concat, hopened, Passage.pass, List.tail_cons, List.countP_append,
          List.count_append, hcall, hret]
        omega

/-- A return goes to behind the innermost open call. -/
theorem Linked.returns (hc : Linked past c) (hret : c.step.1 = .ok (.executed .ret)) :
    ∃ a outer, Passage.opened past = a :: outer ∧
      c.step.2.machine.cpu.pc = Machine.following a := by
  have hp : c.passage? .step = some .ret := by rw [passage?, hret]; rfl
  have hcase := hp ▸ c.nestCase .step
  cases hcase with
  | returned hstack =>
      obtain ⟨a, outer, hopened, hpc, -⟩ := hc.top hstack
      exact ⟨a, outer, hopened, hpc⟩

/-! ## Calls and returns at fault -/

/-- A step ends in a stack fault when its instruction refuses with it. -/
theorem step_of_refuses {i : Instruction} {f : Fault} (hi : c.machine.upcoming? = some i)
    (hf : c.machine.moved.Refuses i f) : c.step.1 = .error f := by
  have hr : c.machine.step.result = .error f := by
    rw [Machine.step_of_upcoming hi, Machine.execute_eq_error_iff.mpr hf]
  generalize hout : c.step = out
  have hcase := hout ▸ c.stepCase
  cases hcase with
  | fault hf' =>
      cases hf'.symm.trans hr
      rfl
  | refused hr' hd => exact nomatch hr'.symm.trans hr
  | done hr' hd => exact nomatch hr'.symm.trans hr

theorem refuses_of_step {f : Fault} (hf : c.step.1 = .error f) (hnesting : f.isNesting = true) :
    ∃ i, c.machine.upcoming? = some i ∧ c.machine.moved.Refuses i f := by
  have ha : ∃ a, f.address? = some a := by
    cases f with
    | stackOverflow a => exact ⟨a, rfl⟩
    | stackUnderflow a => exact ⟨a, rfl⟩
    | _ => exact nomatch hnesting
  obtain ⟨a, ha⟩ := ha
  have hr := result_of_step hf ha
  generalize hout : c.machine.step = out at hr
  have hcase := hout ▸ c.machine.stepCase
  cases hcase with
  | waiting hmode hslot => exact nomatch hr
  | resumed hmode hslot => exact nomatch hr
  | executed hi hm' => exact nomatch hr
  | unknown hmode hword =>
      cases hr
      exact nomatch hnesting
  | refused hi hf' =>
      cases hr
      exact ⟨_, hi, Machine.execute_eq_error_iff.mp hf'⟩

theorem step_overflows_iff : (∃ a, c.step.1 = .error (.stackOverflow a)) ↔
    (∃ nnn, c.machine.upcoming? = some (.call nnn)) ∧ c.machine.cpu.stack.depth.val = 16 := by
  constructor
  · rintro ⟨a, ha⟩
    obtain ⟨i, hi, hrefuses⟩ := refuses_of_step ha rfl
    cases hrefuses with
    | overflow hdepth => exact ⟨⟨_, hi⟩, hdepth⟩
  · rintro ⟨⟨nnn, hi⟩, hdepth⟩
    exact ⟨_, step_of_refuses hi (.overflow hdepth)⟩

theorem step_underflows_iff : (∃ a, c.step.1 = .error (.stackUnderflow a)) ↔
    c.machine.upcoming? = some .ret ∧ c.machine.cpu.stack.depth.val = 0 := by
  constructor
  · rintro ⟨a, ha⟩
    obtain ⟨i, hi, hrefuses⟩ := refuses_of_step ha rfl
    cases hrefuses with
    | underflow hdepth => exact ⟨hi, hdepth⟩
  · rintro ⟨hi, hdepth⟩
    exact ⟨_, step_of_refuses hi (.underflow hdepth)⟩

/-- A call or a return that is not at fault is carried out. -/
theorem step_of_nests {i : Instruction} (hi : c.machine.upcoming? = some i)
    (hnests : i.nests = true) (hf : ∀ f, ¬ c.machine.moved.Refuses i f) :
    c.step.1 = .ok (.executed i) := by
  cases hm' : c.machine.moved.execute i with
  | error f => exact absurd (Machine.execute_eq_error_iff.mp hm') (hf f)
  | ok out =>
      obtain ⟨m', e⟩ := out
      have hr : c.machine.step.result = .ok (.executed i, e) := by
        rw [Machine.step_of_upcoming hi, hm']
      obtain rfl := Machine.effect_of_nests hr hnests
      exact step_of_nothing hr

/-! ## The main theorem -/

/-- What the calls and returns that were carried out say about a console and its next
step. -/
structure NestsWell (past : List Passage) (c : Console w h) : Prop where
  /-- The stack pointer counts the calls less the returns. -/
  depth : past.countP Passage.isCall = past.count .ret + c.machine.cpu.stack.depth.val
  /-- A return that is carried out matches a call. -/
  matched : c.step.1 = .ok (.executed .ret) → ∃ a, Passage.Innermost past a
  /-- It goes on two bytes after the call it matches, around memory. -/
  returns : c.step.1 = .ok (.executed .ret) → ∀ a, Passage.Innermost past a →
    c.step.2.machine.cpu.pc.toNat = (a.toNat + 2) % 4096
  /-- A step overflows the call stack exactly when it comes to a call with sixteen open. -/
  overflows_iff : (∃ a, c.step.1 = .error (.stackOverflow a)) ↔
    (∃ nnn, c.machine.upcoming? = some (.call nnn)) ∧
      past.countP Passage.isCall = past.count .ret + 16
  /-- All other calls are carried out. -/
  calls : ∀ nnn, c.machine.upcoming? = some (.call nnn) →
    past.countP Passage.isCall ≠ past.count .ret + 16 → c.step.1 = .ok (.executed (.call nnn))
  /-- A step underflows the call stack exactly when it comes to a return with none open. -/
  underflows_iff : (∃ a, c.step.1 = .error (.stackUnderflow a)) ↔
    c.machine.upcoming? = some .ret ∧ past.countP Passage.isCall = past.count .ret
  /-- All other returns are carried out. -/
  rets : c.machine.upcoming? = some .ret →
    past.countP Passage.isCall ≠ past.count .ret → c.step.1 = .ok (.executed .ret)

theorem Linked.nestsWell (hc : Linked past c) : NestsWell past c where
  depth := hc.depth
  matched hret := by
    obtain ⟨a, outer, hopened, -⟩ := hc.returns hret
    exact ⟨a, Passage.innermost_iff.mpr ⟨outer, hopened⟩⟩
  returns hret a ha := by
    obtain ⟨b, outer, hopened, hpc⟩ := hc.returns hret
    obtain ⟨outer', hopened'⟩ := Passage.innermost_iff.mp ha
    cases hopened.symm.trans hopened'
    rw [hpc, Machine.toNat_following]
  overflows_iff := by
    rw [step_overflows_iff, hc.depth, Nat.add_left_cancel_iff]
  calls nnn hi hfew := by
    refine step_of_nests hi rfl fun f hf => ?_
    cases hf with
    | overflow hdepth =>
        rw [hc.depth] at hfew
        exact hfew (congrArg _ hdepth)
  underflows_iff := by
    rw [step_underflows_iff, hc.depth, Nat.add_eq_left]
  rets hi hmany := by
    refine step_of_nests hi rfl fun f hf => ?_
    cases hf with
    | underflow hdepth =>
        rw [hc.depth] at hmany
        exact hmany (congrArg _ hdepth)

/-- **Calls and returns nest.** Whatever is done with a new console, in any order and going on
after faults, the calls and returns that were carried out say how many subroutines are
open, which call the next return matches and where it goes on, and which calls and returns
are at fault. -/
theorem subroutines_nest (random : Random.Stream) (wrap : OriginWrap) (hazards : Hazards)
    (ops : List Operation) :
    NestsWell ((plugged w h random wrap hazards).trace passage? ops)
      ((plugged w h random wrap hazards).after ops) := by
  have hlinked := trace_induct (P := Linked) (fun _ _ op hc => Linked.operate hc op) ops []
    (plugged w h random wrap hazards) (linked_plugged random wrap hazards)
  exact hlinked.nestsWell

/-- A program that writes a call into the last two bytes of memory and goes there; the
subroutine returns at once. -/
def topCalling : List Operation :=
  [.load { bytes := [0x60, 0x22, 0x61, 0x0a, 0xaf, 0xfe, 0xf1, 0x55, 0x1f, 0xfe, 0x00, 0xee] },
    .step, .step, .step, .step, .step, .step]

/-- The return matches the call at the end of memory and goes on at its start. -/
theorem subroutines_nest_around :
    (plugged 8 4 (.chacha 0) .inherited {}).trace passage? topCalling = [.call 0xffe] ∧
    ((plugged 8 4 (.chacha 0) .inherited {}).after topCalling).step.1 = .ok (.executed .ret) ∧
    ((plugged 8 4 (.chacha 0) .inherited {}).after topCalling).step.2.machine.cpu.pc.toNat =
      0 := by
  have hpast : (plugged 8 4 (.chacha 0) .inherited {}).trace passage? topCalling =
      [.call 0xffe] := by
    decide +kernel
  have hret : ((plugged 8 4 (.chacha 0) .inherited {}).after topCalling).step.1 =
      .ok (.executed .ret) := by
    decide +kernel
  have hnests := subroutines_nest (w := 8) (h := 4) (.chacha 0) .inherited {} topCalling
  exact ⟨hpast, hret, hnests.returns hret 0xffe ⟨[], [], hpast, .nil⟩⟩

end Console

end Chip8Vm
