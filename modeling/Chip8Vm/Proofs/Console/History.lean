import Chip8Vm.Proofs.Bare.Console

/-!
# Chip8Vm.Proofs.Console.History

What a console comes to, and what is seen on the way.

`Console.after` is the console after some operations, `Console.trace` what is seen of
them one by one, and `Console.Reachable` holds of every console that comes of a new one.
An invariant that ties what was seen to the console is proved for one operation and holds
of every history by `trace_induct`.
-/

namespace Chip8Vm.Console

variable {α : Type} {w h : Nat}

/-! ## Histories -/

/-- The console after some operations, one after the other, also after one that fails. -/
def after (c : Console w h) : List Operation → Console w h
  | [] => c
  | op :: ops => (c.operate op).2.after ops

/-- What is seen of some operations, in their order. -/
def trace (see : Console w h → Operation → Option α) (c : Console w h) : List Operation → List α
  | [] => []
  | op :: ops => (see c op).toList ++ trace see (c.operate op).2 ops

theorem after_append (c : Console w h) (ops more : List Operation) :
    c.after (ops ++ more) = (c.after ops).after more := by
  induction ops generalizing c with
  | nil => rfl
  | cons op ops ih => exact ih (c.operate op).2

theorem trace_append (see : Console w h → Operation → Option α) (c : Console w h)
    (ops more : List Operation) :
    trace see c (ops ++ more) = trace see c ops ++ trace see (c.after ops) more := by
  induction ops generalizing c with
  | nil => rfl
  | cons op ops ih =>
      rw [List.cons_append, trace, trace, ih, List.append_assoc]
      rfl

/-- What each operation makes true of all that was seen by then and of the console is true
after every history. -/
theorem trace_induct {see : Console w h → Operation → Option α} {P : List α → Console w h → Prop}
    (hP : ∀ past c op, P past c → P (past ++ (see c op).toList) (c.operate op).2)
    (ops : List Operation) (past : List α) (c : Console w h) (hc : P past c) :
    P (past ++ trace see c ops) (c.after ops) := by
  induction ops generalizing past c with
  | nil =>
      rw [trace, List.append_nil]
      exact hc
  | cons op ops ih =>
      rw [trace, ← List.append_assoc]
      exact ih _ _ (hP past c op hc)

/-! ## What every history keeps -/

section Keeps

variable {Q : Console w h → Prop}

/-- What no tick, no happening and no change of the machine takes away, and no shutdown either,
is kept by every operation. -/
theorem Stable.operate (hQ : Stable Q)
    (hmachine : ∀ (c : Console w h) m, Q c → Q { c with machine := m })
    (hshutdown : ∀ c, Q c → Q c.shutdown.2) {c : Console w h} (hc : Q c) (op : Operation) :
    Q (c.operate op).2 := by
  cases op with
  | load source =>
      show Q (c.load source).2
      unfold load
      obtain ⟨_ | n, ram⟩ := c.machine.ram.load source
      · exact hmachine _ _ hc
      · exact hQ.note _ _ (hmachine _ _ hc)
  | step =>
      show Q c.step.2
      rw [← serve_instruction_snd]
      exact hQ.serve c .instruction hc
  | tick => exact hQ.serve c .timer hc
  | present => exact hQ.present c hc
  | shutdown => exact hshutdown c hc
  | configure wrap seed =>
      cases seed with
      | none => exact hmachine _ _ hc
      | some s => exact hmachine _ _ (hmachine _ _ hc)
  | setWrap wrap => exact hmachine _ _ hc
  | reseed seed => exact hmachine _ _ hc
  | accept e => exact hQ.happen c (.key e) hc

theorem Stable.after (hQ : Stable Q)
    (hmachine : ∀ (c : Console w h) m, Q c → Q { c with machine := m })
    (hshutdown : ∀ c, Q c → Q c.shutdown.2) {c : Console w h} (hc : Q c) (ops : List Operation) :
    Q (c.after ops) := by
  induction ops generalizing c with
  | nil => exact hc
  | cons op ops ih => exact ih (hQ.operate hmachine hshutdown hc op)

end Keeps

/-! ## Reachable consoles -/

/-- What new consoles come to. -/
inductive Reachable : Console w h → Prop where
  | plugged (random : Random.Stream) (wrap : OriginWrap) (hazards : Hazards) :
      Reachable (plugged w h random wrap hazards)
  | operate {c : Console w h} (hc : Reachable c) (op : Operation) : Reachable (c.operate op).2

variable {c : Console w h}

theorem Reachable.after (hc : c.Reachable) (ops : List Operation) : (c.after ops).Reachable := by
  induction ops generalizing c with
  | nil => exact hc
  | cons op ops ih => exact ih (hc.operate op)

/-- The addresses that a reachable console holds lie in memory. -/
theorem Reachable.bounded (hc : c.Reachable) : c.machine.cpu.Bounded := by
  induction hc with
  | plugged random wrap hazards => exact Cpu.bounded_initial
  | operate hc op ih =>
      rw [machine_operate]
      exact Machine.bounded_operate ih op

end Chip8Vm.Console
