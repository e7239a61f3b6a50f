import Chip8Vm.Proofs.Console.History
import Chip8Vm.Proofs.Machine.Confined

/-!
# Chip8Vm.Proofs.Console.RandomBytes

Random bytes are used up one by one, in the order of their stream.

A stream is the bytes in use and how many of them were taken; which bytes belong to a seed is up
to the generator, and nothing is assumed about it.  An operation sets the seed
(`Operation.seed?`), or draws a byte (`Console.draw?`), or leaves the stream alone; only the
instruction that asks for a random byte draws one, and it is never refused.

* `random_of_draw`, `random_of_no_draw` — what an operation does to the stream;
* `random_after` — the draws of a history without a new seed, and how far it has come;
* `random_bytes_in_turn` — so draws are counted from the last time that a seed was set.
-/

namespace Chip8Vm

/-- The seed that an operation sets the generator to, if it sets one. -/
def Operation.seed? : Operation → Option UInt64
  | configure _ seed => seed
  | reseed seed => some seed
  | _ => none

/-- A step that does not come to the instruction which draws a byte leaves the generator alone,
however it goes. -/
theorem Machine.random_step {w h : Nat} {m : Machine w h}
    (hm : ∀ x kk, m.upcoming? ≠ some (.random x kk)) : m.step.machine.random = m.random := by
  generalize hout : m.step = out
  have hcase := hout ▸ m.stepCase
  cases hcase with
  | waiting hmode hslot => rfl
  | resumed hmode hslot => rfl
  | unknown hmode hword => rfl
  | refused hi hf => rfl
  | executed hi hm' =>
      refine (confined_execute hm').random fun x kk hrandom => ?_
      exact hm x kk (hrandom ▸ hi)

namespace Console

open Chip8Vm.Random (ChaCha.byte Stream)

variable {w h : Nat} {c : Console w h} {op : Operation} {ops : List Operation}

/-! ## One operation -/

/-- A random byte that was asked for. -/
structure Draw where
  x : Reg
  mask : UInt8
  /-- What was put into the register. -/
  value : UInt8
  deriving DecidableEq

/-- The draw that an operation makes: only steps make any, when they carry out the instruction
for it. -/
def draw? (c : Console w h) : Operation → Option Draw
  | .step =>
    match c.step.1 with
    | .ok (.executed (.random x kk)) => some ⟨x, kk, c.step.2.machine.cpu.get x⟩
    | _ => none
  | _ => none

/-- The instruction that draws a byte is always carried out, with the next byte of the stream. -/
theorem draw?_of_upcoming {x : Reg} {kk : UInt8}
    (hx : c.machine.upcoming? = some (.random x kk)) :
    c.draw? .step = some ⟨x, kk, c.machine.random.next.1 &&& kk⟩ ∧
      c.step.2.machine.random = c.machine.random.next.2 := by
  have hmachine := machine_of_execute hx rfl
  have hresult := step_of_execute hx rfl
  refine ⟨?_, by rw [hmachine]; rfl⟩
  simp only [draw?, hresult, hmachine, Cpu.get_set, if_true]
  rfl

theorem upcoming_of_draw? {d : Draw} (hd : c.draw? op = some d) :
    op = .step ∧ c.machine.upcoming? = some (.random d.x d.mask) := by
  unfold draw? at hd
  split at hd
  · split at hd
    · next x kk hresult =>
      obtain ⟨e, hr⟩ := result_of_step_ok hresult
      cases hd
      exact ⟨rfl, (Machine.execute_of_result hr).1⟩
    · cases hd
  · cases hd

/-- A draw is masked and takes one byte. -/
theorem random_of_draw {d : Draw} (hd : c.draw? op = some d) :
    d.value = c.machine.random.next.1 &&& d.mask ∧
      (c.operate op).2.machine.random = c.machine.random.next.2 := by
  obtain ⟨rfl, hx⟩ := upcoming_of_draw? hd
  obtain ⟨hdraw, hrandom⟩ := draw?_of_upcoming hx
  rw [hd, Option.some_inj] at hdraw
  exact ⟨congrArg Draw.value hdraw, hrandom⟩

/-- Nothing else takes a byte. -/
theorem random_of_no_draw (hseed : op.seed? = none) (hd : c.draw? op = none) :
    (c.operate op).2.machine.random = c.machine.random := by
  rw [machine_operate]
  cases op with
  | step =>
      refine Machine.random_step fun x kk hx => ?_
      rw [(draw?_of_upcoming hx).1] at hd
      cases hd
  | configure wrap seed =>
      have hnone : seed = none := hseed
      simp [Machine.operate, hnone]
  | reseed seed => cases hseed
  | _ => rfl

/-! ## Histories -/

/-- The draws of a history without a new seed are the next bytes of the stream, masked, and each
of them takes one byte. -/
theorem random_after {s : Stream} (hc : c.machine.random = s)
    (hops : ∀ op ∈ ops, op.seed? = none) :
    (∀ k d, (trace draw? c ops)[k]? = some d → d.value = s.bytes (s.taken + k) &&& d.mask) ∧
      (c.after ops).machine.random =
        { s with taken := s.taken + (trace draw? c ops).length } := by
  induction ops generalizing c s with
  | nil => simp [trace, after, hc]
  | cons op ops ih =>
      obtain ⟨hop, hrest⟩ := List.forall_mem_cons.mp hops
      cases hd : c.draw? op with
      | none =>
          have hrandom := (random_of_no_draw hop hd).trans hc
          simpa [trace, hd, after] using ih hrandom hrest
      | some d =>
          obtain ⟨hvalue, hrandom⟩ := random_of_draw hd
          rw [hc] at hvalue hrandom
          obtain ⟨hlater, hlast⟩ := ih hrandom hrest
          constructor
          · intro k draw hk
            cases k with
            | zero =>
                have hfirst : d = draw := by simpa [trace, hd] using hk
                exact hfirst ▸ hvalue
            | succ k =>
                have hrest : (trace draw? (c.operate op).2 ops)[k]? = some draw := by
                  simpa [trace, hd] using hk
                rw [hlater k draw hrest, Stream.next, Nat.add_right_comm, Nat.add_assoc]
          · rw [after, hlast]
            simp [trace, hd, Stream.next, Nat.add_assoc, Nat.add_comm]

theorem random_operate_seed {seed : UInt64} (c : Console w h) (hseed : op.seed? = some seed) :
    (c.operate op).2.machine.random = c.machine.random.reseed seed := by
  rw [machine_operate]
  cases op with
  | configure wrap given =>
      have hgiven : given = some seed := hseed
      simp [Machine.operate, hgiven]
  | reseed given =>
      cases hseed
      rfl
  | _ => cases hseed

/-- Nothing changes which bytes belong to a seed. -/
theorem ofSeed_operate (c : Console w h) (op : Operation) :
    (c.operate op).2.machine.random.ofSeed = c.machine.random.ofSeed := by
  cases hseed : op.seed? with
  | some seed =>
      rw [random_operate_seed c hseed]
      rfl
  | none =>
      cases hd : c.draw? op with
      | none => rw [random_of_no_draw hseed hd]
      | some d =>
          rw [(random_of_draw hd).2]
          rfl

theorem ofSeed_after (c : Console w h) (ops : List Operation) :
    (c.after ops).machine.random.ofSeed = c.machine.random.ofSeed := by
  induction ops generalizing c with
  | nil => rfl
  | cons op ops ih => exact (ih _).trans (ofSeed_operate c op)

/-- **Random bytes come in turn.** Take any generator, set the seed at any time, and do anything
from then on that sets no other.  The `k`-th draw since then puts the `k`-th byte that the generator
has for that seed, masked, into its register.  An operation that is not a draw takes no byte,
whatever it is and however it goes; a draw takes one, whatever its mask is, and the instruction for
it is never refused.  So the generator has come as far in its bytes as there were draws, and begins
again with the next seed. -/
theorem random_bytes_in_turn (c : Console w h) {seeding : Operation} {seed : UInt64}
    (hseed : seeding.seed? = some seed) (hops : ∀ op ∈ ops, op.seed? = none) :
    (∀ k d, (trace draw? (c.operate seeding).2 ops)[k]? = some d →
      d.value = c.machine.random.ofSeed seed k &&& d.mask) ∧
    ((c.operate seeding).2.after ops).machine.random =
      { c.machine.random.reseed seed with
        taken := (trace draw? (c.operate seeding).2 ops).length } ∧
    (∀ before op later, ops = before ++ op :: later →
      (((c.operate seeding).2.after before).draw? op = none →
        ((c.operate seeding).2.after (before ++ [op])).machine.random =
          ((c.operate seeding).2.after before).machine.random) ∧
      (∀ d, ((c.operate seeding).2.after before).draw? op = some d →
        ((c.operate seeding).2.after (before ++ [op])).machine.random =
          { c.machine.random.reseed seed with
            taken := (trace draw? (c.operate seeding).2 before).length + 1 }) ∧
      (∀ x kk, op = .step →
        ((c.operate seeding).2.after before).machine.upcoming? = some (.random x kk) →
        ∃ value, ((c.operate seeding).2.after before).draw? op = some ⟨x, kk, value⟩)) := by
  have hseeded := random_operate_seed c hseed
  obtain ⟨hvalues, hposition⟩ := random_after hseeded hops
  refine ⟨fun k d hd => ?_, ?_, fun before op later hsplit => ⟨fun hd => ?_, fun d hd => ?_, ?_⟩⟩
  · rw [hvalues k d hd, Stream.reseed, Stream.seeded, Nat.zero_add]
  · rw [hposition, Stream.reseed, Stream.seeded, Nat.zero_add]
  · have hop : op.seed? = none := hops op (by simp [hsplit])
    rw [after_append]
    exact random_of_no_draw hop hd
  · have hbefore : ∀ op ∈ before, op.seed? = none := fun op hop => hops op (by simp [hsplit, hop])
    have hrandom := (random_of_draw hd).2
    rw [(random_after hseeded hbefore).2, Stream.reseed, Stream.seeded, Nat.zero_add] at hrandom
    rw [after_append]
    exact hrandom
  · rintro x kk rfl hx
    exact ⟨_, (draw?_of_upcoming hx).1⟩

/-- A console whose tone generator refuses every call, after a draw from another stream; its
program goes on with a draw of which nothing is left, a wait for a key, a draw for V2 and a word
that spells no instruction. -/
def rolling : Console 8 4 :=
  (plugged 8 4 (.chacha 5) .inherited { tone := fun _ _ => true }).after
    [.load { bytes := [0xc0, 0xff, 0xc1, 0x00, 0xf3, 0x0a, 0xc2, 0x0f, 0x00, 0x00] }, .step]

/-- All of it, with two steps that wait, and a refused tick and a new wrap on the way. -/
def rolls : List Operation :=
  [.step, .tick, .configure .modulo none, .step, .step, .accept ⟨0x4, true⟩, .step, .step, .step]

/-- Two bytes of the new stream were taken, and the second is in V2. -/
theorem random_bytes_in_turn_rolling :
    (Operation.configure .inherited (some 7)).seed? = some 7 ∧
    (∀ op ∈ rolls, op.seed? = none) ∧
    ((rolling.operate (.configure .inherited (some 7))).2.after rolls).machine.random =
      { Stream.chacha 7 with taken := 2 } ∧
    ∃ d, (trace draw? (rolling.operate (.configure .inherited (some 7))).2 rolls)[1]? = some d ∧
      d.x = 2 ∧ d.value = ChaCha.byte 7 1 &&& 0x0f := by
  have hseed : (Operation.configure .inherited (some 7)).seed? = some 7 := rfl
  have hrolls : ∀ op ∈ rolls, op.seed? = none := by simp [rolls, Operation.seed?]
  have hdraws : (trace draw? (rolling.operate (.configure .inherited (some 7))).2 rolls).map
      (fun d => (d.x, d.mask)) = [(1, 0x00), (2, 0x0f)] := by decide +kernel
  obtain ⟨hvalues, hrandom, -⟩ := random_bytes_in_turn rolling hseed hrolls
  have hgenerator : rolling.machine.random.ofSeed = ChaCha.byte := by
    rw [rolling, ofSeed_after]
    rfl
  have hcount := congrArg List.length hdraws
  rw [List.length_map] at hcount
  rw [hcount, Stream.reseed, hgenerator] at hrandom
  have hsecond := congrArg (fun draws => draws[1]?) hdraws
  obtain ⟨d, hd, hparts⟩ := Option.map_eq_some_iff.mp ((List.getElem?_map ..).symm.trans hsecond)
  obtain ⟨hx, hmask⟩ := Prod.mk.inj hparts
  have hvalue := hvalues 1 d hd
  rw [hmask, hgenerator] at hvalue
  exact ⟨hseed, hrolls, hrandom, d, hd, hx, hvalue⟩

end Console

end Chip8Vm
