import Chip8Vm.HexPad

/-!
# Chip8Vm.HexPad.Wait

Waiting for a press while others use the pad.

One waiter looks at the pad again and again; others take in events and may raise
the stop signal.  Each `Act` is atomic, and an interleaving is a list of acts: a
look takes the slot if it is filled and only then minds the stop signal, and an
event reaches the table of held keys before it reaches the slot.
-/

namespace Chip8Vm

/-- The waiter: still waiting, or back with a key or without. -/
inductive Waiter where
  | waiting
  | back (key : Option PadKey)
  deriving DecidableEq, Repr

/-- One thing that happens to the pad, all at once. -/
inductive Act where
  /-- The waiter looks at the slot and then at the stop signal. -/
  | look
  /-- A key is entered as held or not held. -/
  | enter (key : PadKey) (held : Bool)
  /-- A press is put into the slot. -/
  | post (key : PadKey)
  | raise
  deriving DecidableEq, Repr

structure WaitScene where
  pad : HexPad
  stop : Bool := false
  waiter : Waiter := .waiting

namespace WaitScene

/-- The waiter's look: a pending press first, then the stop signal. -/
def look (s : WaitScene) : WaitScene :=
  match s.waiter with
  | .back _ => s
  | .waiting =>
    match s.pad.take with
    | (some k, pad) => { s with pad := pad, waiter := .back (some k) }
    | (none, _) => if s.stop then { s with waiter := .back none } else s

def act (s : WaitScene) : Act → WaitScene
  | .look => s.look
  | .enter k held => { s with pad := s.pad.enter k held }
  | .post k => { s with pad := s.pad.post k }
  | .raise => { s with stop := true }

def run (s : WaitScene) (acts : List Act) : WaitScene := acts.foldl act s

end WaitScene

/-- The acts by which the pad takes in an event. -/
def KeyEvent.acts (e : KeyEvent) : List Act :=
  match HexPad.keyOf? e.key with
  | none => []
  | some k => if e.pressed then [.enter k true, .post k] else [.enter k false]

/-- The acts of an event do what taking it in does. -/
theorem WaitScene.run_acts (s : WaitScene) (e : KeyEvent) :
    s.run e.acts = { s with pad := s.pad.accept e } := by
  unfold KeyEvent.acts HexPad.accept
  cases HexPad.keyOf? e.key with
  | none => rfl
  | some k => cases e.pressed <;> rfl

/-- Wait for a press while another takes in these events and then raises the
stop signal: the waiter looks before, between and after. -/
def HexPad.wait (p : HexPad) (stop : Bool) (events : List KeyEvent) : WaitScene :=
  WaitScene.run { pad := p, stop := stop }
    ([.look] ++ events.flatMap KeyEvent.acts ++ [.look, .raise, .look])

end Chip8Vm
