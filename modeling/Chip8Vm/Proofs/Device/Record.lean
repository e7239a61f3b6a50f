import Chip8Vm.Device.Screen
import Chip8Vm.Device.Tone

/-!
# Chip8Vm.Proofs.Device.Record

The records of the devices, read as lists of calls.

A screen and a tone generator record every call and whether it succeeded.
`Screen.names` and `Tone.names` are the calls alone, and `Tone.isOn` is what
the record of a generator says about the tone: the last call that succeeded
decides.

* `Screen.names_call`, `Tone.names_call` — a call is recorded whether it fails or not;
* `Screen.names_perform` — of a list of calls, those up to the first that fails;
* `Tone.isOn_call` — a call that fails leaves the tone as it was.
-/

namespace Chip8Vm

/-! ## Screens -/

namespace Screen

/-- The calls on record, without how they ended. -/
def names (s : Screen) : List ScreenCall := s.calls.toList.map Prod.fst

def refuses (s : Screen) (op : ScreenOp) : Bool := s.fails op (s.made.count op)

/-- A call is recorded whether it fails or not. -/
@[simp] theorem names_call (s : Screen) (c : ScreenCall) :
    (s.call c).2.names = s.names ++ [c] := by
  unfold call
  split <;> simp [names]

/-- Of a list of calls, those up to the first that fails are recorded. -/
theorem names_perform (s : Screen) (l : List ScreenCall) :
    ∃ l', l' <+: l ∧ (s.perform l).2.names = s.names ++ l' := by
  induction l generalizing s with
  | nil => exact ⟨[], List.prefix_rfl, by simp [perform]⟩
  | cons c cs ih =>
      cases hc : s.call c with
      | mk r s' =>
          have hs' : s'.names = s.names ++ [c] := by rw [← names_call, hc]
          cases r with
          | error f =>
              refine ⟨[c], ⟨cs, rfl⟩, ?_⟩
              simp only [perform, hc, hs']
          | ok u =>
              obtain ⟨l', hl', hnames⟩ := ih s'
              refine ⟨c :: l', List.cons_prefix_cons.mpr ⟨rfl, hl'⟩, ?_⟩
              simp only [perform, hc]
              rw [hnames, hs', List.append_assoc, List.singleton_append]

theorem raised_call {s : Screen} (hs : s.raised = true) (c : ScreenCall) :
    (s.call c).2.raised = true := by
  unfold call
  split <;> simp [hs]

/-- No call takes a raised signal back. -/
theorem raised_perform (l : List ScreenCall) {s : Screen} (hs : s.raised = true) :
    (s.perform l).2.raised = true := by
  induction l generalizing s with
  | nil => exact hs
  | cons c cs ih =>
      have hcall := raised_call hs c
      unfold perform
      rcases hr : s.call c with ⟨_ | _, s'⟩
      · rwa [hr] at hcall
      · exact ih (by rwa [hr] at hcall)

/-- Showing a picture never gives the screen back. -/
theorem stop_notMem_presentation {w h : Nat} (b : Bitmap w h) :
    ScreenCall.stop ∉ presentation b := by
  simp [presentation]

end Screen

/-! ## Tone generators -/

namespace Tone

def names (t : Tone) : List ToneCall := t.calls.toList.map Prod.fst

/-- Is the tone on?  The last call that succeeded decides. -/
def isOn (t : Tone) : Bool :=
  t.calls.foldl (fun on call => if call.2 then call.1 == .beep else on) false

def refuses (t : Tone) (c : ToneCall) : Bool := t.fails c (t.count c)

@[simp] theorem calls_log (t : Tone) (c : ToneCall) (succeeded : Bool) :
    (t.log c succeeded).calls = t.calls.push (c, succeeded) := by
  cases c <;> rfl

/-- A call fails exactly when its turn to fail has come. -/
theorem call_eq (t : Tone) (c : ToneCall) :
    t.call c = if t.refuses c then (.error (fault c), t.log c false) else (.ok (), t.log c true) :=
  rfl

@[simp] theorem names_call (t : Tone) (c : ToneCall) : (t.call c).2.names = t.names ++ [c] := by
  rw [call_eq]
  split <;> simp [names]

/-- A call that succeeds sets the tone, and one that fails leaves it as it was. -/
@[simp] theorem isOn_call (t : Tone) (c : ToneCall) :
    (t.call c).2.isOn = if t.refuses c then t.isOn else c == .beep := by
  rw [call_eq]
  split <;> simp [isOn]

end Tone

end Chip8Vm
