import Chip8Vm.Device.Screen

/-!
# Chip8Vm.Proofs.Device.Showing

What a panel shows after its calls have succeeded.

A call that fails does not reach the panel, so calls that all succeed change it one after
the other (`panel_of_perform`).  The calls that show a picture begin with a clear: whatever
was pending before, the frame they leave is the lit pixels (`frame_of_present`).
-/

namespace Chip8Vm

namespace Screen

variable {w h : Nat} {s t : Screen}

theorem panel_of_call {c : ScreenCall} (hs : s.call c = (.ok (), t)) :
    t.panel = s.panel.apply c := by
  unfold call at hs
  split at hs
  · exact nomatch hs
  · cases hs
    rfl

/-- Calls that all succeed change the panel one after the other. -/
theorem panel_of_perform {l : List ScreenCall} (hs : s.perform l = (.ok (), t)) :
    t.panel = l.foldl Panel.apply s.panel := by
  induction l generalizing s with
  | nil =>
      cases hs
      rfl
  | cons c cs ih =>
      unfold perform at hs
      rcases hc : s.call c with ⟨f | u, s'⟩
      · rw [hc] at hs
        exact nomatch hs
      · rw [hc] at hs
        rw [List.foldl_cons, ← panel_of_call hc]
        exact ih hs

/-- Pixels that are set are pending after those that were. -/
theorem foldl_pixels (pixels : List (Nat × Nat)) (p : Panel) :
    (pixels.map fun q => ScreenCall.pixel q.1 q.2).foldl Panel.apply p =
      { p with pending := p.pending ++ pixels.toArray } := by
  induction pixels generalizing p with
  | nil => simp
  | cons q qs ih =>
      rw [List.map_cons, List.foldl_cons, ih]
      simp [Panel.apply]

/-- A picture that is shown without a failing call is the frame from then on. -/
theorem frame_of_present {b : Bitmap w h} (hs : s.present b = (.ok (), t)) :
    t.panel.frame.toList = b.lit := by
  rw [panel_of_perform hs, presentation, List.cons_append, List.foldl_cons, List.foldl_append,
    foldl_pixels]
  simp [Panel.apply]

/-- Giving the screen back leaves the frame on it. -/
theorem frame_call_stop (s : Screen) : (s.call .stop).2.panel.frame = s.panel.frame := by
  unfold call
  split <;> rfl

end Screen

end Chip8Vm
