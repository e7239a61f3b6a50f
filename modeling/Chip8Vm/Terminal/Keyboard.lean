import Chip8Vm.Terminal.KeyFeed
import Chip8Vm.Terminal.Sequence

/-!
# Chip8Vm.Terminal.Keyboard

A terminal's keyboard and the feed that reads it.

1. Bytes that were typed wait until they are read, in chunks of a bounded size.
   Reading goes on until something arrives; what a chunk did not hold then stays
   unread until more is typed.
2. A poll takes what arrived and was not handled yet, and then reads if something
   was typed since the last read.  One that ends early, at a keystroke that asks to
   quit, leaves the rest for the next.
3. A report of the cursor's place is for nobody here.  A poll that waits for its
   first input passes over those that come before it; any other ends the poll.
4. An impossible report jams the keyboard: nothing comes of it any more.
-/

namespace Chip8Vm.Terminal

/-! ## What a poll hears -/

namespace Arrival

/-- The arrivals that a poll sees; one that waits does not see reports at first. -/
def seen (waits : Bool) (arrivals : List Arrival) : List Arrival :=
  if waits then arrivals.dropWhile (·.input?.isNone) else arrivals

/-- The inputs up to the first report. -/
def heard (arrivals : List Arrival) : List Input :=
  (arrivals.takeWhile (·.input?.isSome)).filterMap input?

/-- The arrivals from the first report on. -/
def unheard (arrivals : List Arrival) : List Arrival :=
  arrivals.dropWhile (·.input?.isSome)

end Arrival

/-! ## Keyboards -/

structure Keyboard where
  feed : KeyFeed
  /-- What arrived and was not handled yet. -/
  arrivals : List Arrival := []
  /-- Bytes that were typed and not read yet. -/
  typed : List UInt8 := []
  /-- Was something typed since the last read? -/
  rang : Bool := false
  /-- The beginning of something whose end was not read yet. -/
  left : List UInt8 := []
  /-- Did an impossible report arrive? -/
  jammed : Bool := false

namespace Keyboard

def ofLayout (layout : Layout) : Keyboard := { feed := { layout := layout } }

def type (k : Keyboard) (bytes : List UInt8) : Keyboard :=
  { k with typed := k.typed ++ bytes, rang := k.rang || !bytes.isEmpty }

/-! ## Reading -/

/-- How many bytes are read at once. -/
def chunkSize : Nat := 1204

/-- Read typed bytes after those that were left over, until something arrives: the
arrivals, what is left over then and what stays unread.  There is no answer after an
impossible report. -/
def readUntil (left : List UInt8) :
    List UInt8 → Option (List Arrival × List UInt8 × List UInt8)
  | [] => some ([], left, [])
  | b :: bs =>
    let typed := b :: bs
    match Arrival.ofChunk (chunkSize ≤ typed.length) left (typed.take chunkSize) with
    | none => none
    | some ([], left) => readUntil left (typed.drop chunkSize)
    | some (arrivals, left) => some (arrivals, left, typed.drop chunkSize)
  termination_by typed => typed.length
  decreasing_by
    simp only [List.length_drop, List.length_cons, chunkSize]
    omega

def read (k : Keyboard) : Keyboard :=
  match readUntil k.left k.typed with
  | none => { k with typed := [], rang := false, jammed := true }
  | some (arrivals, left, typed) =>
    { k with arrivals := k.arrivals ++ arrivals, typed := typed, rang := false, left := left }

/-! ## Polls -/

/-- Handle inputs at a time, with arrivals that come after them.  The report that ended
the poll is gone then. -/
def handle (k : Keyboard) (now : Nat) (inputs : List Input) (rest : List Arrival) :
    FeedStatus × Keyboard × List Happening :=
  let (status, feed, happenings, left) := k.feed.poll (inputs.map fun i => (now, i)) now
  let rest := match status with
    | .quit => left.map (fun i => .input i.2) ++ rest
    | .goOn => rest.drop 1
  (status, { k with feed := feed, arrivals := rest }, happenings)

/-- Handle inputs at a time on a keyboard that jams after them: nothing is released. -/
def jam (k : Keyboard) (now : Nat) (inputs : List Input) :
    FeedStatus × Keyboard × List Happening :=
  let (status, feed, happenings, _) := k.feed.drain (inputs.map fun i => (now, i))
  (status, { k with feed := feed }, happenings)

/-- Poll at a time, waiting for a first input or not. -/
def poll (k : Keyboard) (waits : Bool) (now : Nat) :
    FeedStatus × Keyboard × List Happening :=
  if k.jammed then (.goOn, k, [])
  else
    let before := Arrival.seen waits k.arrivals
    let inputs := Arrival.heard before
    let rest := Arrival.unheard before
    if !k.rang || !rest.isEmpty || inputs.any KeyFeed.isQuit then k.handle now inputs rest
    else
      let k := { k with arrivals := [] }.read
      if k.jammed then k.jam now inputs
      else
        let after := Arrival.seen (waits && inputs.isEmpty) k.arrivals
        k.handle now (inputs ++ Arrival.heard after) (Arrival.unheard after)

/-- A poll by someone who waits and minds the stop signal: a keystroke that asks to
quit is noted and raises it. -/
def pollOrQuit (k : Keyboard) (now : Nat) : Keyboard × List Happening :=
  match k.poll true now with
  | (.goOn, k, happenings) => (k, happenings)
  | (.quit, k, happenings) => (k, happenings ++ [.note .quitRequested, .stop])

/-- How often a keyboard is polled, in nanoseconds. -/
def pollTime : Nat := 10000000

end Keyboard

end Chip8Vm.Terminal
