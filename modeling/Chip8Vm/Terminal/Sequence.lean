import Chip8Vm.Number.Decimal
import Chip8Vm.Terminal.Key

/-!
# Chip8Vm.Terminal.Sequence

From the bytes that a terminal sends to what they report.

1. A terminal sends a character for most keys, in its encoding of one to four
   bytes, a control character for a letter with Ctrl, and a sequence that starts
   with the escape character for the others.
2. Sequences also report what is done with the pointer, and where the cursor is.
   Coordinates in them count from one, so a report with a zero is impossible.
3. Bytes come in chunks.  An escape that ends what there is to read is the key of
   that name; anything else that is unfinished waits for the next chunk.
4. What means nothing is passed over.
-/

namespace Chip8Vm.Terminal

/-- What the bytes so far amount to. -/
inductive Reading where
  | unfinished
  | nothing
  | input (i : Input)
  /-- The cursor's place. -/
  | cursorReport
  /-- A report that no terminal sends. -/
  | impossible
  deriving DecidableEq, Repr

namespace Reading

def key (k : Key) : Reading := .input (.stroke { key := k })

def ctrl (c : Char) : Reading := .input (.stroke { key := .char c, ctrl := true })

/-- A key, or nothing. -/
def ofKey? : Option Key → Reading
  | some k => .key k
  | none => .nothing

/-- The same with Alt. -/
def withAlt : Reading → Reading
  | .input (.stroke s) => .input (.stroke { s with alt := true })
  | r => r

end Reading

namespace Sequence

/-! ## Characters -/

def code (b : UInt8) : Char := Char.ofNat b.toNat

/-- How many bytes a character takes whose encoding begins with the byte. -/
def encodedLength? (b : UInt8) : Option Nat :=
  if b < 0x80 then some 1
  else if b < 0xc0 then none
  else if b < 0xe0 then some 2
  else if b < 0xf0 then some 3
  else if b < 0xf8 then some 4
  else none

def goesOn (b : UInt8) : Bool := 0x80 ≤ b && b < 0xc0

/-- Are these the first bytes of an encoding that is not complete? -/
def isPartial : List UInt8 → Bool
  | [] => true
  | b :: bs => (encodedLength? b).any (bs.length + 1 < ·) && bs.all goesOn

/-- Bytes that encode a character. -/
def encoded (bytes : List UInt8) : Reading :=
  match String.fromUTF8? ⟨bytes.toArray⟩ with
  | some text => .ofKey? (text.toList.head?.map .char)
  | none => if isPartial bytes then .unfinished else .nothing

/-- Bytes that start no sequence: a control character, or an encoded one. -/
def single : List UInt8 → Reading
  | [] => .unfinished
  | b :: bs =>
    let n := b.toNat
    if n = 0 then .ctrl ' '
    else if n = 0x09 then .key .tab
    else if n = 0x0d then .key .enter
    else if n ≤ 0x1a then .ctrl (Char.ofNat (n - 1 + 'a'.toNat))
    else if 0x1c ≤ n ∧ n ≤ 0x1f then .ctrl (Char.ofNat (n - 0x1c + '4'.toNat))
    else if n = 0x7f then .key .backspace
    else encoded (b :: bs)

/-! ## Keys -/

/-- The keys that a letter names, after `ESC [` and after numbers. -/
def letterKey? : Char → Option Key
  | 'A' => some .up
  | 'B' => some .down
  | 'C' => some .right
  | 'D' => some .left
  | 'F' => some .endKey
  | 'H' => some .home
  | _ => none

/-- The function key of a letter counted from another one. -/
def functionKey? (first last c : Char) : Option Key :=
  if first ≤ c ∧ c ≤ last then some (.function (c.toNat - first.toNat + 1)) else none

/-- The key of a letter after numbers.  The numbers tell the modifiers, and nothing here
depends on which. -/
def modified (letter : Char) : Reading :=
  .ofKey? ((letterKey? letter).orElse fun _ => functionKey? 'P' 'S' letter)

/-- The keys that a number names, between `ESC [` and `~`. -/
def numberKey? (n : Nat) : Option Key :=
  if n = 1 ∨ n = 7 then some .home
  else if n = 2 then some .insert
  else if n = 3 then some .delete
  else if n = 4 ∨ n = 8 then some .endKey
  else if n = 5 then some .pageUp
  else if n = 6 then some .pageDown
  else if 11 ≤ n ∧ n ≤ 15 then some (.function (n - 10))
  else if 17 ≤ n ∧ n ≤ 21 then some (.function (n - 11))
  else if 23 ≤ n ∧ n ≤ 26 then some (.function (n - 12))
  else if 28 ≤ n ∧ n ≤ 29 then some (.function (n - 15))
  else if 31 ≤ n ∧ n ≤ 34 then some (.function (n - 17))
  else none

/-! ## Numbers between semicolons -/

/-- The texts between semicolons. -/
def fields : List Char → List (List Char)
  | [] => [[]]
  | c :: cs =>
    if c = ';' then [] :: fields cs
    else
      match fields cs with
      | [] => [[c]]
      | f :: fs => (c :: f) :: fs

def byte? (field : List Char) : Option Nat := (Number.readNat 256 field).toOption

def coordinate? (field : List Char) : Option Nat := (Number.readNat 65536 field).toOption

/-- What is reported with so many coordinates, which count from one. -/
def located (r : Reading) : Nat → List (List Char) → Reading
  | 0, _ => r
  | _ + 1, [] => .nothing
  | n + 1, f :: fs =>
    match coordinate? f with
    | none => .nothing
    | some 0 => .impossible
    | some _ => located r n fs

/-! ## The pointer -/

/-- Is there such a button?  Its number is in the two lowest and the two highest of
eight bits; the bits between tell of modifiers and of motion. -/
def isButton (bits : Nat) : Bool := bits / 64 * 4 + bits % 4 ≤ 5

/-- A report in numbers: a button, counted from some number, and a place. -/
def pointerNumbers (first : Nat) : List (List Char) → Reading
  | [] => .nothing
  | f :: place =>
    match byte? f with
    | none => .nothing
    | some n =>
      if first ≤ n ∧ isButton (n - first) then located (.input .pointer) 2 place else .nothing

/-- A report in bytes: a button and a place, all counted from the space. -/
def pointerBytes : List Char → Reading
  | b :: x :: y :: _ =>
    if b < ' ' ∨ !isButton (b.toNat - ' '.toNat) then .nothing
    else if x ≤ ' ' ∨ y ≤ ' ' then .impossible
    else .input .pointer
  | _ => .unfinished

/-! ## Sequences -/

/-- A sequence of numbers, from the first digit to the final character. -/
def numbered (cs : List Char) : Reading :=
  match cs.getLast? with
  | none => .unfinished
  | some final =>
    let numbers := cs.dropLast
    if numbers.isEmpty ∨ final.toNat < 64 ∨ 126 < final.toNat then .unfinished
    else if final = 'M' then pointerNumbers 32 (fields numbers)
    else if final = 'R' then located .cursorReport 2 (fields numbers)
    else if final = '~' then .ofKey? (((fields numbers).head?.bind byte?).bind numberKey?)
    else modified final

/-- A report of the pointer, from what follows `ESC [ <` to the final letter. -/
def angled (cs : List Char) : Reading :=
  if cs.getLast? = some 'm' ∨ cs.getLast? = some 'M' then pointerNumbers 0 (fields cs.dropLast)
  else .unfinished

/-- What follows `ESC [`. -/
def bracket : List Char → Reading
  | [] => .unfinished
  | '[' :: [] => .unfinished
  | '[' :: d :: _ => .ofKey? (functionKey? 'A' 'E' d)
  | 'Z' :: _ => .key .backTab
  | 'M' :: cs => pointerBytes cs
  | '<' :: cs => angled cs
  | c :: cs => if (Number.digit? c).isSome then numbered (c :: cs) else .ofKey? (letterKey? c)

/-- What follows the escape character, if anything does; `more` says whether other
bytes are there to be read. -/
def escaped (more : Bool) (bytes : List UInt8) : Reading :=
  match bytes.map code with
  | [] => if more then .unfinished else .key .escape
  | '\x1b' :: _ => .key .escape
  | '[' :: cs => bracket cs
  | 'O' :: [] => .unfinished
  | 'O' :: d :: _ => .ofKey? (functionKey? 'P' 'S' d)
  | _ => (single bytes).withAlt

/-- What bytes amount to. -/
def read (more : Bool) : List UInt8 → Reading
  | [] => .unfinished
  | b :: bs => if code b = '\x1b' then escaped more bs else single (b :: bs)

end Sequence

/-! ## Chunks -/

/-- What arrives from a terminal. -/
inductive Arrival where
  | input (i : Input)
  | cursorReport
  deriving DecidableEq, Repr

namespace Arrival

def input? : Arrival → Option Input
  | input i => some i
  | cursorReport => none

/-- What arrives with a chunk, after bytes that were left over, and the bytes that
are left over then; `more` says whether the chunk is not all there is to read.
There is no answer after an impossible report. -/
def ofChunk (more : Bool) (left : List UInt8) :
    List UInt8 → Option (List Arrival × List UInt8)
  | [] => some ([], left)
  | b :: bs =>
    let sofar := left ++ [b]
    match Sequence.read (more || !bs.isEmpty) sofar with
    | .unfinished => ofChunk more sofar bs
    | .nothing => ofChunk more [] bs
    | .input i => (ofChunk more [] bs).map fun (others, left) => (.input i :: others, left)
    | .cursorReport =>
      (ofChunk more [] bs).map fun (others, left) => (.cursorReport :: others, left)
    | .impossible => none

end Arrival

end Chip8Vm.Terminal
