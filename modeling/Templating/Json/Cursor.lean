import Templating.Json.Error
import Templating.Text.Width

/-!
# A cursor over JSON text

* `Cursor`: the rest of a text, and how many bytes lie before it.
* `Parse`: an action that moves a cursor. It fails with a fault and the number of bytes read.
* `place`: the line and the column after a number of bytes.
-/

namespace Templating.Json

open Text

/-- A text of which a part has been read. -/
structure Cursor where
  rest : List Char
  /-- The bytes before the rest. -/
  index : Nat

/-- A fault, and the bytes read when it was noticed. -/
structure Failure where
  fault : Fault
  index : Nat

/-- An action that moves a cursor. -/
abbrev Parse := EStateM Failure Cursor

/-- The line and column after `n` more bytes, from a line and column on. A byte in the middle of a
character counts for the column. -/
def placeFrom : List Char → Nat → Nat × Nat → Nat × Nat
  | [], _, p => p
  | c :: cs, n, (line, column) =>
    if n = 0 then (line, column)
    else if n < c.utf8Size then (line, column + n)
    else
      placeFrom cs (n - c.utf8Size)
        (if c = '\n' then (line + 1, 0) else (line, column + c.utf8Size))

/-- The line and column after a number of bytes. -/
def place (text : List Char) (index : Nat) : Nat × Nat := placeFrom text index (1, 0)

/-- The error of a failure in a text. -/
def Failure.toError (f : Failure) (text : List Char) : Error :=
  let (line, column) := place text f.index
  ⟨f.fault, line, column⟩

namespace Parse

/-- Fails after a number of bytes. -/
def failAt {α : Type} (fault : Fault) (index : Nat) : Parse α := throw ⟨fault, index⟩

/-- Fails because of what was read last. -/
def fail {α : Type} (fault : Fault) : Parse α := do failAt fault (← get).index

/-- Fails because of what comes next: its first byte counts as read. -/
def failNext {α : Type} (fault : Fault) : Parse α := do
  let c ← get
  failAt fault (if c.rest.isEmpty then c.index else c.index + 1)

/-- Moves behind the next `n` characters. -/
def skip (n : Nat) : Parse Unit :=
  modify fun c => ⟨c.rest.drop n, c.index + byteLength (c.rest.take n)⟩

/-- The next character, if there is one. -/
def peek? : Parse (Option Char) := return (← get).rest.head?

/-- The next character, which is consumed. -/
def next? : Parse (Option Char) := do
  let c ← peek?
  skip 1
  return c

/-- The characters of a class that come next, which are consumed. -/
def takeWhile (p : Char → Bool) : Parse (List Char) := do
  let run := (← get).rest.takeWhile p
  skip run.length
  return run

/-- The characters between tokens. -/
def isGap (c : Char) : Bool := c = ' ' || c = '\n' || c = '\t' || c = '\r'

/-- The next character that is no gap; what comes before it is consumed. -/
def peekToken? : Parse (Option Char) := do
  let _ ← takeWhile isGap
  peek?

/-- Consumes the rest of a word. -/
def word : List Char → Parse Unit
  | [] => return ()
  | c :: cs => do
    let start := (← get).index
    match ← next? with
    | none => fail .eofInValue
    | some got => if got = c then word cs else failAt .expectedIdent (start + 1)

end Parse

end Templating.Json
