/-!
# Readers

A reader takes a value off the front of a text, or fails. It tries alternatives
in order and keeps to the first that succeeds; repetition takes as much as it
can and never gives anything back.

Besides its result a reader reports where it got stuck: the furthest place at
which a `rule` was tried and failed, be it on a path that was given up later. A
place is known by the number of characters that are left from it on, so the
furthest place is the one with the fewest left.
-/

namespace SchemaTypings.Text

/-- What came of reading: the furthest place where a rule failed, if one did, and
the value read with the text that follows it. -/
structure Attempt (α : Type) where
  stuck : Option Nat
  result : Option (α × List Char)

/-- Takes a value off the front of a text. -/
def Reader (α : Type) : Type := List Char → Attempt α

/-- A value with the place where it is written. -/
structure Located (α : Type) where
  value : α
  /-- How many characters of the text are left from the value on. -/
  left : Nat
deriving DecidableEq, Repr

def further : Option Nat → Option Nat → Option Nat
  | none, b => b
  | a, none => a
  | some a, some b => some (min a b)

namespace Reader

variable {α β : Type}

/-! ### Single steps -/

def done (a : α) : Reader α := fun text => ⟨none, some (a, text)⟩

def fail : Reader α := fun _ => ⟨none, none⟩

/-- Reads by a function that reports nothing about its failures. -/
def ofFunction (read : List Char → Option (α × List Char)) : Reader α :=
  fun text => ⟨none, read text⟩

/-- What is left, not read. -/
def remaining : Reader Nat := fun text => ⟨none, some (text.length, text)⟩

/-- A named rule: when it fails, the place where it was tried counts. -/
def rule (read : Reader α) : Reader α := fun text =>
  match read text with
  | ⟨stuck, none⟩ => ⟨further stuck (some text.length), none⟩
  | attempt => attempt

/-! ### Combinations -/

def andThen (first : Reader α) (next : α → Reader β) : Reader β := fun text =>
  match first text with
  | ⟨stuck, none⟩ => ⟨stuck, none⟩
  | ⟨stuck, some (a, rest)⟩ => ⟨further stuck (next a rest).stuck, (next a rest).result⟩

instance : Monad Reader where
  pure := done
  bind := andThen

def orElse (first second : Reader α) : Reader α := fun text =>
  match first text with
  | ⟨stuck, none⟩ => ⟨further stuck (second text).stuck, (second text).result⟩
  | attempt => attempt

/-- The first of several readers that succeeds. -/
def firstOf : List (Reader α) → Reader α
  | [] => fail
  | [read] => read
  | read :: others => orElse read (firstOf others)

def optional (read : Reader α) : Reader (Option α) :=
  orElse (andThen read fun a => done (some a)) (done none)

/-- As many values as can be read. A value that takes no text would repeat for
ever, so it ends the repetition. -/
def many (read : Reader α) (text : List Char) : Attempt (List α) :=
  match read text with
  | ⟨stuck, none⟩ => ⟨stuck, some ([], text)⟩
  | ⟨stuck, some (a, rest)⟩ =>
    if rest.length < text.length then
      let others := many read rest
      ⟨further stuck others.stuck, others.result.map fun (as, last) => (a :: as, last)⟩
    else ⟨stuck, some ([], text)⟩
termination_by text.length

/-- One value and as many more as can be read. -/
def several (read : Reader α) : Reader (List α) :=
  andThen read fun a => andThen (many read) fun as => done (a :: as)

end Reader

end SchemaTypings.Text
