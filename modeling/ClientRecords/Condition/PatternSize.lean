import ClientRecords.Arithmetic
import ClientRecords.Condition.Pattern
import ClientRecords.Text.Encoding
/-!
The size of the machines that run a pattern. A machine reads a text byte by byte, forward or
backward, and no pattern is accepted whose machines take more than ten mebibytes. A state takes 32
bytes, and each way out of a state that has several takes some more.
-/

namespace ClientRecords

open Text (ByteRange ByteSequence)

/-- The size of a machine: its states, and the bytes that it takes beside them. -/
structure MachineSize where
  states : Nat
  extra : Nat
  deriving DecidableEq

namespace MachineSize

def bytes (m : MachineSize) : Nat := 32 * m.states + m.extra

def add (m : MachineSize) (states extra : Nat) : MachineSize :=
  ⟨m.states + states, m.extra + extra⟩

end MachineSize

/-- What a machine reads for one element of a pattern. -/
inductive Reading where
  /-- The bytes of one character. -/
  | bytes (count : Nat)
  /-- One byte out of some. -/
  | oneByte (choices : Nat)
  /-- One sequence of bytes out of some. -/
  | sequence (choices : List ByteSequence)
  deriving DecidableEq

/-- What a machine reads for a letter: every form of it. -/
def Reading.ofLetter (c : Char) : Reading :=
  let forms := (Text.variants c).mergeSort
  if forms.length = 1 then .bytes c.utf8Size
  else if forms.all (·.toNat < 128) then .oneByte forms.length
  else .sequence (Text.encodings forms)

/-! A machine that reads forward reaches one state by equal bytes, and states that lead on alike are
one. -/

namespace Forward

/-- What is left of the sequences that begin with a given start and go on. -/
def restsAfter (start : ByteSequence) (ss : List ByteSequence) : List ByteSequence :=
  ss.filterMap fun s =>
    if start.isPrefixOf s && start.length < s.length then some (s.drop start.length) else none

/-- The states that read the sequences, each as what is left to read. -/
def nodes (ss : List ByteSequence) : List (List ByteSequence) :=
  let starts := ss.flatMap fun s => (List.range s.length).map s.take
  (starts.map fun start => restsAfter start ss).eraseDups

/-- The ways out of a state. -/
def waysOut (rests : List ByteSequence) : Nat := (rests.map List.head?).eraseDups.length

/-- The size of the part that reads one of the sequences. -/
def sequenceSize (ss : List ByteSequence) : MachineSize :=
  ⟨1 + (nodes ss).length, 8 * total ((nodes ss).map waysOut)⟩

/-- The size of the part that reads any character. -/
def anySize : MachineSize := sequenceSize Text.anyCharacter

def add (m : MachineSize) : Reading → MachineSize
  | .bytes n => m.add n 0
  | .oneByte n => m.add 2 (8 * n)
  | .sequence ss =>
    let part := sequenceSize ss
    m.add part.states part.extra

def addElement (m : MachineSize) : Wildcard → MachineSize
  | .run => m.add (1 + anySize.states) (8 + anySize.extra)
  | .one => m.add anySize.states anySize.extra
  | .letter c => add m (.ofLetter c)

/-- The size of the machine that reads a pattern from its first element. -/
def size (ws : List Wildcard) : MachineSize := ws.foldl addElement ⟨6, 0⟩

end Forward

/-! A machine that reads backward shares the states for equal first bytes of the forms of a letter,
as long as it remembers them: of the steps that fall into one of a thousand slots it remembers the
newest. -/

namespace Backward

/-- A step from a new state to a known one. -/
structure Step where
  target : Nat
  bytes : ByteRange
  deriving DecidableEq

/-- The slot of a step: a hash that takes in its parts one after the other. -/
def Step.slot (s : Step) : UInt64 :=
  let mix (hash part : UInt64) : UInt64 := (hash ^^^ part) * 1099511628211
  let start : UInt64 := 14695981039346656037
  mix (mix (mix start s.target.toUInt64) s.bytes.first.toUInt64) s.bytes.last.toUInt64 % 1000

/-- The states of a machine, and the steps of the present letter with the states that they start
from, the newest first. -/
structure Progress where
  states : Nat
  steps : List (Step × Nat)

/-- The state that a step starts from, if the step is remembered. -/
def Progress.source? (p : Progress) (step : Step) : Option Nat :=
  match p.steps.find? (fun known => known.1.slot == step.slot) with
  | some (known, state) => if known = step then some state else none
  | none => none

/-- Adds a sequence of bytes. It is read from its last byte, so its first byte leads to the end of
the letter. -/
def addSequence : Nat → Progress → ByteSequence → Progress
  | _, p, [] => p
  | target, p, bytes :: rest =>
    match p.source? ⟨target, bytes⟩ with
    | some state => addSequence state p rest
    | none => addSequence p.states ⟨p.states + 1, (⟨target, bytes⟩, p.states) :: p.steps⟩ rest

/-- Adds the choice among some sequences: a state that opens it, one that ends it, and the states
between them. -/
def addChoice (m : MachineSize) (ss : List ByteSequence) : MachineSize :=
  let whole := ss.foldl (addSequence (m.states + 1)) ⟨m.states + 2, []⟩
  ⟨whole.states, m.extra + 4 * ss.length⟩

def add (m : MachineSize) : Reading → MachineSize
  | .bytes n => m.add n 0
  | .oneByte n => m.add 2 (8 * n)
  | .sequence ss => addChoice m ss

def addElement (m : MachineSize) : Wildcard → MachineSize
  | .run => addChoice (m.add 1 8) Text.anyCharacter
  | .one => addChoice m Text.anyCharacter
  | .letter c => add m (.ofLetter c)

/-- The size of the machine that reads a pattern from its last element. -/
def size (ws : List Wildcard) : MachineSize := (ws.reverse.foldl addElement ⟨2, 0⟩).add 2 0

end Backward

namespace Pattern

/-- The bytes that the larger of the two machines of a pattern takes. -/
def size (p : Pattern) : Nat :=
  max (Forward.size p.elements).bytes (Backward.size p.elements).bytes

/-- No machine takes more than ten mebibytes. -/
def sizeLimit : Nat := 10 * pow2 20

/-- The pattern of a text, unless it is too large. -/
def ofText? (s : String) : Option Pattern :=
  let p : Pattern := ⟨s⟩
  if p.size ≤ sizeLimit then some p else none

end Pattern
end ClientRecords
