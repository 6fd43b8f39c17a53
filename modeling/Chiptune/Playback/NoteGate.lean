import Chiptune.Score.Note

/-! # Note gates

A gate decides when the notes of a channel start and end.  Notes and cuts are requested some frames
ahead; a request replaces the one before it of the same kind, and where a note and a cut fall on the
same frame, the cut wins. -/

namespace Chiptune

/-- A note that is to start. -/
structure NoteRequest where
  /-- The note. -/
  note : Nat
  /-- The frames before the one on which it starts. -/
  delay : Nat
  deriving DecidableEq, Repr

/-- The requests of a channel, and whether a note sounds on it. -/
structure NoteGate where
  /-- The note that is to start. -/
  request : Option NoteRequest := none
  /-- The frames before the one on which the note is cut. -/
  cutIn : Option Nat := none
  /-- Whether a note sounds. -/
  isOpen : Bool := false
  deriving DecidableEq, Repr

namespace NoteGate

/-- The gate of a silent channel without requests, which is also what a reset leaves. -/
def new : NoteGate := {}

instance : Inhabited NoteGate := ⟨new⟩

/-! ### Requests -/

/-- Request a cut. -/
def requestCut (g : NoteGate) (delay : Nat) : NoteGate :=
  { g with cutIn := some delay }

/-- Request a note by its index; the index behind the last note requests a cut, and those above it
are ignored. -/
def requestNote (g : NoteGate) (note delay : Nat) : NoteGate :=
  if note = Note.cutIndex then g.requestCut delay
  else if note < Note.cutIndex then { g with request := some { note, delay } }
  else g

/-- A cut does not disturb a requested note. -/
@[simp] theorem request_requestCut (g : NoteGate) (delay : Nat) :
    (g.requestCut delay).request = g.request := rfl

/-- A playable note does not disturb a requested cut. -/
theorem cutIn_requestNote (g : NoteGate) {note : Nat} (delay : Nat) (h : note < Note.cutIndex) :
    (g.requestNote note delay).cutIn = g.cutIn := by
  rw [requestNote, if_neg (Nat.ne_of_lt h), if_pos h]

/-! ### Frames -/

/-- The note that is due. -/
def due? (g : NoteGate) : Option Nat :=
  match g.request with
  | some { note, delay := 0 } => some note
  | _ => none

/-- Whether a cut is due. -/
def cutIsDue (g : NoteGate) : Bool :=
  g.cutIn = some 0

/-- The requested note one frame later; a note that is due is no longer requested. -/
def laterRequest (g : NoteGate) : Option NoteRequest :=
  match g.request with
  | some { note, delay := n + 1 } => some { note, delay := n }
  | _ => none

/-- The requested cut one frame later; a cut that is due is no longer requested. -/
def laterCut (g : NoteGate) : Option Nat :=
  match g.cutIn with
  | some (n + 1) => some n
  | _ => none

/-- Advance by one frame; the result comes with the note that starts. -/
def step (g : NoteGate) : NoteGate × Option Nat :=
  ({ request := g.laterRequest
     cutIn := g.laterCut
     isOpen := (g.isOpen || g.due?.isSome) && !g.cutIsDue },
   if g.cutIsDue then none else g.due?)

end NoteGate
end Chiptune
