import Chiptune.Score.Line
import Chiptune.Score.Position
import Chiptune.Score.Speed
import Chiptune.Score.Track
import Chiptune.Text.Name

/-! # Songs

A song is a list of orders, each of which names one track for every channel, together with the
tracks themselves.  All tracks have the song's number of rows, so an order stands for a pattern of
four tracks.  Tracks that were never made, and rows behind the end, read as empty. -/

namespace Chiptune

/-- A song: its tracks and the order in which they are played. -/
structure Song where
  /-- The title, within the size of a stored name. -/
  title : String
  /-- The rows of a beat, by which a tempo is turned into a speed. -/
  rowsPerBeat : Nat
  /-- The speed at the start. -/
  speed : Speed
  /-- The number of rows of every track. -/
  rowsPerPattern : Nat
  /-- The track of each channel, for every entry of the order list. -/
  order : Array (PerChannel Nat)
  /-- The tracks of each channel, by their identifiers. -/
  tracks : PerChannel (Array Track)
  /-- The order list has an entry. -/
  order_pos : 0 < order.size := by decide
  /-- The order list has at most 256 entries. -/
  order_le : order.size ≤ 256 := by decide
  /-- A pattern has a row. -/
  rows_pos : 0 < rowsPerPattern := by decide
  /-- A pattern has at most 256 rows. -/
  rows_le : rowsPerPattern ≤ 256 := by decide
  deriving DecidableEq, Repr

/-- The four tracks that an entry of the order list names. -/
structure Pattern where
  /-- The number of rows. -/
  rows : Nat
  /-- The track of each channel, where there is one. -/
  tracks : PerChannel (Option Track)
  deriving DecidableEq, Repr

/-- The row of a channel; a missing track reads as empty. -/
def Pattern.row (p : Pattern) (c : Channel) (i : Nat) : Row :=
  match p.tracks.get c with
  | some t => t.row i
  | none => Row.empty

namespace Song

/-- A song without tracks: one order that names track zero everywhere, 64 rows, four to a beat. -/
def new (title : String) : Song where
  title := Name.truncate title
  rowsPerBeat := 4
  speed := Speed.standard
  rowsPerPattern := 64
  order := #[PerChannel.replicate 0]
  tracks := PerChannel.replicate #[]

instance : Inhabited Song := ⟨new ""⟩

/-! ### Timing -/

/-- Set the speed at the start. -/
def setSpeed (s : Song) (raw : Nat) : Except EditError Song := do
  let speed ← Speed.ofRaw raw
  return { s with speed }

/-- Set the speed at the start from a tempo in beats per minute. -/
def setTempo (s : Song) (tempo : Nat) : Song :=
  { s with speed := Speed.ofTempo tempo s.rowsPerBeat }

/-! ### Order list -/

/-- The number of entries of the order list. -/
def orderCount (s : Song) : Nat :=
  s.order.size

/-- The size of a song. -/
def extent (s : Song) : Extent :=
  ⟨s.orderCount, s.rowsPerPattern, s.order_pos, s.order_le, s.rows_pos, s.rows_le⟩

/-- Replace the whole order list, which must neither be empty nor too long. -/
def setOrderList (s : Song) (entries : Array (PerChannel Nat)) : Except EditError Song :=
  if hpos : 0 < entries.size then
    if hle : entries.size ≤ 256 then
      .ok { s with order := entries, order_pos := hpos, order_le := hle }
    else .error .orderFull
  else .error (.orderIndexOutOfRange 0)

/-- Append an entry to the order list. -/
def pushOrder (s : Song) (entry : PerChannel Nat) : Except EditError Song :=
  s.setOrderList (s.order.push entry)

/-- Replace an entry of the order list. -/
def setOrder (s : Song) (i : Nat) (entry : PerChannel Nat) : Except EditError Song :=
  if i < s.orderCount then s.setOrderList (s.order.setIfInBounds i entry)
  else .error (.orderIndexOutOfRange i)

/-! ### Tracks -/

/-- The track of a channel with an identifier, if it was made. -/
def track? (s : Song) (c : Channel) (id : Nat) : Option Track :=
  (s.tracks.get c)[id]?

/-- Make a track, and all those before it, unless they are there. -/
def ensureTrack (s : Song) (c : Channel) (id : Nat) : Song :=
  let tracks := s.tracks.get c
  let missing := Array.replicate (id + 1 - tracks.size) (Track.blank s.rowsPerPattern)
  { s with tracks := s.tracks.set c (tracks ++ missing) }

/-- Change a track, which is made first if need be. -/
def modifyTrack (s : Song) (c : Channel) (id : Nat) (f : Track → Track) : Song :=
  let s := s.ensureTrack c id
  { s with tracks := s.tracks.set c ((s.tracks.get c).modify id f) }

/-- Replace a row of a track; a row behind the end is ignored. -/
def setRow (s : Song) (c : Channel) (id i : Nat) (r : Row) : Song :=
  s.modifyTrack c id fun t => t.set i r

/-- Change a row of a track; a row behind the end is ignored. -/
def modifyRow (s : Song) (c : Channel) (id i : Nat) (f : Row → Row) : Song :=
  s.modifyTrack c id fun t => t.modify i f

/-- Set the number of rows of a pattern; every track is cut off or extended to it. -/
def setRowsPerPattern (s : Song) (rows : Nat) : Except EditError Song :=
  if h : 0 < rows ∧ rows ≤ 256 then
    .ok {
      s with
      rowsPerPattern := rows
      tracks := s.tracks.map fun ts => ts.map fun t => t.resize rows
      rows_pos := h.1
      rows_le := h.2 }
  else .error (.rowCountOutOfRange rows)

/-! ### Reading -/

/-- The pattern of an entry of the order list. -/
def pattern? (s : Song) (order : Nat) : Option Pattern :=
  (s.order[order]?).map fun entry =>
    { rows := s.rowsPerPattern
      tracks := PerChannel.ofFn fun c => s.track? c (entry.get c) }

/-- The row of a channel at a position of the song; where there is none, it is empty. -/
def row (s : Song) (p : Position) (c : Channel) : Row :=
  match s.pattern? p.order with
  | some pattern => pattern.row c p.row
  | none => Row.empty

/-- The rows of all channels at a position of the song. -/
def line (s : Song) (p : Position) : Line :=
  PerChannel.ofFn (s.row p)

end Song
end Chiptune
