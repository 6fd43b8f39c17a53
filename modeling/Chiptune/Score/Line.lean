import Chiptune.Channel
import Chiptune.Score.Row

/-! # Lines

A line holds the rows of all channels at one position of a song.  Its rows are read in the order of
the channels, up to the first that stops playback, which is read as well. -/

namespace Chiptune

/-- The rows of all channels at one position of a song. -/
abbrev Line := PerChannel Row

namespace Line

/-- Whether a line stops playback. -/
def halts (l : Line) : Bool :=
  Channel.all.any fun c => (l.get c).halts

/-- Whether the row of a channel is read: no channel before it stops playback. -/
def reads (l : Line) (c : Channel) : Bool :=
  (Channel.all.takeWhile fun d => d != c).all fun d => !(l.get d).halts

/-- The effects that are obeyed, in order. -/
def effects (l : Line) : List Effect :=
  (Channel.all.filter l.reads).flatMap fun c => (l.get c).obeyed

/-- Every row of a line that does not stop playback is read. -/
theorem reads_of_not_halts (l : Line) (h : l.halts = false) (c : Channel) : l.reads c = true := by
  simp only [halts, List.any_eq_false] at h
  simp only [reads, List.all_eq_true]
  intro d _
  simpa using h d d.mem_all

end Line
end Chiptune
