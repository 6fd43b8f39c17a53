import Chiptune.Recording

/-! # Traces

A trace is the text of a recording: a line that sums it up, then a line for each frame, followed by
an indented line for each of its writes. -/

namespace Chiptune

/-- The text of some lines, each of which is ended. -/
def endLines (lines : List String) : String :=
  String.join (lines.map fun line => line ++ "\n")

/-- The lines of a frame: its report, then its writes. -/
def RecordedFrame.traceLines (f : RecordedFrame) : List String :=
  f.report.text :: f.writes.map fun w => "    " ++ w.text

namespace Recording

open Numeral in
/-- The line that sums up a recording. -/
def traceHeader (r : Recording) : String :=
  "# " ++ decimal 1 r.frames.length ++ " frames, " ++ decimal 1 r.totalWrites ++ " writes" ++
    (if r.isHalted then ", halted" else "")

/-- The lines of a trace. -/
def traceLines (r : Recording) : List String :=
  r.traceHeader :: r.frames.flatMap RecordedFrame.traceLines

/-- The text of a trace. -/
def trace (r : Recording) : String :=
  endLines r.traceLines

/-- A trace has a line for itself, for each frame and for each write. -/
theorem length_traceLines (r : Recording) :
    r.traceLines.length = 1 + r.frames.length + r.totalWrites := by
  have lines (fs : List RecordedFrame) :
      (fs.flatMap RecordedFrame.traceLines).length =
        fs.length + countWrites fs := by
    induction fs with
    | nil => rfl
    | cons f fs ih =>
      simp only [List.flatMap_cons, List.length_append, ih, RecordedFrame.traceLines,
        List.length_cons, List.length_map, countWrites]
      omega
  rw [traceLines, List.length_cons, lines, totalWrites]
  omega

end Recording
end Chiptune
