import Chiptune.CommandLine.Help
import Chiptune.CommandLine.Request
import Chiptune.Module.Demo
import Chiptune.Recording.Trace

/-! # Command line outcomes

The program plays the demonstration module, or auditions one of its instruments, and reports what
the sound chip saw; it also explains its options and names its version.  `run` gives everything that
a call of the program prints and writes. -/

namespace Chiptune
namespace CommandLine

/-- What a call of the program leaves. -/
structure Outcome where
  /-- The exit code. -/
  code : Nat
  /-- The lines of the report. -/
  output : List String := []
  /-- The lines about what went wrong. -/
  errors : List String := []
  /-- The file to write and its lines. -/
  trace : Option (String × List String) := none
  deriving DecidableEq, Repr

open Numeral

/-- The lines about the module itself. -/
def headerLines (m : Module) : List String :=
  let s := m.song
  let tempo := decimal 1 (s.speed.tempo s.rowsPerBeat)
  ["Title:    " ++ s.title,
   "Orders:   " ++ decimal 1 s.orderCount,
   "Rows:     " ++ decimal 1 s.rowsPerPattern,
   "Speed:    " ++ s.speed.text ++ " (" ++ tempo ++ " BPM)",
   "Instruments: " ++ decimal 1 m.instruments.size,
   ""]

/-- The line about the starts of a channel. -/
def retriggerLine (r : Recording) (c : Channel) : String :=
  let count := r.writes.countP fun w => w = .restart c
  "  " ++ c.name ++ ": " ++ decimal 1 count ++ " retriggers"

/-- The lines about a recording. -/
def recordingLines (r : Recording) : List String :=
  ["Frames:   " ++ decimal 1 r.frames.length,
   "Rows:     " ++ decimal 1 (r.frames.countP fun f => f.report.startsRow),
   "Patterns: " ++ decimal 1 (r.frames.countP fun f => f.report.startsPattern),
   "Writes:   " ++ decimal 1 r.totalWrites] ++
    Channel.all.map (retriggerLine r) ++
    if r.isHalted then ["Halted."] else []

/-- The lines about an audition. -/
def auditionLines (id note : Nat) (frames : List (List DeviceWrite)) : List String :=
  ("Preview of instrument " ++ hex 2 id ++ " on " ++ (Note.on note).text) ::
    frames.zipIdx.flatMap fun (ws, i) => ws.map fun w => decimal 3 i ++ " " ++ w.text

/-- The lines about a failure. -/
def failureLines (context : String) (cause : String) : List String :=
  ["Error: " ++ context, "", "Caused by:", "    " ++ cause]

/-- Record a module and report it. -/
def runRecording (m : Module) (o : Options) : Outcome :=
  let plan : RecordingPlan :=
    { start := ⟨o.order, o.row⟩, maxFrames := o.frames, repeats := o.repeatPattern }
  match m.record plan with
  | .ok r =>
      { code := 0
        output := headerLines m ++ recordingLines r
        trace := o.trace.map fun path => (path, r.traceLines) }
  | .error e =>
      { code := 1
        output := headerLines m
        errors := failureLines "failed to start playback" e.message }

/-- Audition an instrument of a module and report it. -/
def runAudition (m : Module) (id note : Nat) : Outcome :=
  match m.audition id note 30 2 with
  | .ok frames => { code := 0, output := headerLines m ++ auditionLines id note frames }
  | .error e =>
      { code := 1
        output := headerLines m
        errors := failureLines "failed to preview instrument" e.message }

/-- What a call of the program with some arguments leaves. -/
def run (args : List String) : Outcome :=
  match Request.ofArguments? args with
  | some (.play o) =>
      match o.preview with
      | some id => runAudition Module.demo id o.note
      | none => runRecording Module.demo o
  | some .help => { code := 0, output := helpLines }
  | some .version => { code := 0, output := [versionLine] }
  | none => { code := 2, errors := ["error: the arguments are not understood"] }

end CommandLine
end Chiptune
