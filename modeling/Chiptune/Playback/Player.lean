import Chiptune.Playback.FrameReport
import Chiptune.Playback.Transport
import Chiptune.Playback.Voice

/-! # Players

A player plays the song of a module frame by frame.  On the first frame of a row it makes the move
that waits and reads a line of the song; on every frame it updates the voices and then the switches
of the outputs.  `step` yields the writes of one frame. -/

namespace Chiptune

/-- Why playback cannot start at a position. -/
inductive StartError where
  /-- The order list has no such entry. -/
  | orderOutOfRange (order count : Nat)
  /-- The pattern has no such row. -/
  | rowOutOfRange (row rows : Nat)
  deriving DecidableEq, Repr

open Numeral in
/-- The wording of a refused start. -/
def StartError.message : StartError → String
  | orderOutOfRange order count =>
      "start order " ++ decimal 1 order ++ " outside order list of " ++ decimal 1 count
  | rowOutOfRange row rows =>
      "start row " ++ decimal 1 row ++ " outside pattern of " ++ decimal 1 rows ++ " rows"

/-- The state of playback. -/
structure Player where
  /-- The way through the song. -/
  transport : Transport
  /-- The state of each channel. -/
  voices : PerChannel Voice
  /-- The output switches that were written last. -/
  outputsWritten : UInt8 := 0
  /-- The report of the last frame. -/
  report : FrameReport
  deriving DecidableEq, Repr

namespace Player

/-! ### Starting and steering -/

/-- The player at a position of a song, before the first frame. -/
def atPosition (song : Song) (position : Position) : Player where
  transport := { position, clock := RowClock.new song.speed }
  voices := PerChannel.ofFn Voice.new
  report := FrameReport.start song.speed position

/-- Start playback at a position, which must lie within the song; the order is looked at first. -/
def start (m : Module) (position : Position) : Except StartError Player :=
  let size := m.song.extent
  if size.orders ≤ position.order then .error (.orderOutOfRange position.order size.orders)
  else if size.rows ≤ position.row then .error (.rowOutOfRange position.row size.rows)
  else .ok (atPosition m.song position)

/-- Repeat the current pattern instead of moving on, or stop doing so. -/
def setRepeat (p : Player) (repeats : Bool) : Player :=
  { p with transport := { p.transport with repeats } }

/-- Go to the first row of an order on the next frame; orders outside the song are ignored. -/
def jump (p : Player) (m : Module) (order : Nat) : Player :=
  { p with transport := p.transport.jump m.song.extent order }

/-- Stop playback for good. -/
def halt (p : Player) : Player :=
  { p with report := { p.report with isHalted := true } }

/-- Whether playback has stopped. -/
def isHalted (p : Player) : Bool :=
  p.report.isHalted

/-- The speed in effect. -/
def speed (p : Player) : Speed :=
  p.transport.clock.period

/-- Whether a note sounds on a channel. -/
def isPlaying (p : Player) (c : Channel) : Bool :=
  (p.voices.get c).isPlaying

/-! ### Voices -/

/-- What the voices make of a frame, each by itself; their writes stand in the order of the
channels. -/
def eachVoice (voices : PerChannel Voice) (f : Channel → Voice → Voice × List DeviceWrite) :
    PerChannel Voice × List DeviceWrite :=
  let results := PerChannel.ofFn fun c => f c (voices.get c)
  (results.map Prod.fst, results.toList.flatMap Prod.snd)

/-- The voice of a channel depends on that channel alone. -/
@[simp] theorem get_eachVoice (voices : PerChannel Voice)
    (f : Channel → Voice → Voice × List DeviceWrite) (c : Channel) :
    (eachVoice voices f).1.get c = (f c (voices.get c)).1 := by
  simp [eachVoice]

/-- The output switches that the voices ask for. -/
def outputMask (voices : PerChannel Voice) : UInt8 :=
  Channel.all.foldl (fun mask c => mask ||| (voices.get c).output.bits c) 0

/-! ### Rows -/

/-- Enter a row: a move that waits is made, and the report names the new position. -/
def enterRow (p : Player) (m : Module) : Player :=
  let t := p.transport.enterRow m.song.extent
  { p with
    transport := { t with entersPattern := false }
    report := p.report.enterRow t.position t.entersPattern }

/-- Read a line: every voice reads its row, and the transport obeys the effects of all of them. -/
def readLine (p : Player) (m : Module) (line : Line) : Player × List DeviceWrite :=
  let (voices, ws) := eachVoice p.voices fun c v =>
    if line.reads c then v.readRow m.waveforms c (line.get c) else (v, [])
  let transport := line.effects.foldl (fun t e => t.obey m.song.extent e) p.transport
  let p := { p with transport, voices }
  (if line.halts then p.halt else p, ws)

/-- Begin a row if it is time for one. -/
def beginRow (p : Player) (m : Module) : Player × List DeviceWrite :=
  if p.transport.clock.isFirst then
    let p := p.enterRow m
    p.readLine m (m.song.line p.transport.position)
  else (p, [])

/-! ### Frames -/

/-- Begin a frame, on which no row has started yet. -/
def beginFrame (p : Player) : Player :=
  { p with report := { p.report with startsRow := false, startsPattern := false } }

/-- Update all voices, and write the output switches if they have changed. -/
def updateVoices (p : Player) (m : Module) : Player × List DeviceWrite :=
  let (voices, ws) := eachVoice p.voices fun c v => v.update m c
  let mask := outputMask voices
  ({ p with voices, outputsWritten := mask },
   ws ++ if mask = p.outputsWritten then [] else [.outputEnable mask])

/-- End a frame: its time passes. -/
def endFrame (p : Player) (m : Module) : Player :=
  let transport := p.transport.step m.song.extent
  let report := { p.report with speed := transport.clock.period, time := p.report.time + 1 }
  { p with transport, report }

/-- Play one frame of the song.  A row that stops playback ends the frame where it says so, and a
player that has stopped does nothing. -/
def step (p : Player) (m : Module) : Player × List DeviceWrite :=
  let p := p.beginFrame
  if p.isHalted then (p, [])
  else
    let (p, rowWrites) := p.beginRow m
    if p.isHalted then (p, rowWrites)
    else
      let (p, voiceWrites) := p.updateVoices m
      (p.endFrame m, rowWrites ++ voiceWrites)

end Player
end Chiptune
