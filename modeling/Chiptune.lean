import Chiptune.Bank.Instrument
import Chiptune.Bank.Sequence
import Chiptune.Bank.Table
import Chiptune.Bank.Waveform
import Chiptune.Channel
import Chiptune.CommandLine.Help
import Chiptune.CommandLine.Options
import Chiptune.CommandLine.Outcome
import Chiptune.CommandLine.Request
import Chiptune.Device.Layout
import Chiptune.Device.Panning
import Chiptune.Device.Write
import Chiptune.EditError
import Chiptune.Main
import Chiptune.Module
import Chiptune.Module.Demo
import Chiptune.Pitch.Params
import Chiptune.Pitch.Scale
import Chiptune.Pitch.State
import Chiptune.Pitch.Vibrato
import Chiptune.Playback.Audition
import Chiptune.Playback.FrameReport
import Chiptune.Playback.NoteGate
import Chiptune.Playback.Player
import Chiptune.Playback.RowClock
import Chiptune.Playback.Transport
import Chiptune.Playback.Voice
import Chiptune.Playback.VoiceSettings
import Chiptune.Program.Command
import Chiptune.Program.Runner
import Chiptune.Recording
import Chiptune.Recording.Trace
import Chiptune.Score.Effect
import Chiptune.Score.Line
import Chiptune.Score.Note
import Chiptune.Score.Position
import Chiptune.Score.Row
import Chiptune.Score.Song
import Chiptune.Score.Speed
import Chiptune.Score.Track
import Chiptune.Text.Name
import Chiptune.Text.Numeral
import Chiptune.Proofs.Device.Switches
import Chiptune.Proofs.Device.Ownership
import Chiptune.Proofs.Playback.Run
import Chiptune.Proofs.Playback.Steering
import Chiptune.Proofs.Playback.Navigation
import Chiptune.Proofs.Playback.Timing
import Chiptune.Proofs.Playback.Voices
import Chiptune.Proofs.Playback.Frequencies
import Chiptune.Proofs.Playback.VoiceWrites
import Chiptune.Proofs.Playback.VoicePanning
import Chiptune.Proofs.Playback.OutputMask
import Chiptune.Proofs.Playback.DeviceOutputs
import Chiptune.Proofs.Score.Agreement
import Chiptune.Proofs.Checked.Arithmetic
import Chiptune.Proofs.Checked.Modulation
import Chiptune.Proofs.Checked.Pitch
import Chiptune.Proofs.Checked.Program
import Chiptune.Proofs.Checked.Voice
import Chiptune.Proofs.Checked.Transport
import Chiptune.Proofs.Checked.Player
import Chiptune.Proofs.Playback.Isolation
import Chiptune.Proofs.Pitch.Sequences
import Chiptune.Proofs.Playback.Bindings
import Chiptune.Proofs.Audition.Run
import Chiptune.Proofs.Audition.Outputs
import Chiptune.Proofs.Playback.Solo
import Chiptune.Proofs.Audition.Echo
import Chiptune.Proofs.Audition.NoiseEcho
import Chiptune.Proofs.Playback.FirstNote
import Chiptune.Proofs.Program.Codec
import Chiptune.Proofs.Program.Execution
import Chiptune.Proofs.Playback.Inertia
import Chiptune.Proofs.Playback.Halting
import Chiptune.Proofs.Playback.Alike
import Chiptune.Proofs.Score.Exchange
import Chiptune.Proofs.Score.Sheet
import Chiptune.Proofs.Playback.Commutation
import Chiptune.Proofs.Playback.Patterns
import Chiptune.Proofs.Device.WaveMemory
import Chiptune.Proofs.Playback.WaveLoads
import Chiptune.Proofs.Score.Cells
import Chiptune.Proofs.Pitch.Run
import Chiptune.Proofs.Pitch.Consistency
import Chiptune.Proofs.Pitch.Slides
import Chiptune.Proofs.Pitch.VibratoWave
import Chiptune.Proofs.Bank.Readings
import Chiptune.Proofs.Pitch.Override
import Chiptune.Proofs.Pitch.Arpeggio
import Chiptune.Proofs.Pitch.FreshNotes
import Chiptune.Proofs.Playback.VoicePitch
import Chiptune.Proofs.Playback.VibratoDelay
import Chiptune.Proofs.Text.Numerals
import Chiptune.Proofs.Recording.TraceReader
import Chiptune.Proofs.Playback.NoteTimes
import Chiptune.Proofs.Playback.RowEnds
import Chiptune.Proofs.Playback.SpeedReports
import Chiptune.Proofs.Playback.Attacks
import Chiptune.Proofs.Bank.Streams
import Chiptune.Proofs.Bank.Holdings
import Chiptune.Proofs.Recording.FrameByFrame
import Chiptune.Proofs.Audition.HeldNotes
import Chiptune.Proofs.Score.Tempo
import Chiptune.Proofs.Bank.WaveText
import Chiptune.Proofs.Program.Boundaries
import Chiptune.Proofs.Text.Truncation
