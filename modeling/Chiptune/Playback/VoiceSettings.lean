import Chiptune.Device.Layout

/-! # Voice settings

The settings of a channel last until an effect changes them. -/

namespace Chiptune

/-- The settings of a channel. -/
structure VoiceSettings where
  /-- The envelope, or the waveform on the wave channel. -/
  envelope : UInt8
  /-- The timbre, from zero to three. -/
  timbre : UInt8
  /-- The outputs of the channel. -/
  panning : Panning
  /-- Whether every note starts the channel anew. -/
  autoRetrigger : Bool
  deriving DecidableEq, Repr

namespace VoiceSettings

/-- The settings of a channel before any effect. -/
def new (c : Channel) : VoiceSettings where
  envelope := if c = .ch3 then 0x00 else 0xF0
  timbre := if c = .ch4 then 0 else 3
  panning := Panning.both
  autoRetrigger := false

/-- Set the envelope, by which notes may have to start the channel anew. -/
def setEnvelope (s : VoiceSettings) (c : Channel) (envelope : UInt8) : VoiceSettings :=
  { s with envelope, autoRetrigger := c.envelopeSlopes envelope }

end VoiceSettings
end Chiptune
