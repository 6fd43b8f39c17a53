import Chiptune.Bank.Instrument
import Chiptune.Bank.Table
import Chiptune.Bank.Waveform
import Chiptune.Score.Song

/-! # Modules

A module is a song together with the instruments and the waveforms that it refers to. -/

namespace Chiptune

/-- A song with its instruments and waveforms. -/
structure Module where
  /-- The song. -/
  song : Song
  /-- The instruments by the identifiers that rows use. -/
  instruments : Table Instrument
  /-- The waveforms by the identifiers that envelopes of the wave channel use. -/
  waveforms : Table Waveform
  deriving DecidableEq, Repr

namespace Module

/-- The module of a song, without instruments and waveforms. -/
def ofSong (song : Song) : Module where
  song
  instruments := Table.empty
  waveforms := Table.empty

/-- The module of a song without a title and without tracks. -/
def empty : Module :=
  ofSong (Song.new "")

instance : Inhabited Module := ⟨empty⟩

end Module
end Chiptune
