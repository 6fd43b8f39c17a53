import Chiptune.Proofs.Playback.Alike

/-! # What playback reads of a song

A song stores its rows in tracks, which orders name.  Nobody who plays it can tell how: a player
reads a song through its patterns, and of these only the rows that lie inside.

* `Song.SamePatterns` relates songs whose patterns have the same rows, in whichever tracks.
* `Song.SamePatterns.line` says that such songs have the same lines.
* `Module.plays_patterns` compares the runs and the recordings. -/

namespace Chiptune

namespace Song

/-- Songs that have the same patterns.  The tracks may be others, and so may the titles and the rows
of a beat. -/
structure SamePatterns (s s' : Song) : Prop where
  /-- The speeds at the start are equal. -/
  speed : s'.speed = s.speed
  /-- The order lists are equally long. -/
  orders : s'.orderCount = s.orderCount
  /-- The patterns have the same number of rows. -/
  rows : s'.rowsPerPattern = s.rowsPerPattern
  /-- The rows of the patterns are equal. -/
  row : ∀ o pattern pattern', s.pattern? o = some pattern → s'.pattern? o = some pattern' →
    ∀ c i, i < s.rowsPerPattern → pattern'.row c i = pattern.row c i

/-- Every entry of the order list stands for a pattern. -/
theorem exists_pattern (s : Song) {o : Nat} (ho : o < s.orderCount) :
    ∃ pattern, s.pattern? o = some pattern := by
  rw [pattern?, Array.getElem?_eq_getElem ho]
  exact ⟨_, rfl⟩

/-- Only entries of the order list stand for patterns. -/
theorem lt_orderCount {s : Song} {o : Nat} {pattern : Pattern} (h : s.pattern? o = some pattern) :
    o < s.orderCount := by
  obtain ⟨entry, hentry, -⟩ := Option.map_eq_some_iff.mp h
  exact (Array.getElem?_eq_some_iff.mp hentry).1

namespace SamePatterns

variable {s s' : Song}

/-- Songs that have the same patterns have the same size. -/
theorem extent (h : s.SamePatterns s') : s'.extent = s.extent :=
  Extent.ext h.orders h.rows

/-- **Songs that have the same patterns have the same lines.** -/
theorem line (h : s.SamePatterns s') {p : Position} (hp : p.Inside s.extent) :
    s'.line p = s.line p := by
  obtain ⟨ho, hrow⟩ := hp
  obtain ⟨pattern, hpattern⟩ := s.exists_pattern ho
  obtain ⟨pattern', hpattern'⟩ := s'.exists_pattern (Nat.lt_of_lt_of_eq ho h.orders.symm)
  refine PerChannel.ext_get fun c => ?_
  rw [Song.line, Song.line, PerChannel.get_ofFn, PerChannel.get_ofFn, Song.row, Song.row, hpattern,
    hpattern']
  exact h.row p.order pattern pattern' hpattern hpattern' c p.row hrow

end SamePatterns
end Song

namespace Module

/-- **Playback depends on a song only through its patterns.**  Modules with the same instruments and
waveforms whose songs have the same patterns are played alike: they refuse the same starts, and from
any other start the same calls lead to the same reports and writes, as do the recordings. -/
theorem plays_patterns {m m' : Module} (hsong : m.song.SamePatterns m'.song)
    (hinstruments : m'.instruments = m.instruments) (hwaveforms : m'.waveforms = m.waveforms) :
    m.PlaysAs m' := by
  have hreads : m.ReadsAs m' :=
    { extent := hsong.extent
      speed := hsong.speed
      instruments := hinstruments
      waveforms := hwaveforms
      line := by
        intro p hp _
        rw [hsong.line hp]
        unfold Player.readLine
        rw [hwaveforms, hsong.extent] }
  exact hreads.playsAs

end Module

/-- A module that plays a note of the first channel from track zero. -/
def plainModule : Module :=
  .ofSong ((Song.new "plain").setRow .ch1 0 0 (Row.empty.withNote (.on 0)))

/-- The same note in another track, beside a track that nobody plays, one that is empty, and two
that were never made. -/
def scatteredModule : Module :=
  .ofSong
    { ((((Song.new "scattered").setRow .ch1 5 0 (Row.empty.withNote (.on 0))).setRow .ch1 2 0
        (Row.empty.withNote .cut)).setRow .ch2 1 0 Row.empty) with
      rowsPerBeat := 8
      order := #[⟨5, 1, 0, 9⟩] }

/-- The two modules differ, and yet two frames of them have the same writes and the recordings are
the same. -/
theorem plays_scatteredModule :
    let p := Player.atPosition plainModule.song ⟨0, 0⟩
    scatteredModule ≠ plainModule ∧
      p.writes plainModule [.step, .step] ≠ [] ∧
      p.writes scatteredModule [.step, .step] = p.writes plainModule [.step, .step] ∧
      scatteredModule.record {} = plainModule.record {} := by
  intro p
  have hsong : plainModule.song.SamePatterns scatteredModule.song :=
    { speed := rfl
      orders := rfl
      rows := rfl
      row := by
        intro o pattern pattern' h h' c i hi
        obtain rfl : o = 0 := Nat.lt_one_iff.mp (Song.lt_orderCount h)
        obtain rfl := Option.some.inj h
        obtain rfl := Option.some.inj h'
        have hrow : ∀ c ∈ Channel.all, ∀ i < 64,
            ((scatteredModule.song.pattern? 0).get rfl).row c i =
              ((plainModule.song.pattern? 0).get rfl).row c i := by
          decide +kernel
        exact hrow c c.mem_all i hi }
  have hplays : plainModule.PlaysAs scatteredModule := Module.plays_patterns hsong rfl rfl
  exact ⟨by decide +kernel, by decide +kernel, hplays.writes ⟨0, 0⟩ p _ rfl, hplays.record {}⟩

end Chiptune
