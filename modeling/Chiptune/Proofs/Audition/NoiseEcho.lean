import Chiptune.Proofs.Audition.Echo

/-! # Auditions beside a solo on the noise channel

On the noise channel, a voice writes the polynomial of a note when it starts, and leaves out notes
above the range of the channel.  An audition keeps a pitch, which does not move if the instrument
has no sequences, and writes its polynomial whenever it changes and whenever a note starts.  So the
two sound alike but for the notes above the range: with these, the audition writes the polynomial of
the last note within the range once more.

* `Pitch.Still` says that a pitch rests on a note; `Still.step_eq` and `Still.play_note` follow it.
* `Audition.EchoesNoise` relates a voice and an audition, and `EchoesNoise.frame` keeps it.
* `stray_writes_of_noise` says what an audition writes beside a player, and `stray_writes_from_start`
  says so of a song played from its start. -/

namespace Chiptune

open DeviceWrite

/-! ## Resting pitches -/

namespace Pitch

variable {i : Instrument} {n : Nat} {q : Pitch .noise}

/-- A pitch of the noise channel rests on a note, and what waits, if anything, are the sequences of
an instrument. -/
structure Still (i : Instrument) (n : Nat) (q : Pitch .noise) : Prop where
  note : n ≤ Note.noiseLast
  mode : q.mode = .rest
  base : q.base = PitchKind.noise.frequency n
  tuning : q.tuning = 0
  instrumentPitch : q.instrumentPitch = 0
  vibrato : q.vibrato.isOn = false
  bindings : q.bindings = Bindings.none
  staged : q.staged = {} ∨ q.staged = i.sequences

/-- The polynomial of a resting pitch is that of its note. -/
theorem Still.register_eq (h : q.Still i n) :
    noiseRegisterOfPitch q.frequency = noiseRegister n := by
  have hn : n ≤ 59 := h.note
  have hoffset : q.vibrato.offset = 0 := by
    rw [Vibrato.offset, h.vibrato]
    rfl
  have hfrequency : q.frequency = n * PitchKind.noiseUnits := by
    rw [frequency, h.base, h.tuning, h.instrumentPitch, hoffset, PitchKind.frequency,
      PitchKind.clampFrequency, PitchKind.maxFrequency, Note.noiseLast, PitchKind.noiseUnits]
    omega
  rw [noiseRegisterOfPitch, hfrequency, Nat.mul_div_cancel _ (by decide)]

/-- A resting pitch does not move. -/
theorem Still.step_eq (h : q.Still i n) : q.step = q := by
  obtain ⟨hpitch, harpeggio⟩ := bindings_eq_none.mp h.bindings
  have hswung : q.swung = q := by
    rw [swung, Vibrato.step, h.vibrato]
    rfl
  have hsequence : q.stepPitchSequence = q := by
    rw [stepPitchSequence, hpitch]
    show { q with pitchSequence := none } = q
    rw [← hpitch]
  have htone : q.stepTone = q := by
    have hrest : ({ q with arpeggioSequence := none } : Pitch .noise) = q := by rw [← harpeggio]
    rw [stepTone, harpeggio]
    show ({ q with arpeggioSequence := none } : Pitch .noise).stepMode = q
    rw [hrest, stepMode, h.mode]
  rw [Pitch.step_eq, hswung, hsequence, htone]

/-- A note that takes hold of a resting pitch replaces it at once, and starts vibrato and sequences
anew. -/
theorem commit_of_rest {kind : PitchKind} {p : Pitch kind} {changes : PitchParams} {k : Nat}
    (hrest : p.mode = .rest) (hnote : changes.note = some k) (hplayable : k ≤ kind.topNote)
    (hmodulation : changes.modulation = none) :
    p.commit changes =
      { p.configure changes with
        note := k
        base := kind.frequency k
        instrumentPitch := 0
        vibrato := (p.configure changes).vibrato.restart
        pitchSequence := (p.configure changes).pitchSequence.map Sequence.Cursor.restart
        arpeggioSequence :=
          (p.configure changes).arpeggioSequence.map Sequence.Cursor.restart } := by
  rw [commit_of_note hnote hplayable hmodulation]
  simp [placeNote, configure, startNote, turnTo, restartChord, hrest]

/-- A note takes a resting pitch to another rest. -/
theorem Still.play_note (h : q.Still i n) (hi : i.bindings = Bindings.none) {k : Nat}
    (hk : k ≤ Note.noiseLast) : (q.play (some k)).Still i k := by
  -- besides the note, nothing takes hold but the sequences
  let changes := q.staged.overlay { note := some k }
  obtain ⟨hmodulation, hvibrato, hdelay, htuning⟩ : changes.modulation = none ∧
      changes.vibrato = none ∧ changes.vibratoDelay = none ∧ changes.tuning = none := by
    rcases h.staged with hstaged | hstaged <;>
      simp [changes, hstaged, PitchParams.overlay, Instrument.sequences]
  have hunbound : changes.rebind q.bindings = Bindings.none := by
    rcases h.staged with hstaged | hstaged
    · simp [changes, hstaged, PitchParams.overlay, PitchParams.rebind, h.bindings]
    · rw [← hi]
      simp [changes, hstaged, PitchParams.overlay, PitchParams.rebind, Instrument.sequences,
        Instrument.bindings]
  have hnote : changes.note = some k := rfl
  have hcommit : (q.stage { note := some k }).apply =
      ({ q with staged := {} } : Pitch .noise).commit changes := rfl
  rw [commit_of_rest (p := ({ q with staged := {} } : Pitch .noise)) h.mode hnote hk
    hmodulation] at hcommit
  have hstill : (q.stage { note := some k }).apply.Still i k := by
    refine
      { note := hk, mode := ?_, base := ?_, tuning := ?_, instrumentPitch := ?_, vibrato := ?_
        bindings := ?_, staged := .inl (staged_apply _) }
    · rw [hcommit]
      exact h.mode
    · rw [hcommit]
    · simp [hcommit, configure, htuning, h.tuning]
    · rw [hcommit]
    · simp [hcommit, configure, hvibrato, hdelay, Vibrato.restart, h.vibrato]
    · rw [apply, bindings_commit]
      exact hunbound
  rw [play, hstill.step_eq]
  exact hstill

end Pitch

/-! ## Notes within and above the range -/

/-- The note of a row, if the noise channel has it. -/
def Row.noiseNote? (r : Row) : Option Nat :=
  r.note.started?.filter fun n => n ≤ Note.noiseLast

/-- The last note of some rows that the noise channel has, or its lowest one. -/
def lastNoise (rows : List Row) : Nat :=
  (rows.filterMap Row.noiseNote?).getLast?.getD 0

/-- A row replaces the last note by its own, if the channel has it. -/
theorem lastNoise_concat (rows : List Row) (r : Row) :
    lastNoise (rows ++ [r]) = r.noiseNote?.getD (lastNoise rows) := by
  rw [lastNoise, List.filterMap_append, List.getLast?_append, Option.getD_or, lastNoise]
  cases h : r.noiseNote? with
  | none => rw [List.filterMap_cons_none h]; rfl
  | some n => rw [List.filterMap_cons_some h]; rfl

/-- What an audition writes more than a voice behind some rows: on a note above the range, the
polynomial of the last note within it. -/
def strayWrites (rows : List Row) (r : Row) : List DeviceWrite :=
  if r.note.started?.isSome && r.noiseNote?.isNone then
    [.register Register.nr43 (noiseRegister (lastNoise rows))]
  else []

/-- Stray writes are not about the output switches. -/
theorem besideOutputs_strayWrites (rows : List Row) (r : Row) :
    besideOutputs (strayWrites rows r) = strayWrites rows r := by
  unfold strayWrites
  split <;> rfl

/-- The polynomial of the last note, if a note starts, is that of the row or a stray one. -/
theorem register_lastNoise_concat (rows : List Row) (r : Row) :
    (if r.note.started?.isSome then
        [DeviceWrite.register Register.nr43 (noiseRegister (lastNoise (rows ++ [r])))]
      else []) =
      strayWrites rows r ++
        r.noiseNote?.toList.map fun n => .register Register.nr43 (noiseRegister n) := by
  rw [strayWrites, lastNoise_concat, Row.noiseNote?]
  cases r.note.started? with
  | none => rfl
  | some n =>
      rw [Option.filter_some]
      by_cases hn : n ≤ Note.noiseLast <;> simp [hn]

/-- A voice of the noise channel writes the polynomial of a note that the channel has. -/
theorem Voice.pitchWrites_of_noise {v : Voice} {started : Option Nat} (hpitch : v.pitch = none)
    (htimbre : v.settings.timbre = 0) :
    v.pitchWrites .ch4 started =
      (started.filter fun n => n ≤ Note.noiseLast).toList.map fun n =>
        .register Register.nr43 (noiseRegister n) := by
  rw [pitchWrites, hpitch]
  cases hnote : started.filter fun n => n ≤ Note.noiseLast with
  | none => simp only [Option.toList_none, List.map_nil]
  | some n =>
      simp only [Option.toList_some, List.map_singleton, htimbre, stepWidth, if_true,
        UInt8.or_zero]
      rfl

namespace Audition

variable {m : Module} {i : Instrument} {rows : List Row} {v : Voice} {a : Audition}
  {r : Row}

/-- An audition echoes a voice on the noise channel: its pitch rests on the last note, and the
polynomial of that note was written last while a note sounds. -/
structure EchoesNoise (i : Instrument) (rows : List Row) (v : Voice) (a : Audition) : Prop
    extends Echoes i v a where
  pitch : ∃ q, a.pitch = .noise q ∧ q.Still i (lastNoise rows)
  written : v.gate.isOpen = true → a.noiseWritten = some (noiseRegister (lastNoise rows))

/-- Before its first note, an audition on the noise channel echoes a new voice. -/
theorem echoesNoise_new (hnoise : i.channel.isNoise = true)
    (hflat : i.channel.envelopeSlopes i.envelope = false) (waves : Table Waveform) :
    EchoesNoise i [] (Voice.new i.channel) (ofInstrument i waves).1 where
  toEchoes := echoes_new hflat waves
  pitch := by
    refine ⟨Pitch.new.stage i.sequences, ?_, ?_⟩
    · show (AuditionPitch.new i.channel).stage i.sequences = _
      rw [AuditionPitch.new, hnoise, if_pos rfl]
      rfl
    · exact
        { note := Nat.zero_le _, mode := rfl, base := rfl, tuning := rfl, instrumentPitch := rfl
          vibrato := rfl, bindings := rfl, staged := .inr rfl }
  written := nofun

/-- On a frame on which a note sounds, the pitch rests on the last note, be it of the row of this
frame or of one before. -/
theorem EchoesNoise.pitch_eq (h : EchoesNoise i rows v a) (hi : i.bindings = Bindings.none) :
    ∃ q, (a.heard.played r.note.started?).pitch = .noise q ∧
      q.Still i (lastNoise (rows ++ [r])) := by
  obtain ⟨q, hq, hstill⟩ := h.pitch
  refine ⟨q.play r.noiseNote?, ?_, ?_⟩
  · show a.pitch.play r.note.started? = _
    rw [hq]
    rfl
  · rw [lastNoise_concat]
    cases hnote : r.noiseNote? with
    | none =>
        rw [Pitch.play, hstill.step_eq]
        exact hstill
    | some n =>
        have hn : n ≤ Note.noiseLast := of_decide_eq_true (Option.filter_eq_some_iff.mp hnote).2
        exact hstill.play_note hi hn

/-- The polynomial that an audition writes on a frame, if any, and which one it has written last
behind it. -/
theorem EchoesNoise.writePitch_eq (h : EchoesNoise i rows v a) (hi : i.bindings = Bindings.none)
    (htimbre : i.timbre = 0) (hchannel : i.channel = .ch4)
    (hopens : r.note.opens v.gate.isOpen = true) :
    ((a.heard.played r.note.started?).writePitch r.note.started?).1.noiseWritten =
        some (noiseRegister (lastNoise (rows ++ [r]))) ∧
      ((a.heard.played r.note.started?).writePitch r.note.started?).2 =
        if r.note.started?.isSome then
          [.register Register.nr43 (noiseRegister (lastNoise (rows ++ [r])))]
        else [] := by
  obtain ⟨q, hq, hstill⟩ := h.pitch_eq (r := r) hi
  have hvalue : noiseRegisterOfPitch q.frequency ||| stepWidth
      (a.heard.played r.note.started?).timbre = noiseRegister (lastNoise (rows ++ [r])) := by
    have hwidth : stepWidth (a.heard.played r.note.started?).timbre = 0 := by
      rw [show (a.heard.played r.note.started?).timbre = 0 from h.timbre.trans htimbre]
      rfl
    rw [hwidth, UInt8.or_zero, hstill.register_eq]
  have hregister : (a.heard.played r.note.started?).channel.layout.nrx3 = Register.nr43 := by
    rw [show (a.heard.played r.note.started?).channel = .ch4 from h.channel.trans hchannel]
    rfl
  rw [writePitch, hq]
  dsimp only
  rw [hvalue, hregister]
  cases hnote : r.note with
  | on n => exact ⟨rfl, rfl⟩
  | none =>
      -- the note sounds on, and its polynomial has been written before
      rw [hnote] at hopens
      have hsame : lastNoise (rows ++ [r]) = lastNoise rows := by
        rw [lastNoise_concat, Row.noiseNote?, hnote]
        rfl
      have hwritten : (a.heard.played Note.none.started?).noiseWritten =
          some (noiseRegister (lastNoise rows)) := h.written hopens
      rw [hsame, hwritten, bne_self_eq_false, Bool.or_false]
      exact ⟨hwritten, rfl⟩
  | cut =>
      rw [hnote] at hopens
      cases hopens

/-- An audition that echoes a voice on the noise channel still does so behind a frame. -/
theorem EchoesNoise.frame (h : EchoesNoise i rows v a) (hi : i.bindings = Bindings.none)
    (htimbre : i.timbre = 0) (hchannel : i.channel = .ch4)
    (hready : v.Ready m i r) :
    EchoesNoise i (rows ++ [r]) ((v.follow r).update m i.channel).1
      ((a.follow r).step m.waveforms).1 := by
  have hechoes := h.toEchoes.frame hready
  cases hopens : r.note.opens v.gate.isOpen with
  | false =>
      obtain ⟨hupdate, hstep⟩ := h.frame_of_closed hready hopens
      obtain ⟨q, hq, hstill⟩ := h.pitch
      -- a row on which nothing sounds has started no note
      have hsame : lastNoise (rows ++ [r]) = lastNoise rows := by
        rw [lastNoise_concat, Row.noiseNote?]
        cases hnote : r.note with
        | on n =>
            rw [hnote] at hopens
            cases hopens
        | none => rfl
        | cut => rfl
      rw [hupdate, hstep] at hechoes ⊢
      exact { toEchoes := hechoes, pitch := ⟨q, hq, hsame ▸ hstill⟩, written := nofun }
  | true =>
      obtain ⟨hupdate, hstep⟩ := h.frame_of_open hready hopens
      rw [hupdate, hstep, state_sound] at hechoes ⊢
      exact
        { toEchoes := hechoes
          pitch := h.pitch_eq hi
          written := fun _ => (h.writePitch_eq hi htimbre hchannel hopens).1 }

/-- **Beside the output switches, an audition writes on a frame what a voice does, and the stray
polynomial of a note above the range before it.** -/
theorem EchoesNoise.besideOutputs_frame (h : EchoesNoise i rows v a)
    (hi : i.bindings = Bindings.none) (htimbre : i.timbre = 0) (hchannel : i.channel = .ch4)
    (hready : v.Ready m i r) :
    besideOutputs ((a.follow r).step m.waveforms).2 =
      strayWrites rows r ++ besideOutputs ((v.follow r).update m i.channel).2 := by
  cases hopens : r.note.opens v.gate.isOpen with
  | false =>
      obtain ⟨hupdate, hstep⟩ := h.frame_of_closed hready hopens
      have hstray : strayWrites rows r = [] := by
        rw [strayWrites]
        cases hnote : r.note with
        | on n =>
            rw [hnote] at hopens
            cases hopens
        | none => rfl
        | cut => rfl
      rw [hupdate, hstep, hstray]
      rfl
  | true =>
      obtain ⟨hupdate, hstep⟩ := h.frame_of_open hready hopens
      have hprogram := h.program_eq hready hopens
      obtain ⟨q, hq, -⟩ := h.pitch_eq (r := r) hi
      -- a voice of the noise channel has no pitch
      have hnone : ((v.heard r).readied m r.note.started?).pitch = none := by
        have hfits : (v.heard r).Fits i.channel := h.fits.congr rfl rfl
        have hpitch := (hfits.readied m r.note.started?).pitch
        rw [hchannel] at hpitch
        exact Option.isNone_iff_eq_none.mp (Option.isSome_eq_false_iff.mp hpitch)
      have hfrequency : (a.heard.played r.note.started?).pitch.frequency =
          ((v.heard r).readied m r.note.started?).frequency := by
        rw [Voice.frequency, hnone, hq]
        rfl
      obtain ⟨hvoice, haudition⟩ :=
        h.toEchoes.besideOutputs_sound r.note.started? hprogram hfrequency
      have hsettings : ((v.heard r).readied m r.note.started?).settings.timbre = 0 := by
        have hbound : ((v.heard r).readied m r.note.started?).settings = v.settings :=
          ((v.heard r).panning_bound m r.note.started?).1
        rw [hbound, h.settings, hchannel]
        rfl
      have hpitch : ((v.heard r).readied m r.note.started?).pitchWrites i.channel
          r.note.started? =
          r.noiseNote?.toList.map fun n => .register Register.nr43 (noiseRegister n) := by
        rw [hchannel]
        exact Voice.pitchWrites_of_noise hnone hsettings
      rw [hupdate, hstep, hvoice, haudition, (h.writePitch_eq hi htimbre hchannel hopens).2,
        register_lastNoise_concat, hpitch, besideOutputs_append, besideOutputs_strayWrites,
        List.append_assoc]

end Audition

open Audition

namespace Player

variable {m : Module} {p : Player}

/-- In a solo on the noise channel, an audition that echoes the voice writes what the player writes,
but for the output switches, and the stray polynomial of a note above the range before it. -/
theorem InSolo.besideOutputs_echo_of_noise {i : Instrument} {rows : List Row} {a : Audition}
    (h : p.InSolo m i.channel) (hi : i.bindings = Bindings.none) (htimbre : i.timbre = 0)
    (hchannel : i.channel = .ch4) (hsolo : m.song.Solo i.channel)
    (hechoes : EchoesNoise i rows (p.voices.get i.channel) a)
    (hready : (p.voices.get i.channel).Ready m i (p.rowRead m i.channel)) :
    besideOutputs (a.writes (p.echo m i.channel .step)) =
      strayWrites rows (p.rowRead m i.channel) ++ besideOutputs (p.step m).2 := by
  rw [writes_echo, h.besideOutputs_step hsolo]
  exact hechoes.besideOutputs_frame hi htimbre hchannel hready

/-- Throughout a solo on the noise channel, the audition echoes the voice of the player. -/
theorem echoesNoise_after {position : Position} (h : Player.start m position = .ok p) {id : Nat}
    {i : Instrument} (hfound : m.instruments.get? id = some i) (hchannel : i.channel = .ch4)
    (htimbre : i.timbre = 0) (hi : i.bindings = Bindings.none)
    (hflat : i.channel.envelopeSlopes i.envelope = false) (hsolo : m.song.Solo i.channel)
    {calls : List Call} (hgoing : Call.halt ∉ calls)
    (hnames : Introduces id (p.rowsRead m i.channel (calls ++ [.step]))) :
    (p.after m calls).InSolo m i.channel ∧
      EchoesNoise i (p.rowsRead m i.channel calls) ((p.after m calls).voices.get i.channel)
        ((ofInstrument i m.waveforms).1.after (p.echoes m i.channel calls)) ∧
      ((p.after m calls).voices.get i.channel).Ready m i
        ((p.after m calls).rowRead m i.channel) := by
  have hnoise : i.channel.isNoise = true := by rw [hchannel]; rfl
  -- at the start, nothing has been read and nothing is heard
  have hnew : EchoesNoise i [] (p.voices.get i.channel) (ofInstrument i m.waveforms).1 := by
    obtain ⟨-, rfl⟩ := start_eq_ok.mp h
    rw [atPosition, PerChannel.get_ofFn]
    exact echoesNoise_new hnoise hflat m.waveforms
  exact (inSolo_start h i.channel).echoes_after (R := EchoesNoise i) hsolo hfound
    (fun _ _ _ _ hR hready => hR.frame hi htimbre hchannel hready) [] hnew calls hgoing
    (.inr hnames)

/-- **What an audition writes beside a player in a solo on the noise channel**, if its instrument
has no sequences and the timbre of the channel: on every frame, the writes of the player but for
those to the output switches, and before them the stray polynomial of a note above the range. -/
theorem stray_writes_of_noise {position : Position} (h : Player.start m position = .ok p) {id : Nat}
    {i : Instrument} (hfound : m.instruments.get? id = some i) (hchannel : i.channel = .ch4)
    (htimbre : i.timbre = 0) (hpitch : i.pitch.isEmpty = true)
    (harpeggio : i.arpeggio.isEmpty = true)
    (hflat : i.channel.envelopeSlopes i.envelope = false) (hsolo : m.song.Solo i.channel)
    (calls : List Call) (hgoing : Call.halt ∉ calls)
    (hnames : Introduces id (p.rowsRead m i.channel (calls ++ [.step]))) :
    let p' := p.after m calls
    let a' := Audition.new.after (.setInstrument i m.waveforms :: p.echoes m i.channel calls)
    besideOutputs (a'.writes (p'.echo m i.channel .step)) =
      strayWrites (p.rowsRead m i.channel calls) (p'.rowRead m i.channel) ++
        besideOutputs (p'.step m).2 := by
  intro p' a'
  have hi : i.bindings = Bindings.none := Instrument.bindings_eq_none.mpr ⟨hpitch, harpeggio⟩
  obtain ⟨hsolo', hechoes, hready⟩ :=
    echoesNoise_after h hfound hchannel htimbre hi hflat hsolo hgoing hnames
  exact hsolo'.besideOutputs_echo_of_noise hi htimbre hchannel hsolo hechoes hready

/-- **A song played from its start is echoed on every frame up to stray polynomials**, if it is a solo
on the noise channel, its first row with a note names the instrument, and no row names another
one. -/
theorem stray_writes_from_start (h : Player.start m ⟨0, 0⟩ = .ok p) {id : Nat} {i : Instrument}
    (hfound : m.instruments.get? id = some i) (hchannel : i.channel = .ch4)
    (htimbre : i.timbre = 0) (hi : i.bindings = Bindings.none)
    (hflat : i.channel.envelopeSlopes i.envelope = false) (hsolo : m.song.Solo i.channel)
    (hfeatures : m.song.Features i.channel id) (frames : Nat) :
    let calls := List.replicate frames Call.step
    let p' := p.after m calls
    let a' := Audition.new.after (.setInstrument i m.waveforms :: p.echoes m i.channel calls)
    besideOutputs (a'.writes (p'.echo m i.channel .step)) =
      strayWrites (p.rowsRead m i.channel calls) (p'.rowRead m i.channel) ++
        besideOutputs (p'.step m).2 := by
  intro calls p' a'
  have hgoing := Call.halt_not_mem_frames frames
  have hnames := introduces_concat_of_features hsolo hfeatures h frames
  obtain ⟨hsolo', hechoes, hready⟩ :=
    echoesNoise_after h hfound hchannel htimbre hi hflat hsolo hgoing hnames
  exact hsolo'.besideOutputs_echo_of_noise hi htimbre hchannel hsolo hechoes hready

end Player

/-- An instrument of the noise channel without a program and without sequences. -/
def noiseInstrument : Instrument :=
  { Instrument.new "" .ch4 with timbre := 0 }

/-- A solo of one frame per row on the noise channel: a note within the range, and then one above
it. -/
def noiseModule : Module where
  song := ({ Song.new "" with speed := .fastest }.setRow .ch4 0 0
      ((Row.empty.withNote (.on 10)).withInstrument 0)).setRow .ch4 0 1
      (Row.empty.withNote (.on 70))
  instruments := Table.ofList [(0, noiseInstrument)]
  waveforms := Table.empty

/-- On the second frame, the audition writes the polynomial of the first note again. -/
theorem stray_writes_noiseModule :
    let p := Player.atPosition noiseModule.song ⟨0, 0⟩
    let p' := p.after noiseModule [.step]
    let a' := Audition.new.after (.setInstrument noiseInstrument noiseModule.waveforms ::
      p.echoes noiseModule .ch4 [.step])
    Player.start noiseModule ⟨0, 0⟩ = .ok p ∧ noiseModule.song.Solo .ch4 ∧
      Introduces 0 (p.rowsRead noiseModule .ch4 ([.step] ++ [.step])) ∧
      besideOutputs (a'.writes (p'.echo noiseModule .ch4 .step)) =
        [.register Register.nr43 (noiseRegister 10)] ++ besideOutputs (p'.step noiseModule).2 := by
  intro p p' a'
  have hstart : Player.start noiseModule ⟨0, 0⟩ = .ok p := rfl
  have hsolo : noiseModule.song.Solo .ch4 := by decide +kernel
  have hnames : Introduces 0 (p.rowsRead noiseModule .ch4 ([.step] ++ [.step])) := by
    decide +kernel
  have hstray : strayWrites (p.rowsRead noiseModule .ch4 [.step]) (p'.rowRead noiseModule .ch4) =
      [.register Register.nr43 (noiseRegister 10)] := by decide +kernel
  refine ⟨hstart, hsolo, hnames, ?_⟩
  rw [← hstray]
  exact Player.stray_writes_of_noise hstart (i := noiseInstrument) (by decide +kernel)
    rfl rfl rfl rfl (by decide) hsolo [.step] (by decide) hnames

/-- On that frame, the player writes nothing: the note above the range makes the two differ. -/
theorem writes_differ_noiseModule :
    let p := Player.atPosition noiseModule.song ⟨0, 0⟩
    let p' := p.after noiseModule [.step]
    let a' := Audition.new.after (.setInstrument noiseInstrument noiseModule.waveforms ::
      p.echoes noiseModule .ch4 [.step])
    Player.start noiseModule ⟨0, 0⟩ = .ok p ∧ noiseModule.song.Solo .ch4 ∧
      Introduces 0 (p.rowsRead noiseModule .ch4 ([.step] ++ [.step])) ∧
      (p'.rowRead noiseModule .ch4).note = .on 70 ∧
      besideOutputs (a'.writes (p'.echo noiseModule .ch4 .step)) =
        [.register Register.nr43 (noiseRegister 10)] ∧
      besideOutputs (p'.step noiseModule).2 = [] := by
  intro p p' a'
  refine ⟨rfl, ?_, ?_, ?_, ?_, ?_⟩ <;> decide +kernel

end Chiptune
