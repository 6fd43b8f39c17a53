import Chiptune.Proofs.Audition.Run
import Chiptune.Proofs.Playback.Bindings
import Chiptune.Proofs.Playback.FirstNote
import Chiptune.Proofs.Playback.VoicePanning

/-! # Auditions beside a solo

An audition is asked for the notes and cuts of a solo, each on the frame on which a player reads it.
The player binds the instrument anew with every note, while the audition has bound it once and only
starts it anew.  Still they sound alike: both run the same program from its start and read the same
sequences from theirs.

* `Player.echoes` are the calls by which an audition follows a player.
* `Audition.Echoes` says what the voice of the channel and the audition have in common between two
  frames, whatever the channel; `Echoes.frame` keeps it, and `InSolo.echoes_after` carries any
  relation of the two through a run.
* `SameTone` relates their pitches on a tone channel, `EchoesTone` the two as a whole, and
  `EchoesTone.besideOutputs_frame` compares the writes of a frame.
* `same_writes_of_tone` says that the two write the same but for the output switches, and
  `same_writes_from_start` that a song played from its start needs no more than to name the instrument
  with its first note. -/

namespace Chiptune

open DeviceWrite

/-! ## Calls -/

/-- The calls by which an audition is asked for the note or the cut of a row. -/
def Row.auditionCalls (r : Row) : List AuditionCall :=
  match r.note with
  | .on n => [.playNote n]
  | .cut => [.stop]
  | .none => []

namespace Player

/-- The calls by which an audition follows a call: on each frame it is asked for what the row of the
channel holds, and plays a frame of its own. -/
def echo (p : Player) (m : Module) (c : Channel) : Call → List AuditionCall
  | .step => (p.rowRead m c).auditionCalls ++ [.step m.waveforms]
  | _ => []

/-- The calls by which an audition follows some calls. -/
def echoes (p : Player) (m : Module) (c : Channel) (calls : List Call) : List AuditionCall :=
  p.gather m (fun p => p.echo m c) calls

end Player

namespace Audition

variable {a : Audition} {r : Row}

/-- The audition that follows the note of a row. -/
def follow (a : Audition) (r : Row) : Audition :=
  { a with gate := a.gate.follow r.note }

/-- The calls for a row make the audition follow it. -/
theorem after_auditionCalls (a : Audition) (r : Row) : a.after r.auditionCalls = a.follow r := by
  unfold Row.auditionCalls follow NoteGate.follow
  cases r.note <;> rfl

/-- They write nothing. -/
theorem writes_auditionCalls (a : Audition) (r : Row) : a.writes r.auditionCalls = [] := by
  unfold Row.auditionCalls
  cases r.note <;> rfl

/-- The audition behind the calls of a frame. -/
theorem after_echo (a : Audition) (p : Player) (m : Module) (c : Channel) :
    a.after (p.echo m c .step) = ((a.follow (p.rowRead m c)).step m.waveforms).1 := by
  rw [Player.echo, after_concat, after_auditionCalls]
  rfl

/-- The writes of the calls of a frame. -/
theorem writes_echo (a : Audition) (p : Player) (m : Module) (c : Channel) :
    a.writes (p.echo m c .step) = ((a.follow (p.rowRead m c)).step m.waveforms).2 := by
  rw [Player.echo, writes_concat, after_auditionCalls, writes_auditionCalls, List.nil_append]
  rfl

/-- The frame of an audition that follows a note. -/
theorem step_followed (hidle : a.gate.Idle) (h : r.note.isPlayable = true)
    (waves : Table Waveform) :
    (a.follow r).step waves =
      if r.note.opens a.gate.isOpen then
        ({ a with gate := { isOpen := true } } : Audition).sound waves r.note.started?
      else ({ a with gate := {} }, [.channelOutput a.channel Panning.off]) := by
  have hstep : (a.follow r).gate.step = _ := NoteGate.step_follow hidle h
  rw [step, hstep]
  cases r.note.opens a.gate.isOpen <;> rfl

end Audition

/-! ## Programs -/

namespace ProgramRunner

/-- Where a runner stands behind a frame does not depend on the frequency that it bends. -/
theorem state_step_congr (r : ProgramRunner) (waves : Table Waveform) (frequency frequency' : Nat) :
    (r.step waves frequency).1 = (r.step waves frequency').1 := by
  unfold step
  split
  · split <;> rfl
  · rfl

/-- A step moves the place, and leaves the bytes of the program. -/
@[simp] theorem program_step (r : ProgramRunner) (waves : Table Waveform) (frequency : Nat) :
    (r.step waves frequency).1.program = r.program := by
  unfold step
  split
  · split <;> rfl
  · rfl

/-- To start a program anew is to load it again. -/
theorem reset_eq_setProgram {r r' : ProgramRunner} {i : Instrument}
    (hchannel : r.channel = r'.channel) (hprogram : r.program = i.program) :
    r.reset = r'.setProgram i.program := by
  rw [reset, setProgram, load, if_pos i.length_le, hchannel, hprogram]

end ProgramRunner

/-! ## What a voice and an audition have in common -/

/-- A plain row starts a note exactly if it holds one. -/
theorem Row.IsPlain.startsNote_eq {r : Row} (h : r.IsPlain) :
    r.startsNote = r.note.started?.isSome := by
  have hnote := h.note
  unfold startsNote
  cases hr : r.note with
  | on n =>
      rw [hr] at hnote
      exact hnote
  | none => rfl
  | cut => rfl

/-- A voice is ready for a row: the row can be played, and if it starts a note, the voice finds an
instrument for it. -/
structure Voice.Ready (m : Module) (i : Instrument) (r : Row) (v : Voice) : Prop where
  playable : r.note.isPlayable = true
  found : r.note.started?.isSome = true → (v.follow r).selected.bind m.instruments.get? = some i

/-- A voice binds the instrument that it finds. -/
theorem Voice.bindInstrument_of_bind {v : Voice} {instruments : Table Instrument} {i : Instrument}
    (h : v.selected.bind instruments.get? = some i) :
    v.bindInstrument instruments =
      { v with
        program := v.program.setProgram i.program
        pitch := v.pitch.map fun p => p.stage i.sequences } := by
  obtain ⟨id, hselected, hfound⟩ := Option.bind_eq_some_iff.mp h
  exact bindInstrument_of_found hselected hfound

/-- The voice of a frame on which the note of a row sounds. -/
def Voice.heard (v : Voice) (r : Row) : Voice :=
  { v.follow r with gate := { isOpen := true } }

namespace Audition

variable {m : Module} {i : Instrument} {v : Voice} {a : Audition} {r : Row}

/-- The audition of a frame on which a note sounds. -/
def heard (a : Audition) : Audition :=
  { a with gate := { isOpen := true } }

/-- An audition echoes a voice with an instrument: their gates agree, notes do not start the channel
anew, and both stand at the same place of the program while a note sounds. -/
structure Echoes (i : Instrument) (v : Voice) (a : Audition) : Prop where
  idle : v.gate.Idle
  gate : a.gate = v.gate
  settings : v.settings = VoiceSettings.new i.channel
  fits : v.Fits i.channel
  channel : a.channel = i.channel
  ruled : a.program.channel = i.channel
  program : a.program.program = i.program
  sounding : v.gate.isOpen = true → a.program = v.program
  timbre : a.timbre = i.timbre
  autoRetrigger : a.autoRetrigger = false

/-- Before its first note, an audition of an instrument without a slope echoes a new voice. -/
theorem echoes_new (hflat : i.channel.envelopeSlopes i.envelope = false)
    (waves : Table Waveform) : Echoes i (Voice.new i.channel) (ofInstrument i waves).1 where
  idle := rfl
  gate := rfl
  settings := rfl
  fits := Voice.fits_new i.channel
  channel := rfl
  ruled := ProgramRunner.channel_setProgram (.new i.channel) i.program
  program := by
    show (ProgramRunner.load i.channel i.program).program = i.program
    rw [ProgramRunner.load, if_pos i.length_le]
    rfl
  sounding := nofun
  timbre := rfl
  autoRetrigger := hflat

/-- A frame without a note leaves all but the gates alone. -/
theorem Echoes.frame_of_closed (h : Echoes i v a) (hready : v.Ready m i r)
    (hopens : r.note.opens v.gate.isOpen = false) :
    (v.follow r).update m i.channel = ({ v.follow r with gate := {}, output := Panning.off }, []) ∧
      (a.follow r).step m.waveforms =
        ({ a with gate := {} }, [.channelOutput a.channel Panning.off]) := by
  have hidle : a.gate.Idle := h.gate ▸ h.idle
  rw [Voice.update_followed h.idle hready.playable, step_followed hidle hready.playable, h.gate,
    hopens]
  exact ⟨rfl, rfl⟩

/-- On any other frame, both sound. -/
theorem Echoes.frame_of_open (h : Echoes i v a) (hready : v.Ready m i r)
    (hopens : r.note.opens v.gate.isOpen = true) :
    (v.follow r).update m i.channel = (v.heard r).sound m i.channel r.note.started? ∧
      (a.follow r).step m.waveforms = a.heard.sound m.waveforms r.note.started? := by
  have hidle : a.gate.Idle := h.gate ▸ h.idle
  rw [Voice.update_followed h.idle hready.playable, step_followed hidle hready.playable, h.gate,
    hopens]
  exact ⟨rfl, rfl⟩

/-- **Both run the same program on a frame on which a note sounds**: the voice binds it anew with
the note, and the audition starts it anew. -/
theorem Echoes.program_eq (h : Echoes i v a) (hready : v.Ready m i r)
    (hopens : r.note.opens v.gate.isOpen = true) :
    (a.heard.played r.note.started?).program =
      ((v.heard r).readied m r.note.started?).program := by
  cases hnote : r.note with
  | none =>
      rw [hnote] at hopens
      exact h.sounding hopens
  | on n =>
      have hfound := hready.found (by rw [hnote]; rfl)
      show a.program.reset = ((v.heard r).bindInstrument m.instruments).program
      rw [Voice.bindInstrument_of_bind (v := v.heard r) hfound]
      exact ProgramRunner.reset_eq_setProgram (h.ruled.trans h.fits.channel.symm) h.program
  | cut =>
      rw [hnote] at hopens
      cases hopens

/-- **An audition that echoes a voice still does so behind a frame.** -/
theorem Echoes.frame (h : Echoes i v a) (hready : v.Ready m i r) :
    Echoes i ((v.follow r).update m i.channel).1 ((a.follow r).step m.waveforms).1 := by
  have hfits : (v.follow r).Fits i.channel := h.fits.congr rfl rfl
  have hgate : ((v.follow r).update m i.channel).1.gate =
      { isOpen := r.note.opens v.gate.isOpen } := by
    rw [Voice.gate_update]
    exact congrArg Prod.fst (NoteGate.step_follow h.idle hready.playable)
  have hsettings := Voice.settings_update (v.follow r) m i.channel
  have hfitted := hfits.update m i.channel
  -- no note sounds on either side, or both sides sound the same frame
  cases hopens : r.note.opens v.gate.isOpen with
  | false =>
      obtain ⟨hupdate, hstep⟩ := h.frame_of_closed hready hopens
      rw [hupdate] at hfitted ⊢
      rw [hstep]
      exact
        { idle := rfl, gate := rfl, settings := h.settings, fits := hfitted, channel := h.channel
          ruled := h.ruled, program := h.program, sounding := nofun, timbre := h.timbre
          autoRetrigger := h.autoRetrigger }
  | true =>
      obtain ⟨hupdate, hstep⟩ := h.frame_of_open hready hopens
      have hprogram := h.program_eq hready hopens
      obtain ⟨hbytes, hchannel⟩ := a.heard.program_played r.note.started?
      rw [hupdate] at hgate hsettings hfitted ⊢
      rw [hopens] at hgate
      rw [hstep, state_sound]
      refine
        { idle := ?_, gate := ?_, settings := hsettings.trans h.settings, fits := hfitted
          channel := h.channel, ruled := ?_, program := ?_, sounding := ?_, timbre := h.timbre
          autoRetrigger := h.autoRetrigger }
      · rw [hgate]
        rfl
      · rw [hgate]
        rfl
      · exact (ProgramRunner.channel_step ..).trans (hchannel.trans h.ruled)
      · exact (ProgramRunner.program_step ..).trans (hbytes.trans h.program)
      · intro _
        show ((a.heard.played r.note.started?).program.step ..).1 = _
        rw [hprogram]
        exact ProgramRunner.state_step_congr ..

/-- Beside the output switches, a frame of a note is made up of the writes of the pitch and of the
program, which is the same on both sides. -/
theorem Echoes.besideOutputs_sound (h : Echoes i v a) (started : Option Nat)
    (hprogram : (a.heard.played started).program = ((v.heard r).readied m started).program)
    (hfrequency : (a.heard.played started).pitch.frequency =
      ((v.heard r).readied m started).frequency) :
    let ws := (((v.heard r).readied m started).program.step m.waveforms
      ((v.heard r).readied m started).frequency).2
    besideOutputs ((v.heard r).sound m i.channel started).2 =
        besideOutputs (((v.heard r).readied m started).pitchWrites i.channel started) ++
          besideOutputs ws ∧
      besideOutputs (a.heard.sound m.waveforms started).2 =
        besideOutputs ((a.heard.played started).writePitch started).2 ++ besideOutputs ws := by
  intro ws
  constructor
  · have hsettings : ((v.heard r).readied m started).settings = VoiceSettings.new i.channel :=
      ((v.heard r).panning_bound m started).1.trans h.settings
    have hstart : ((v.heard r).readied m started).startWrites i.channel started = [] := by
      rw [Voice.startWrites, hsettings]
      exact if_neg (by simp [VoiceSettings.new])
    rw [Voice.writes_sound, hstart, List.append_nil, besideOutputs_append]
  · -- the audition switches its channel on, which does not count here
    have hstart : besideOutputs (a.heard.startWrites started) = [] := by
      rw [startWrites, show a.heard.autoRetrigger = false from h.autoRetrigger]
      cases started <;> rfl
    rw [writes_sound, besideOutputs_append, besideOutputs_append, hstart, List.append_nil,
      hprogram, hfrequency]

end Audition

/-! ## Runs -/

namespace Player

variable {m : Module} {p : Player} {c : Channel} {id : Nat} {i : Instrument}

/-- In a solo, the voice of the channel is ready for the row of a frame if it awaits it. -/
theorem InSolo.ready (hsolo : m.song.Solo c) (h : p.InSolo m c)
    (hfound : m.instruments.get? id = some i) {rows : List Row}
    (hawaits : (p.voices.get c).Awaits id (p.rowRead m c :: rows)) :
    (p.voices.get c).Ready m i (p.rowRead m c) where
  playable := (h.isPlain hsolo).note
  found := by
    intro hstarted
    rw [hawaits.selected_follow ((h.isPlain hsolo).startsNote_eq.trans hstarted)]
    exact hfound

/-- **A relation of voices and auditions that frames keep holds throughout a solo.**  It may speak
of the rows that have been read. -/
theorem InSolo.echoes_after {R : List Row → Voice → Audition → Prop} (hsolo : m.song.Solo c)
    (hfound : m.instruments.get? id = some i)
    (hframe : ∀ rows v a r, R rows v a → v.Ready m i r →
      R (rows ++ [r]) ((v.follow r).update m c).1 ((a.follow r).step m.waveforms).1)
    (rows : List Row) {a : Audition} (h : p.InSolo m c) (hR : R rows (p.voices.get c) a)
    (calls : List Call) (hgoing : Call.halt ∉ calls)
    (hawaits : (p.voices.get c).Awaits id (p.rowsRead m c (calls ++ [.step]))) :
    (p.after m calls).InSolo m c ∧
      R (rows ++ p.rowsRead m c calls) ((p.after m calls).voices.get c)
        (a.after (p.echoes m c calls)) ∧
      ((p.after m calls).voices.get c).Ready m i ((p.after m calls).rowRead m c) := by
  induction calls generalizing p a rows with
  | nil =>
      rw [rowsRead, gather, List.append_nil]
      exact ⟨h, hR, h.ready hsolo hfound hawaits⟩
  | cons call calls ih =>
      rw [List.mem_cons, not_or] at hgoing
      obtain ⟨hcall, hcalls⟩ := hgoing
      have hserved := h.serve hsolo (Ne.symm hcall)
      cases call with
      | step =>
          have hvoice : (p.serve m .step).1.voices.get c =
              (((p.voices.get c).follow (p.rowRead m c)).update m c).1 := by
            show (p.step m).1.voices.get c = _
            rw [h.voice_step hsolo, if_pos rfl]
          -- the first row of those to come is that of the frame
          have hfirst : (p.voices.get c).Awaits id
              (p.rowRead m c :: (p.serve m .step).1.rowsRead m c (calls ++ [.step])) := hawaits
          have hR' := hframe rows _ a _ hR (h.ready hsolo hfound hfirst)
          rw [← hvoice, ← Audition.after_echo a p m c] at hR'
          have hawaits' := hfirst.update m c
          rw [← hvoice] at hawaits'
          have hafter := ih _ hserved hR' hcalls hawaits'
          rw [List.append_assoc] at hafter
          rw [echoes, gather, Audition.after_append]
          exact hafter
      | setRepeat repeats => exact ih rows hserved hR hcalls hawaits
      | jump order => exact ih rows hserved hR hcalls hawaits
      | halt => exact absurd rfl hcall

end Player

/-! ## Tones -/

/-- How the pitches of a voice and of an audition compare on a tone channel, the one of the voice
being given: before the first note, the sequences of the instrument wait in the audition; behind it,
the two are the same and read those sequences. -/
inductive SameTone (i : Instrument) (isOpen : Bool) (q : Pitch .tone) : Pitch .tone → Prop
  | fresh : isOpen = false → SameTone i isOpen q (q.stage i.sequences)
  | bound : q.staged = {} → q.bindings = i.bindings → SameTone i isOpen q q

namespace SameTone

variable {i : Instrument} {isOpen : Bool} {q q' : Pitch .tone}

/-- A pitch that plays a note with the sequences of an instrument reads these, and nothing waits. -/
theorem of_play_sequences (q : Pitch .tone) (n : Nat) (isOpen : Bool) :
    SameTone i isOpen ((q.stage i.sequences).play (some n))
      ((q.stage i.sequences).play (some n)) := by
  refine .bound ?_ (q.reads_play_sequences i n).bindings
  rw [Pitch.staged_play]
  rfl

/-- A note turns both pitches into the same one, although only the voice binds the sequences. -/
theorem play_note (h : SameTone i isOpen q q') {n : Nat} (hn : n ≤ Note.last) :
    q'.play (some n) = (q.stage i.sequences).play (some n) := by
  cases h with
  | fresh _ => rfl
  | bound hstaged hbindings =>
      rw [Pitch.play, Pitch.play, Pitch.apply_rebound hstaged hbindings hn]

/-- A note that sounds on keeps both pitches the same. -/
theorem play_on (h : SameTone i true q q') (isOpen : Bool) :
    q'.play none = q.play none ∧ SameTone i isOpen (q.play none) (q.play none) := by
  cases h with
  | fresh hclosed => cases hclosed
  | bound hstaged hbindings =>
      refine ⟨rfl, .bound ?_ ?_⟩
      · rw [Pitch.staged_play]
        exact hstaged
      · rw [Pitch.bindings_play]
        exact hbindings

/-- A channel may fall silent. -/
theorem close (h : SameTone i isOpen q q') : SameTone i false q q' := by
  cases h with
  | fresh _ => exact .fresh rfl
  | bound hstaged hbindings => exact .bound hstaged hbindings

end SameTone

namespace Audition

variable {m : Module} {i : Instrument} {v : Voice} {a : Audition} {r : Row}

/-- An audition echoes a voice on a tone channel. -/
structure EchoesTone (i : Instrument) (v : Voice) (a : Audition) : Prop extends Echoes i v a where
  pitch : ∃ q q', v.pitch = some q ∧ a.pitch = .tone q' ∧ SameTone i v.gate.isOpen q q'

/-- Before its first note, an audition on a tone channel echoes a new voice. -/
theorem echoesTone_new (htone : i.channel.isNoise = false)
    (hflat : i.channel.envelopeSlopes i.envelope = false) (waves : Table Waveform) :
    EchoesTone i (Voice.new i.channel) (ofInstrument i waves).1 where
  toEchoes := echoes_new hflat waves
  pitch := by
    refine ⟨Pitch.new, Pitch.new.stage i.sequences, ?_, ?_, .fresh rfl⟩
    · show (if i.channel.isNoise then none else some Pitch.new) = _
      rw [htone, if_neg Bool.false_ne_true]
    · show (AuditionPitch.new i.channel).stage i.sequences = _
      rw [AuditionPitch.new, htone, if_neg Bool.false_ne_true]
      rfl

/-- On a frame on which a note sounds, both have the same pitch. -/
theorem EchoesTone.pitch_eq (h : EchoesTone i v a) (hready : v.Ready m i r)
    (hopens : r.note.opens v.gate.isOpen = true) :
    ∃ q, ((v.heard r).readied m r.note.started?).pitch = some q ∧
      (a.heard.played r.note.started?).pitch = .tone q ∧ ∀ isOpen, SameTone i isOpen q q := by
  obtain ⟨q, q', hq, hq', hsame⟩ := h.pitch
  -- a note that goes on was heard before, and one that starts binds the sequences first
  cases hnote : r.note with
  | none =>
      rw [hnote, Note.opens] at hopens
      rw [hopens] at hsame
      refine ⟨q.play none, ?_, ?_, fun isOpen => (hsame.play_on isOpen).2⟩
      · show v.pitch.map (fun p => p.play none) = _
        rw [hq, Option.map_some]
      · show a.pitch.play none = _
        rw [hq', AuditionPitch.play, (hsame.play_on true).1]
  | on n =>
      have hfound := hready.found (by rw [hnote]; rfl)
      have hplayable := hready.playable
      rw [hnote] at hplayable
      have hn : n ≤ Note.last := of_decide_eq_true hplayable
      refine ⟨(q.stage i.sequences).play (some n), ?_, ?_, .of_play_sequences q n⟩
      · show ((v.heard r).bindInstrument m.instruments).pitch.map (fun p => p.play (some n)) = _
        rw [Voice.bindInstrument_of_bind (v := v.heard r) hfound]
        show (v.pitch.map fun p => p.stage i.sequences).map (fun p => p.play (some n)) = _
        rw [hq, Option.map_some, Option.map_some]
      · show a.pitch.play (some n) = _
        rw [hq', AuditionPitch.play, hsame.play_note hn]
  | cut =>
      rw [hnote] at hopens
      cases hopens

/-- An audition that echoes a voice on a tone channel still does so behind a frame. -/
theorem EchoesTone.frame (h : EchoesTone i v a) (hready : v.Ready m i r) :
    EchoesTone i ((v.follow r).update m i.channel).1 ((a.follow r).step m.waveforms).1 where
  toEchoes := h.toEchoes.frame hready
  pitch := by
    cases hopens : r.note.opens v.gate.isOpen with
    | false =>
        obtain ⟨hupdate, hstep⟩ := h.frame_of_closed hready hopens
        obtain ⟨q, q', hq, hq', hsame⟩ := h.pitch
        rw [hupdate, hstep]
        exact ⟨q, q', hq, hq', hsame.close⟩
    | true =>
        obtain ⟨q, hq, hq', hsame⟩ := h.pitch_eq hready hopens
        obtain ⟨hupdate, hstep⟩ := h.frame_of_open hready hopens
        rw [hupdate, hstep, state_sound]
        exact ⟨q, q, hq, hq', hsame _⟩

/-- **Beside the output switches, both write the same on a frame.** -/
theorem EchoesTone.besideOutputs_frame (h : EchoesTone i v a) (hready : v.Ready m i r) :
    besideOutputs ((v.follow r).update m i.channel).2 =
      besideOutputs ((a.follow r).step m.waveforms).2 := by
  cases hopens : r.note.opens v.gate.isOpen with
  | false =>
      obtain ⟨hupdate, hstep⟩ := h.frame_of_closed hready hopens
      rw [hupdate, hstep]
      rfl
  | true =>
      obtain ⟨q, hq, hq', -⟩ := h.pitch_eq hready hopens
      obtain ⟨hupdate, hstep⟩ := h.frame_of_open hready hopens
      have hprogram := h.program_eq hready hopens
      -- both sides have the same pitch, and so write it alike
      have hfrequency : (a.heard.played r.note.started?).pitch.frequency =
          ((v.heard r).readied m r.note.started?).frequency := by
        rw [Voice.frequency, hq, hq']
        rfl
      have hpitch : ((a.heard.played r.note.started?).writePitch r.note.started?).2 =
          ((v.heard r).readied m r.note.started?).pitchWrites i.channel r.note.started? := by
        have hchannel : (a.heard.played r.note.started?).channel = i.channel := h.channel
        rw [writePitch, Voice.pitchWrites, hq, hq', hprogram, hchannel]
      obtain ⟨hvoice, haudition⟩ :=
        h.toEchoes.besideOutputs_sound r.note.started? hprogram hfrequency
      rw [hupdate, hstep, hvoice, haudition, hpitch]

end Audition

open Audition

namespace Player

variable {m : Module} {p : Player}

/-- In a solo on a tone channel, an audition that echoes the voice writes what the player writes, but
for the output switches. -/
theorem InSolo.besideOutputs_echo_of_tone {i : Instrument} {a : Audition}
    (h : p.InSolo m i.channel) (hsolo : m.song.Solo i.channel)
    (hechoes : EchoesTone i (p.voices.get i.channel) a)
    (hready : (p.voices.get i.channel).Ready m i (p.rowRead m i.channel)) :
    besideOutputs (a.writes (p.echo m i.channel .step)) = besideOutputs (p.step m).2 := by
  rw [writes_echo, h.besideOutputs_step hsolo]
  exact (hechoes.besideOutputs_frame hready).symm

/-- Throughout a solo on a tone channel, the audition echoes the voice of the player. -/
theorem echoesTone_after {position : Position} (h : Player.start m position = .ok p) {id : Nat}
    {i : Instrument} (hfound : m.instruments.get? id = some i)
    (htone : i.channel.isNoise = false)
    (hflat : i.channel.envelopeSlopes i.envelope = false) (hsolo : m.song.Solo i.channel)
    {calls : List Call} (hgoing : Call.halt ∉ calls)
    (hnames : Introduces id (p.rowsRead m i.channel (calls ++ [.step]))) :
    (p.after m calls).InSolo m i.channel ∧
      EchoesTone i ((p.after m calls).voices.get i.channel)
        ((ofInstrument i m.waveforms).1.after (p.echoes m i.channel calls)) ∧
      ((p.after m calls).voices.get i.channel).Ready m i
        ((p.after m calls).rowRead m i.channel) := by
  have hnew : EchoesTone i (p.voices.get i.channel) (ofInstrument i m.waveforms).1 := by
    obtain ⟨-, rfl⟩ := start_eq_ok.mp h
    rw [atPosition, PerChannel.get_ofFn]
    exact echoesTone_new htone hflat m.waveforms
  exact (inSolo_start h i.channel).echoes_after (R := fun _ v a => EchoesTone i v a) hsolo hfound
    (fun _ _ _ _ hR hready => hR.frame hready) [] hnew calls hgoing (.inr hnames)

/-- **An audition plays a solo on a tone channel as a player does.**  Asked for its notes and its
cuts on the frames on which the player reads them, it makes the same writes on every frame, but for
those to the output switches.  The instrument is introduced with the first note that is read: from
the start of the song that is its first note (`introduces_of_features`). -/
theorem same_writes_of_tone {position : Position} (h : Player.start m position = .ok p) {id : Nat}
    {i : Instrument} (hfound : m.instruments.get? id = some i)
    (htone : i.channel.isNoise = false)
    (hflat : i.channel.envelopeSlopes i.envelope = false) (hsolo : m.song.Solo i.channel)
    (calls : List Call) (hgoing : Call.halt ∉ calls)
    (hnames : Introduces id (p.rowsRead m i.channel (calls ++ [.step]))) :
    let p' := p.after m calls
    let a' := Audition.new.after (.setInstrument i m.waveforms :: p.echoes m i.channel calls)
    besideOutputs (a'.writes (p'.echo m i.channel .step)) = besideOutputs (p'.step m).2 := by
  intro p' a'
  obtain ⟨hsolo', hechoes, hready⟩ :=
    echoesTone_after h hfound htone hflat hsolo hgoing hnames
  exact hsolo'.besideOutputs_echo_of_tone hsolo hechoes hready

/-- **A song played from its start is echoed on every frame**, if it is a solo on a tone channel, its
first row with a note names the instrument, and no row names another one. -/
theorem same_writes_from_start (h : Player.start m ⟨0, 0⟩ = .ok p) {id : Nat} {i : Instrument}
    (hfound : m.instruments.get? id = some i) (htone : i.channel.isNoise = false)
    (hflat : i.channel.envelopeSlopes i.envelope = false) (hsolo : m.song.Solo i.channel)
    (hfeatures : m.song.Features i.channel id) (frames : Nat) :
    let calls := List.replicate frames Call.step
    let p' := p.after m calls
    let a' := Audition.new.after (.setInstrument i m.waveforms :: p.echoes m i.channel calls)
    besideOutputs (a'.writes (p'.echo m i.channel .step)) = besideOutputs (p'.step m).2 := by
  intro calls p' a'
  have hnames := introduces_concat_of_features hsolo hfeatures h frames
  obtain ⟨hsolo', hechoes, hready⟩ :=
    echoesTone_after h hfound htone hflat hsolo (Call.halt_not_mem_frames frames) hnames
  exact hsolo'.besideOutputs_echo_of_tone hsolo hechoes hready

end Player

/-- An instrument that plays a chord, lowers its pitch once, and changes the duty of its channel on
the second frame. -/
def chordInstrument : Instrument :=
  { Instrument.new "" .ch1 with
    arpeggio := ⟨[0, 4, 7], some 0, by decide, by decide⟩
    pitch := ⟨[0xFF], none, by decide, by decide⟩
    program := [0x00, 0x0A]
    length_le := by decide }

/-- A solo of one frame per row on the first channel: the note of the first row is cut on the third
one, and another one starts on the fourth. -/
def chordModule : Module where
  song := (({ Song.new "" with speed := .fastest }.setRow .ch1 0 0
      ((Row.empty.withNote (.on 24)).withInstrument 0)).setRow .ch1 0 2
      (Row.empty.withNote .cut)).setRow .ch1 0 3 (Row.empty.withNote (.on 36))
  instruments := Table.ofList [(0, chordInstrument)]
  waveforms := Table.empty

/-- On the fourth frame, the player and the audition start the chord again with the same write. -/
theorem same_writes_chordModule :
    let p := Player.atPosition chordModule.song ⟨0, 0⟩
    let calls := List.replicate 3 Call.step
    let p' := p.after chordModule calls
    let a' := Audition.new.after (.setInstrument chordInstrument chordModule.waveforms ::
      p.echoes chordModule .ch1 calls)
    Player.start chordModule ⟨0, 0⟩ = .ok p ∧ chordModule.song.Solo .ch1 ∧
      Introduces 0 (p.rowsRead chordModule .ch1 (calls ++ [.step])) ∧
      besideOutputs (p'.step chordModule).2 ≠ [] ∧
      besideOutputs (a'.writes (p'.echo chordModule .ch1 .step)) =
        besideOutputs (p'.step chordModule).2 := by
  intro p calls p' a'
  have hstart : Player.start chordModule ⟨0, 0⟩ = .ok p := rfl
  have hsolo : chordModule.song.Solo .ch1 := by decide +kernel
  have hnames : Introduces 0 (p.rowsRead chordModule .ch1 (calls ++ [.step])) := by decide +kernel
  refine ⟨hstart, hsolo, hnames, by decide +kernel, ?_⟩
  exact Player.same_writes_of_tone hstart (i := chordInstrument) (by decide +kernel) rfl
    (by decide) hsolo calls (by decide) hnames

end Chiptune
