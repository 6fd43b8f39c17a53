import Chiptune.Proofs.Checked.Player
import Chiptune.Proofs.Playback.Frequencies
import Chiptune.Proofs.Playback.Navigation

/-! # Solos

In a solo, only one channel has rows with anything in them, and these rows hold notes, cuts and
instruments but no effects.  Such a song never stops, its rows write nothing by themselves, and the
other channels stay silent, so that a frame is that of a single voice.

* `NoteGate.step_follow` says what a gate makes of a note that is to start at once.
* `Voice.readRow_of_plain` reads a row without effects, `Voice.update_followed` is the frame behind
  it.
* `Player.InSolo` is what holds of a player throughout a solo; `InSolo.voice_begun`,
  `InSolo.voice_step` and `InSolo.besideOutputs_step` follow the voice of the channel. -/

namespace Chiptune

/-! ## Writes beside the output switches -/

namespace DeviceWrite

/-- Whether a write is about the output switches. -/
def switchesOutputs : DeviceWrite → Bool
  | outputEnable _ => true
  | channelOutput _ _ => true
  | _ => false

/-- The writes that are about something else than the output switches. -/
def besideOutputs (ws : List DeviceWrite) : List DeviceWrite :=
  ws.filter fun w => !w.switchesOutputs

/-- What is written beside the output switches is filtered list by list. -/
@[simp] theorem besideOutputs_append (ws ws' : List DeviceWrite) :
    besideOutputs (ws ++ ws') = besideOutputs ws ++ besideOutputs ws' :=
  List.filter_append ..

end DeviceWrite

open DeviceWrite

/-! ## Rows without effects -/

namespace Note

/-- Whether a row may hold a note in a solo: the notes behind the last one are left out. -/
def isPlayable : Note → Bool
  | on n => n ≤ last
  | _ => true

/-- The note that starts. -/
def started? : Note → Option Nat
  | on n => some n
  | _ => Option.none

/-- Whether a note sounds behind a row. -/
def opens (wasOpen : Bool) : Note → Bool
  | none => wasOpen
  | on _ => true
  | cut => false

end Note

namespace NoteGate

/-- Ask for a note to start at once, or for a cut. -/
def follow (g : NoteGate) : Note → NoteGate
  | .on n => g.requestNote n 0
  | .cut => g.requestCut 0
  | .none => g

/-- Whether nothing waits at a gate. -/
def Idle (g : NoteGate) : Prop :=
  g = { isOpen := g.isOpen }

/-- Nothing waits behind the frame on which a gate has followed a note. -/
theorem step_follow {g : NoteGate} {note : Note} (hidle : g.Idle) (h : note.isPlayable = true) :
    (g.follow note).step = ({ isOpen := note.opens g.isOpen }, note.started?) := by
  rw [hidle]
  cases note with
  | none => cases g.isOpen <;> rfl
  | on n =>
      have hn : n ≤ Note.last := of_decide_eq_true h
      have hlt : n < Note.cutIndex := Nat.lt_succ_of_le hn
      rw [follow, requestNote, if_neg (Nat.ne_of_lt hlt), if_pos hlt]
      cases g.isOpen <;> rfl
  | cut => cases g.isOpen <;> rfl

end NoteGate

/-- A row that holds neither effects nor notes behind the last one. -/
structure Row.IsPlain (r : Row) : Prop where
  effects : r.effects = []
  note : r.note.isPlayable = true

instance (r : Row) : Decidable r.IsPlain :=
  decidable_of_iff (r.effects = [] ∧ r.note.isPlayable = true)
    ⟨fun h => ⟨h.1, h.2⟩, fun h => ⟨h.effects, h.note⟩⟩

/-- An empty row has neither effects nor a note. -/
theorem Row.isPlain_empty : Row.empty.IsPlain := ⟨rfl, rfl⟩

namespace Voice

variable {m : Module} {v : Voice} {c : Channel} {r : Row}

/-- The voice that has taken up the instrument of a row and follows its note. -/
def follow (v : Voice) (r : Row) : Voice :=
  { v with selected := r.instrument <|> v.selected, gate := v.gate.follow r.note }

/-- The empty row asks for nothing. -/
@[simp] theorem follow_empty (v : Voice) : v.follow Row.empty = v := rfl

/-- A row without effects is followed, and writes nothing. -/
theorem readRow_of_plain (h : r.IsPlain) (v : Voice) (waves : Table Waveform) (c : Channel) :
    v.readRow waves c r = (v.follow r, []) := by
  -- without effects, nothing is obeyed, applied or delayed
  have hobeyed : r.obeyed = [] := by rw [Row.obeyed, h.effects, List.takeWhile_nil]
  have hhalts : r.halts = false := by rw [Row.halts, h.effects, List.any_nil]
  have hnow : r.takesHoldAtOnce = false := by rw [Row.takesHoldAtOnce, h.effects, List.any_nil]
  have hdelay : r.noteDelay.toNat = 0 := by rw [Row.noteDelay, h.effects, List.foldl_nil]; rfl
  have hrequest : (v.select r).request r = v.follow r := by
    have hnote := h.note
    rw [request, hdelay, follow]
    cases hr : r.note with
    | none => rfl
    | on n =>
        rw [hr] at hnote
        exact if_pos (of_decide_eq_true hnote)
    | cut => rfl
  have hfinish : v.finishRow r = v.follow r := by
    unfold finishRow
    dsimp only
    rw [hnow, Bool.and_false, if_neg Bool.false_ne_true, hrequest]
  rw [readRow, hobeyed, obeyAll, hhalts]
  exact congrArg (·, []) hfinish

/-- The frame of a voice that follows a note. -/
theorem update_followed (hidle : v.gate.Idle) (h : r.note.isPlayable = true) (m : Module)
    (c : Channel) :
    (v.follow r).update m c =
      if r.note.opens v.gate.isOpen then
        ({ v.follow r with gate := { isOpen := true } } : Voice).sound m c r.note.started?
      else ({ v.follow r with gate := {}, output := Panning.off }, []) := by
  have hstep : (v.follow r).gate.step = _ := NoteGate.step_follow hidle h
  rw [update, hstep]
  cases r.note.opens v.gate.isOpen <;> rfl

/-- A voice without a note and without requests stays so, and writes nothing. -/
theorem update_of_silent (h : v.gate = {}) (m : Module) (c : Channel) :
    v.update m c = ({ v with output := Panning.off }, []) := by
  rw [update, h]
  show ({ v with gate := {}, output := Panning.off }, []) = _
  rw [← h]

end Voice

/-! ## Rows that name one instrument -/

/-- A row names no other instrument. -/
def Row.NamesOnly (id : Nat) (r : Row) : Prop :=
  ∀ id' ∈ r.instrument, id' = id

/-- Of some rows, the first one with a note names an instrument, and those behind it name no other
one. -/
def Introduces (id : Nat) : List Row → Prop
  | [] => True
  | r :: rs =>
      if r.startsNote then r.instrument = some id ∧ ∀ r' ∈ rs, r'.NamesOnly id
      else Introduces id rs

instance (id : Nat) (r : Row) : Decidable (r.NamesOnly id) :=
  inferInstanceAs (Decidable (∀ id' ∈ r.instrument, id' = id))

/-- Whether some rows introduce an instrument is found out from left to right. -/
instance decidableIntroduces (id : Nat) : (rows : List Row) → Decidable (Introduces id rows)
  | [] => isTrue trivial
  | r :: rs =>
      have := decidableIntroduces id rs
      inferInstanceAs (Decidable (if r.startsNote then _ else _))

namespace Voice

variable {m : Module} {v : Voice} {c : Channel} {r : Row}

/-- An instrument is selected for good by the rows that are to come: either it is selected already
and they name no other one, or they introduce it. -/
def Awaits (id : Nat) (rows : List Row) (v : Voice) : Prop :=
  (v.selected = some id ∧ ∀ r ∈ rows, r.NamesOnly id) ∨ Introduces id rows

/-- An update does not change which instrument is selected. -/
@[simp] theorem selected_update (v : Voice) (m : Module) (c : Channel) :
    (v.update m c).1.selected = v.selected := by
  have hbind (v : Voice) : (v.bindInstrument m.instruments).selected = v.selected := by
    unfold bindInstrument
    split
    · split <;> rfl
    · rfl
  refine update_induction (P := fun w => w.selected = v.selected) id ?_ (fun _ => id) rfl
  intro w started hw
  show (w.bound m started).selected = v.selected
  unfold bound
  split
  · rw [hbind, hw]
  · exact hw

/-- A selected instrument stays selected while no other one is named. -/
theorem selected_follow {id : Nat} (hselected : v.selected = some id) (hrow : r.NamesOnly id) :
    (v.follow r).selected = some id := by
  show (r.instrument <|> v.selected) = some id
  cases hinstrument : r.instrument with
  | none => exact hselected
  | some id' =>
      rw [hrow id' hinstrument]
      rfl

/-- A row that starts a note finds the instrument selected. -/
theorem Awaits.selected_follow {id : Nat} {rows : List Row} (h : v.Awaits id (r :: rows))
    (hstarts : r.startsNote = true) : (v.follow r).selected = some id := by
  obtain ⟨hselected, hrows⟩ | hintroduces := h
  · exact Voice.selected_follow hselected (hrows r List.mem_cons_self)
  · rw [Introduces, if_pos hstarts] at hintroduces
    show (r.instrument <|> v.selected) = some id
    rw [hintroduces.1]
    rfl

/-- Behind a frame, the rows that are left keep the instrument selected. -/
theorem Awaits.update {id : Nat} {rows : List Row} (h : v.Awaits id (r :: rows)) (m : Module)
    (c : Channel) : ((v.follow r).update m c).1.Awaits id rows := by
  unfold Awaits
  rw [selected_update]
  by_cases hstarts : r.startsNote = true
  · refine .inl ⟨h.selected_follow hstarts, ?_⟩
    obtain ⟨-, hrows⟩ | hintroduces := h
    · exact fun r' hr' => hrows r' (List.mem_cons_of_mem r hr')
    · rw [Introduces, if_pos hstarts] at hintroduces
      exact hintroduces.2
  · obtain ⟨hselected, hrows⟩ | hintroduces := h
    · exact .inl ⟨Voice.selected_follow hselected (hrows r List.mem_cons_self),
        fun r' hr' => hrows r' (List.mem_cons_of_mem r hr')⟩
    · rw [Introduces, if_neg hstarts] at hintroduces
      exact .inr hintroduces

end Voice

/-! ## Solos -/

/-- In a song, only one channel has rows, and these are plain. -/
structure Song.Solo (s : Song) (c : Channel) : Prop where
  others : ∀ position, position.Inside s.extent → ∀ d, d ≠ c → s.row position d = Row.empty
  plain : ∀ position, position.Inside s.extent → (s.row position c).IsPlain

/-- A solo is recognized by going through its rows. -/
theorem Song.solo_iff {s : Song} {c : Channel} :
    s.Solo c ↔ ∀ order < s.extent.orders, ∀ row < s.extent.rows,
      (∀ d ∈ Channel.all, d ≠ c → s.row ⟨order, row⟩ d = Row.empty) ∧
        (s.row ⟨order, row⟩ c).IsPlain := by
  constructor
  · intro h order horder row hrow
    exact ⟨fun d _ => h.others _ ⟨horder, hrow⟩ d, h.plain _ ⟨horder, hrow⟩⟩
  · intro h
    exact
      { others := fun position hin d => (h _ hin.1 _ hin.2).1 d d.mem_all
        plain := fun position hin => (h _ hin.1 _ hin.2).2 }

instance (s : Song) (c : Channel) : Decidable (s.Solo c) :=
  decidable_of_iff' _ Song.solo_iff

/-- The rows of a solo are plain on all channels. -/
theorem Song.Solo.isPlain {s : Song} {c : Channel} (h : s.Solo c) {position : Position}
    (hinside : position.Inside s.extent) (d : Channel) : ((s.line position).get d).IsPlain := by
  rw [Song.line, PerChannel.get_ofFn]
  by_cases hd : d = c
  · rw [hd]
    exact h.plain position hinside
  · rw [h.others position hinside d hd]
    exact Row.isPlain_empty

/-- A line of a solo does not stop playback. -/
theorem Song.Solo.not_halts {s : Song} {c : Channel} (h : s.Solo c) {position : Position}
    (hinside : position.Inside s.extent) : (s.line position).halts = false := by
  refine List.any_eq_false.mpr ?_
  intro d _
  rw [Row.halts, (h.isPlain hinside d).effects, List.any_nil]
  exact Bool.false_ne_true

namespace Player

variable {m : Module} {p : Player} {c : Channel}

/-- The row of a channel that is read on a frame; it is empty if none is. -/
def rowRead (p : Player) (m : Module) (c : Channel) : Row :=
  ((p.rowStart? m .step).map fun position => m.song.row position c).getD Row.empty

/-- The rows of a channel that are read on the frames of some calls. -/
def rowsRead (p : Player) (m : Module) (c : Channel) (calls : List Call) : List Row :=
  p.gather m (fun p call => if call = .step then [p.rowRead m c] else []) calls

/-- What holds of a player throughout a solo. -/
structure InSolo (m : Module) (c : Channel) (p : Player) : Prop where
  /-- Playback goes on. -/
  going : p.isHalted = false
  /-- The player stays inside the song. -/
  inRange : p.InRange m
  /-- Nothing waits and no note sounds on the other channels. -/
  silent : ∀ d, d ≠ c → (p.voices.get d).gate = {}

/-- At the start, all voices are new and no move waits. -/
theorem inSolo_start {position : Position} (h : Player.start m position = .ok p) (c : Channel) :
    p.InSolo m c where
  going := by
    obtain ⟨-, rfl⟩ := start_eq_ok.mp h
    rfl
  inRange := inRange_start h
  silent := by
    intro d _
    obtain ⟨-, rfl⟩ := start_eq_ok.mp h
    rw [atPosition, PerChannel.get_ofFn]
    rfl

variable (hsolo : m.song.Solo c)

include hsolo

/-- The row of a solo that a channel reads on a frame. -/
theorem InSolo.line_eq (h : p.InSolo m c) (hfirst : p.transport.clock.isFirst = true) :
    (p.nextLine m).get c = p.rowRead m c ∧
      (∀ d, d ≠ c → (p.nextLine m).get d = Row.empty) ∧ (p.nextLine m).halts = false := by
  have hinside := h.inRange.transport.enterRow.within.position
  refine ⟨?_, ?_, ?_⟩
  · rw [rowRead, rowStart?_step h.going hfirst hinside, nextLine, Song.line, PerChannel.get_ofFn]
    rfl
  · intro d hd
    rw [nextLine, Song.line, PerChannel.get_ofFn]
    exact hsolo.others _ hinside d hd
  · exact hsolo.not_halts hinside

/-- Every row that is read in a solo is plain. -/
theorem InSolo.isPlain (h : p.InSolo m c) : (p.rowRead m c).IsPlain := by
  cases hfirst : p.transport.clock.isFirst with
  | true =>
      rw [← (h.line_eq hsolo hfirst).1]
      exact hsolo.isPlain h.inRange.transport.enterRow.within.position c
  | false =>
      rw [rowRead, rowStart?_step_eq_none (by rw [hfirst, Bool.and_false])]
      exact Row.isPlain_empty

/-- The voices of a frame: that of the channel follows its row, the others are as before. -/
theorem InSolo.voice_begun (h : p.InSolo m c) (d : Channel) :
    (p.begun m).voices.get d =
      if d = c then (p.voices.get c).follow (p.rowRead m c) else p.voices.get d := by
  have hplain := h.isPlain hsolo
  rw [Player.voice_begun]
  cases hfirst : p.transport.clock.isFirst with
  | true =>
      obtain ⟨hrow, hothers, hhalts⟩ := h.line_eq hsolo hfirst
      rw [Line.reads_of_not_halts _ hhalts, Bool.true_and, if_pos rfl]
      by_cases hd : d = c
      · rw [if_pos hd, hd, hrow, Voice.readRow_of_plain hplain]
      · rw [if_neg hd, hothers d hd, Voice.readRow_of_plain Row.isPlain_empty, Voice.follow_empty]
  | false =>
      rw [Bool.false_and, if_neg Bool.false_ne_true, rowRead,
        rowStart?_step_eq_none (by rw [hfirst, Bool.and_false])]
      by_cases hd : d = c
      · rw [if_pos hd, hd]
        rfl
      · rw [if_neg hd]

/-- No row of a solo stops playback. -/
theorem InSolo.going_begun (h : p.InSolo m c) : (p.begun m).isHalted = false := by
  rw [isHalted_begun m h.going]
  cases hfirst : p.transport.clock.isFirst with
  | true => rw [(h.line_eq hsolo hfirst).2.2, Bool.and_false]
  | false => rfl

/-- The voices behind a frame. -/
theorem InSolo.voice_step (h : p.InSolo m c) (d : Channel) :
    (p.step m).1.voices.get d =
      if d = c then (((p.voices.get c).follow (p.rowRead m c)).update m c).1
      else { p.voices.get d with output := Panning.off } := by
  rw [Player.voice_step h.going (h.going_begun hsolo), h.voice_begun hsolo]
  by_cases hd : d = c
  · rw [if_pos hd, if_pos hd, hd]
  · rw [if_neg hd, if_neg hd, Voice.update_of_silent (h.silent d hd)]

/-- **A solo goes on as one**, unless the caller stops it. -/
theorem InSolo.serve (h : p.InSolo m c) {call : Call} (hcall : call ≠ .halt) :
    (p.serve m call).1.InSolo m c := by
  cases call with
  | step =>
      refine { going := ?_, inRange := h.inRange.step, silent := ?_ }
      · exact isHalted_step_eq_false.mpr ⟨h.going, h.going_begun hsolo⟩
      · intro d hd
        show ((p.step m).1.voices.get d).gate = {}
        rw [h.voice_step hsolo, if_neg hd]
        exact h.silent d hd
  | setRepeat repeats => exact { h with inRange := h.inRange.serve (.setRepeat repeats) }
  | jump order => exact { h with inRange := h.inRange.serve (.jump order) }
  | halt => exact absurd rfl hcall

/-- The rows of a solo write nothing. -/
theorem InSolo.rowWrites_eq (h : p.InSolo m c) : p.rowWrites m = [] := by
  rw [Player.rowWrites_eq]
  split
  next hfirst =>
    have hinside := h.inRange.transport.enterRow.within.position
    refine List.flatMap_eq_nil_iff.mpr ?_
    intro d _
    have hplain : ((p.nextLine m).get d).IsPlain := hsolo.isPlain hinside d
    rw [Voice.readRow_of_plain hplain, ite_self]
  next => rfl

/-- **Beside the output switches, a frame of a solo writes what the voice of the channel does.** -/
theorem InSolo.besideOutputs_step (h : p.InSolo m c) :
    besideOutputs (p.step m).2 =
      besideOutputs (((p.voices.get c).follow (p.rowRead m c)).update m c).2 := by
  have hswitches : besideOutputs (p.switchWrites m) = [] := by
    unfold switchWrites
    dsimp only
    split <;> rfl
  have hothers (d : Channel) (hd : d ≠ c) :
      (((p.begun m).voices.get d).update m d).2 = [] := by
    rw [h.voice_begun hsolo, if_neg hd, Voice.update_of_silent (h.silent d hd)]
  rw [writes_step h.going (h.going_begun hsolo), h.rowWrites_eq hsolo, List.nil_append,
    besideOutputs_append, hswitches, List.append_nil, flatMap_all hothers, h.voice_begun hsolo,
    if_pos rfl]

end Player
end Chiptune
