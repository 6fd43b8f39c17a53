import Chiptune.Proofs.Playback.OutputMask

/-! # The output switches that the device ends up with

Two writers share the output switches of the device.  Playback writes the byte of all switches when
the voices ask for another one than before, and the program of an instrument switches the outputs of
its own channel, of which the byte knows nothing.  So a program puts its panning over the byte, and
the next byte, whoever has caused it, takes it away again.

* `Player.outputHistory` lists what is asked for on a channel, and when the byte is written.
* `Player.switches_after` follows the device through a run: where no program has put its panning
  over the byte, the device has what the voice is heard on.
* `silent_iff` says when a channel without a note is silent at the device, and `silent_of_stopped`
  that it is where the note has been heard as the settings say.
* `latest_request_iff` says when the device has the panning that a channel has asked for last. -/

namespace Chiptune

open DeviceWrite

/-! ## Histories -/

/-- What asks for the outputs of a channel. -/
inductive PanningRequest where
  /-- The settings of the channel, by a panning effect or by a note that starts. -/
  | own (panning : Panning)
  /-- The program of the channel. -/
  | program (panning : Panning)
  deriving DecidableEq, Repr

/-- The panning that a program asks for, if the request is a program's. -/
def PanningRequest.program? : PanningRequest → Option Panning
  | own _ => none
  | program panning => some panning

/-- What happens to the outputs of a channel. -/
inductive OutputEvent where
  /-- The channel asks for outputs. -/
  | request (r : PanningRequest)
  /-- The byte of all switches is written. -/
  | written
  deriving DecidableEq, Repr

namespace OutputEvent

/-- The request of an event, if it is one. -/
def request? : OutputEvent → Option PanningRequest
  | request r => some r
  | written => none

/-- The last request of a history. -/
def latest (es : List OutputEvent) : Option PanningRequest :=
  (es.filterMap request?).getLast?

/-- The panning that stands over the byte behind an event: a program puts its own there, and writing
the byte takes it away. -/
def override (above : Option Panning) : OutputEvent → Option Panning
  | request (.own _) => above
  | request (.program panning) => some panning
  | written => none

/-- The panning that stands over the byte behind a history. -/
def standing (es : List OutputEvent) : Option Panning :=
  es.foldl override none

/-- The last request of two histories is that of the second one, if it has any. -/
theorem latest_append (es es' : List OutputEvent) :
    latest (es ++ es') = (latest es').or (latest es) := by
  rw [latest, List.filterMap_append, List.getLast?_append, latest, latest]

/-- The last request of some requests is the last one. -/
theorem latest_map_request (rs : List PanningRequest) : latest (rs.map request) = rs.getLast? := by
  have hrequests : (rs.map request).filterMap request? = rs := by
    rw [List.filterMap_map]
    exact List.filterMap_some
  rw [latest, hrequests]

/-- Writing the byte asks for nothing. -/
theorem latest_map_written (masks : List UInt8) : latest (masks.map fun _ => written) = none := by
  have hnone : (masks.map fun _ => written).filterMap request? = [] := by
    rw [List.filterMap_map]
    exact List.filterMap_eq_nil_iff.mpr fun _ _ => rfl
  rw [latest, hnone, List.getLast?_nil]

/-- Of some requests, the last one of a program stands over the byte. -/
theorem override_requests (rs : List PanningRequest) (above : Option Panning) :
    (rs.map request).foldl override above =
      (rs.filterMap PanningRequest.program?).getLast?.or above := by
  induction rs generalizing above with
  | nil => rfl
  | cons r rs ih =>
      rw [List.map_cons, List.foldl_cons, ih]
      cases r with
      | own panning => rfl
      | program panning =>
          show ((rs.filterMap PanningRequest.program?).getLast?.or (some panning)) =
            (panning :: rs.filterMap PanningRequest.program?).getLast?.or above
          rw [List.getLast?_cons]
          cases (rs.filterMap PanningRequest.program?).getLast? <;> rfl

/-- Writing the byte takes away what has stood over it. -/
theorem override_written {masks : List UInt8} (h : masks ≠ []) (above : Option Panning) :
    (masks.map fun _ => written).foldl override above = none := by
  obtain rfl | ⟨masks, mask, rfl⟩ := masks.eq_nil_or_concat
  · exact absurd rfl h
  · rw [List.concat_eq_append, List.map_append, List.foldl_append]
    rfl

/-- What stands over the byte is what a program has asked for, so it is the last request if that is
a program's. -/
theorem standing_of_latest {es : List OutputEvent} {q : Panning}
    (h : latest es = some (.program q)) : standing es = none ∨ standing es = some q := by
  obtain rfl | ⟨es, e, rfl⟩ := es.eq_nil_or_concat
  · cases h
  · rw [List.concat_eq_append, latest_append] at h
    rw [List.concat_eq_append, standing, List.foldl_append, List.foldl_cons, List.foldl_nil]
    cases e with
    | request r =>
        -- the last event is the last request
        obtain rfl : r = .program q := Option.some.inj h
        exact .inr rfl
    | written => exact .inl rfl

end OutputEvent

open OutputEvent

/-! ## Voices -/

namespace Voice

variable {m : Module} {v : Voice}

/-- The requests of a voice on a frame behind its row: that of a note that starts, then that of its
program. -/
def requests (v : Voice) (m : Module) : List PanningRequest :=
  (if v.gate.step.2.isSome then [.own v.settings.panning] else []) ++
    (v.programPanning? m).toList.map .program

/-- A voice with a note has asked for outputs, and a panning of its settings that it has asked for
last is the one that they still have. -/
structure Asked (latest : Option PanningRequest) (v : Voice) : Prop where
  /-- A note has been started with a request. -/
  asks : v.isPlaying = true → latest.isSome
  /-- The settings are those of the request. -/
  settled : ∀ q, latest = some (.own q) → v.settings.panning = q

/-- A row asks for the panning that it sets. -/
theorem Asked.readRow {latest : Option PanningRequest} (h : v.Asked latest)
    (waves : Table Waveform) (c : Channel) (r : Row) :
    (v.readRow waves c r).1.Asked ((r.pannings.map PanningRequest.own).getLast?.or latest) := by
  obtain ⟨hplaying, hsettings, -⟩ := panning_readRow v waves c r
  rw [List.getLast?_map]
  -- a row asks for its last panning, or for nothing
  cases hlast : r.pannings.getLast? with
  | none =>
      rw [hlast] at hsettings
      constructor
      · intro hopen
        exact h.asks (hplaying ▸ hopen)
      · intro q hq
        rw [hsettings]
        exact h.settled q hq
  | some q =>
      rw [hlast] at hsettings
      constructor
      · intro _
        rfl
      · intro q' hq'
        cases hq'
        exact hsettings

/-- A note that starts asks for the panning of the settings. -/
theorem Asked.update {latest : Option PanningRequest} (h : v.Asked latest) (m : Module)
    (c : Channel) : (v.update m c).1.Asked ((v.requests m).getLast?.or latest) := by
  have hsettings : (v.update m c).1.settings = v.settings := settings_update v m c
  unfold requests
  cases v.programPanning? m with
  | some q =>
      -- a program that asks has the last word
      rw [Option.toList_some, List.map_singleton, List.getLast?_concat, Option.some_or]
      constructor
      · intro _
        rfl
      · intro q' hq'
        cases hq'
  | none =>
      rw [Option.toList_none, List.map_nil, List.append_nil]
      cases hstarted : v.gate.step.2 with
      | some note =>
          constructor
          · intro _
            rfl
          · intro q' hq'
            cases hq'
            rw [hsettings]
      | none =>
          -- a note that sounds on has been started before
          constructor
          · intro hplaying
            rw [isPlaying_update] at hplaying
            exact h.asks (isPlaying_of_gated hplaying hstarted)
          · intro q' hq'
            rw [hsettings]
            exact h.settled q' hq'

end Voice

/-! ## Players -/

namespace Player

variable {m : Module} {p : Player}

/-- The requests of a channel in the row that begins on a frame. -/
def rowRequests (p : Player) (m : Module) (c : Channel) : List PanningRequest :=
  if p.transport.clock.isFirst && (p.nextLine m).reads c then
    ((p.nextLine m).get c).pannings.map .own
  else []

/-- The requests of a channel on a call: those of the row that begins, then those of the voice. -/
def requests (p : Player) (m : Module) (c : Channel) : Call → List PanningRequest
  | .step =>
      if p.isHalted then []
      else if (p.begun m).isHalted then p.rowRequests m c
      else p.rowRequests m c ++ ((p.begun m).voices.get c).requests m
  | _ => []

/-- What a call does to the outputs of a channel; the byte is written at the end of a frame. -/
def outputEvents (p : Player) (m : Module) (c : Channel) (call : Call) : List OutputEvent :=
  (p.requests m c call).map .request ++
    (outputEnables (p.serve m call).2).map fun _ => .written

/-- What some calls do to the outputs of a channel. -/
def outputHistory (p : Player) (m : Module) (c : Channel) (calls : List Call) :
    List OutputEvent :=
  p.gather m (fun p => p.outputEvents m c) calls

/-- The output switches of the device behind some calls, which are off at first. -/
def deviceSwitches (p : Player) (m : Module) (calls : List Call) : UInt8 :=
  switched 0 (p.writes m calls)

/-! ### Requests -/

/-- The requests of a row are those of its effects. -/
theorem asked_begun {latest : Option PanningRequest} {c : Channel}
    (h : (p.voices.get c).Asked latest) (m : Module) :
    ((p.begun m).voices.get c).Asked ((p.rowRequests m c).getLast?.or latest) := by
  rw [voice_begun, rowRequests]
  split
  · exact h.readRow _ _ _
  · exact h

/-- A call asks for what the settings of a channel change to. -/
theorem asked_serve {latest : Option PanningRequest} {c : Channel}
    (h : (p.voices.get c).Asked latest) (m : Module) (call : Call) :
    ((p.serve m call).1.voices.get c).Asked ((p.requests m c call).getLast?.or latest) := by
  cases call with
  | step =>
      show ((p.step m).1.voices.get c).Asked _
      unfold requests
      cases hp : p.isHalted with
      | true =>
          rw [if_pos rfl, step_of_halted m hp]
          exact h
      | false =>
      rw [if_neg Bool.false_ne_true]
      cases hb : (p.begun m).isHalted with
      | true =>
          rw [if_pos rfl, voice_step_of_halting hp hb]
          exact asked_begun h m
      | false =>
          rw [if_neg Bool.false_ne_true, voice_step hp hb, List.getLast?_append, Option.or_assoc]
          exact (asked_begun h m).update m c
  | setRepeat repeats => exact h
  | jump order => exact h
  | halt => exact h

/-- A call adds its requests to those before it. -/
theorem latest_outputEvents (p : Player) (m : Module) (c : Channel) (call : Call) :
    latest (p.outputEvents m c call) = (p.requests m c call).getLast? := by
  rw [outputEvents, latest_append, latest_map_written, latest_map_request, Option.none_or]

/-- In all runs, the latest request of a channel is known where a note sounds, and its settings are
those of the request. -/
theorem asked_after {es : List OutputEvent} {c : Channel}
    (h : (p.voices.get c).Asked (latest es)) (calls : List Call) :
    ((p.after m calls).voices.get c).Asked (latest (es ++ p.outputHistory m c calls)) := by
  induction calls generalizing p es with
  | nil =>
      rw [outputHistory, gather, List.append_nil]
      exact h
  | cons call calls ih =>
      have hserved := asked_serve h m call
      rw [← latest_outputEvents, ← latest_append] at hserved
      rw [outputHistory, gather, ← List.append_assoc]
      exact ih hserved

/-! ### Switches -/

/-- The bits of a channel in a byte over which a panning may stand. -/
def overBits (above : Option Panning) (c : Channel) (mask : UInt8) : UInt8 :=
  (above.map fun q => q.bits c).getD (mask &&& c.outputMask)

/-- The pannings that the programs of a row ask for: there are none. -/
theorem programs_rowRequests (p : Player) (m : Module) (c : Channel) :
    (p.rowRequests m c).filterMap PanningRequest.program? = [] := by
  unfold rowRequests
  split
  · rw [List.filterMap_map]
    exact List.filterMap_eq_nil_iff.mpr fun _ _ => rfl
  · rfl

/-- The panning that a voice asks for by its program. -/
theorem programs_requests (v : Voice) (m : Module) :
    (v.requests m).filterMap PanningRequest.program? = (v.programPanning? m).toList := by
  have hown : (if v.gate.step.2.isSome then [PanningRequest.own v.settings.panning]
      else []).filterMap PanningRequest.program? = [] := by
    split <;> rfl
  rw [Voice.requests, List.filterMap_append, hown, List.nil_append]
  cases v.programPanning? m <;> rfl

/-- The switches at the end of a frame give a channel its bits of the byte. -/
theorem switchBits_switchWrites (p : Player) (m : Module) (c : Channel) :
    switchBits c (p.switchWrites m) =
      (outputEnables (p.switchWrites m)).map fun mask => mask &&& c.outputMask := by
  unfold switchWrites
  dsimp only
  split <;> rfl

/-- No row gives a channel any bits. -/
theorem switchBits_rowWrites (p : Player) (m : Module) (c : Channel) :
    switchBits c (Channel.all.flatMap (p.rowWritesOf m)) = [] := by
  rw [switchBits_all fun d => (p.plain_rowWritesOf m d).owned,
    (p.plain_rowWritesOf m c).switchBits_eq]

/-- The sound of a frame gives a channel the bits that its program asks for. -/
theorem Reachable.switchBits_soundWrites (h : Reachable m p) (c : Channel) :
    switchBits c (Channel.all.flatMap (p.soundWritesOf m)) =
      ((((p.begun m).voices.get c).requests m).filterMap PanningRequest.program?).map
        fun q => q.bits c := by
  rw [switchBits_all h.owned_soundWritesOf, soundWritesOf,
    Voice.switchBits_update (h.fits_begun c), Option.toList_map, programs_requests]

/-- A frame gives a channel the bits that its program asks for, then those of the byte. -/
theorem Reachable.switchBits_step (h : Reachable m p) (c : Channel) :
    switchBits c (p.step m).2 =
      ((p.requests m c .step).filterMap PanningRequest.program?).map (fun q => q.bits c) ++
        (outputEnables (p.step m).2).map fun mask => mask &&& c.outputMask := by
  unfold requests
  -- the bits come from programs during the frame, and from the switches at its end
  cases hp : p.isHalted with
  | true =>
      rw [if_pos rfl, step_of_halted m hp]
      rfl
  | false =>
  rw [if_neg Bool.false_ne_true]
  cases hb : (p.begun m).isHalted with
  | true =>
      rw [if_pos rfl, step_of_halting hp hb, outputEnables_rowWrites, programs_rowRequests,
        rowWrites_eq_flatMap, switchBits_rowWrites]
      rfl
  | false =>
      rw [if_neg Bool.false_ne_true, writes_step_eq hp hb, switchBits_append, switchBits_append,
        switchBits_rowWrites, h.switchBits_soundWrites, switchBits_switchWrites,
        outputEnables_append, h.outputEnables_before, List.filterMap_append,
        programs_rowRequests]
      rfl

/-- **A call gives a channel the bits that its program asks for, then those of the byte.** -/
theorem Reachable.switchBits_serve (h : Reachable m p) (c : Channel) (call : Call) :
    switchBits c (p.serve m call).2 =
      ((p.requests m c call).filterMap PanningRequest.program?).map (fun q => q.bits c) ++
        (outputEnables (p.serve m call).2).map fun mask => mask &&& c.outputMask := by
  cases call with
  | step => exact h.switchBits_step c
  | setRepeat repeats => rfl
  | jump order => rfl
  | halt => rfl

/-- Behind a call, the device still has the panning that stands over the byte, or the byte. -/
theorem Reachable.switches_serve {mask : UInt8} {above : Option Panning} {c : Channel}
    (h : Reachable m p)
    (hmask : mask &&& c.outputMask = overBits above c p.outputsWritten) (call : Call) :
    switched mask (p.serve m call).2 &&& c.outputMask =
      overBits ((p.outputEvents m c call).foldl override above) c
        (p.serve m call).1.outputsWritten := by
  rw [switched_and_outputMask, hmask, h.switchBits_serve, h.outputsWritten_serve, outputEvents,
    List.foldl_append, override_requests]
  obtain hnone | ⟨masks, last, hmasks⟩ := (outputEnables (p.serve m call).2).eq_nil_or_concat
  · rw [hnone, List.map_nil, List.append_nil, List.getLast?_map, List.map_nil, List.foldl_nil,
      List.getLast?_nil, Option.getD_none, overBits, overBits]
    cases ((p.requests m c call).filterMap PanningRequest.program?).getLast? <;> rfl
  · rw [hmasks, List.concat_eq_append, override_written (by simp), List.map_append,
      ← List.append_assoc, List.map_singleton, List.getLast?_concat, List.getLast?_concat]
    rfl

/-- Behind some calls, the device has the panning that stands over the byte, or the byte. -/
theorem Reachable.switches_after {mask : UInt8} {above : Option Panning} {c : Channel}
    (h : Reachable m p)
    (hmask : mask &&& c.outputMask = overBits above c p.outputsWritten)
    (calls : List Call) :
    switched mask (p.writes m calls) &&& c.outputMask =
      overBits ((p.outputHistory m c calls).foldl override above) c
        (p.after m calls).outputsWritten := by
  induction calls generalizing p mask above with
  | nil => exact hmask
  | cons call calls ih =>
      rw [writes, gather, switched, List.foldl_append, ← switched, ← switched, outputHistory,
        gather, List.foldl_append]
      exact ih (h.serve call) (h.switches_serve hmask call)

/-- While playback goes on, the byte that was written last is the one that the voices ask for. -/
theorem Reachable.outputsWritten_eq (h : Reachable m p) (hp : p.isHalted = false) :
    p.outputsWritten = outputMask p.voices := by
  induction h with
  | @start position p hstart =>
      rw [outputMask_start hstart]
      obtain ⟨-, rfl⟩ := start_eq_ok.mp hstart
      rfl
  | @serve p call _ ih =>
      cases call with
      | step =>
          obtain ⟨hbefore, hbegun⟩ := isHalted_step_eq_false.mp hp
          exact outputsWritten_step hbefore hbegun
      | setRepeat repeats => exact ih hp
      | jump order => exact ih hp
      | halt => cases hp

/-- **While playback goes on, a channel has at the device the panning that its program has put over
the byte, or else the outputs on which its voice is heard.** -/
theorem deviceSwitches_and {position : Position} (h : Player.start m position = .ok p)
    (calls : List Call) (c : Channel) (hgoing : (p.after m calls).isHalted = false) :
    p.deviceSwitches m calls &&& c.outputMask =
      ((standing (p.outputHistory m c calls)).getD
        ((p.after m calls).voices.get c).output).bits c := by
  have hoff : (0 : UInt8) &&& c.outputMask = overBits none c p.outputsWritten := by
    obtain ⟨-, rfl⟩ := start_eq_ok.mp h
    rfl
  have hreached : Reachable m (p.after m calls) := (Reachable.start h).after calls
  rw [deviceSwitches, (Reachable.start h).switches_after hoff, hreached.outputsWritten_eq hgoing,
    overBits, outputMask_and, Option.getD_map, standing]

/-! ### Channels without a note -/

/-- **A channel without a note is silent at the device exactly if no panning of its program stands
over the byte**, unless that panning is silence, too.  The byte that playback writes when a note
ends takes such a panning away, but it is written only if it has changed. -/
theorem silent_iff {position : Position} (h : Player.start m position = .ok p)
    (calls : List Call) (c : Channel) (hgoing : (p.after m calls).isHalted = false)
    (hsilent : (p.after m calls).isPlaying c = false) :
    p.deviceSwitches m calls &&& c.outputMask = 0 ↔
      standing (p.outputHistory m c calls) = none ∨
        standing (p.outputHistory m c calls) = some Panning.off := by
  have houtput : ((p.after m calls).voices.get c).output = Panning.off :=
    ((Reachable.start h).after calls).output_of_silent hsilent
  rw [deviceSwitches_and h calls c hgoing, houtput, ← Panning.bits_off c, Panning.bits_inj]
  cases standing (p.outputHistory m c calls) with
  | none => simp
  | some q => simp

/-- **A channel falls silent at the device with its note**, whatever its program has asked for, if
its settings let the note be heard at all. -/
theorem silent_of_stopped {position : Position} (h : Player.start m position = .ok p)
    (calls : List Call) (c : Channel)
    (hgoing : (p.after m (calls ++ [.step])).isHalted = false)
    (hplaying : (p.after m calls).isPlaying c = true)
    (hheard : ((p.after m calls).voices.get c).settings.panning ≠ Panning.off)
    (hsilent : (p.after m (calls ++ [.step])).isPlaying c = false) :
    p.deviceSwitches m (calls ++ [.step]) &&& c.outputMask = 0 := by
  have hreached : Reachable m (p.after m calls) := (Reachable.start h).after calls
  have hreached' : Reachable m (p.after m (calls ++ [.step])) :=
    (Reachable.start h).after (calls ++ [.step])
  have hgoing' : (p.after m calls).isHalted = false := by
    have hstep := hgoing
    rw [after_concat] at hstep
    exact (isHalted_step_eq_false.mp hstep).1
  -- the end of the note has changed the byte, so it is written
  have hwritten : outputEnables ((p.after m calls).serve m .step).2 ≠ [] := by
    intro hnone
    have hsame := hreached.outputsWritten_serve .step
    rw [hnone, List.getLast?_nil, Option.getD_none, ← after_concat,
      hreached'.outputsWritten_eq hgoing, hreached.outputsWritten_eq hgoing'] at hsame
    have hbits := congrArg (· &&& c.outputMask) hsame
    rw [outputMask_and, outputMask_and, hreached.output_of_playing hplaying,
      hreached'.output_of_silent hsilent, Panning.bits_inj] at hbits
    exact hheard hbits.symm
  refine (silent_iff h (calls ++ [.step]) c hgoing hsilent).mpr (.inl ?_)
  rw [outputHistory, gather_concat, outputEvents, standing, List.foldl_append, List.foldl_append,
    override_written hwritten]

end Player

/-- A module of one frame per row.  A note starts on its first row, with an instrument that switches
its outputs on the left only on the second frame, and starts again on the third row.  A note on
another channel starts on the fifth row, and the first channel is cut on the sixth one. -/
def panningModule : Module where
  song := (((({ Song.new "" with speed := .fastest }.setRow .ch1 0 0
      ((Row.empty.withNote (.on 0)).withInstrument 0)).setRow .ch1 0 2
      (Row.empty.withNote (.on 0))).setRow .ch2 0 4
      (Row.empty.withNote (.on 0))).setRow .ch1 0 5 (Row.empty.withNote .cut))
  instruments := Table.ofList [(0, { Instrument.new "" .ch1 with
    program := [0x00, 0x98, 0x00, 0x00], length_le := by decide })]
  waveforms := Table.empty

/-- Behind the cut, nothing stands over the byte, and the first channel is silent. -/
theorem silent_panningModule :
    let p := Player.atPosition panningModule.song ⟨0, 0⟩
    let calls := List.replicate 6 Call.step
    Player.start panningModule ⟨0, 0⟩ = .ok p ∧
      (p.after panningModule calls).isHalted = false ∧
      (p.after panningModule calls).isPlaying .ch1 = false ∧
      p.deviceSwitches panningModule calls &&& Channel.ch1.outputMask = 0 := by
  intro p calls
  have hstart : Player.start panningModule ⟨0, 0⟩ = .ok p := rfl
  have hgoing : (p.after panningModule calls).isHalted = false := by decide +kernel
  have hsilent : (p.after panningModule calls).isPlaying .ch1 = false := by decide +kernel
  refine ⟨hstart, hgoing, hsilent, ?_⟩
  exact (Player.silent_iff hstart calls .ch1 hgoing hsilent).mpr (.inl (by decide +kernel))

/-- A module of one frame per row.  The note on its first row is to be heard nowhere, but its
instrument switches both outputs on; it is cut on the second row. -/
def mutedModule : Module where
  song := ({ Song.new "" with speed := .fastest }.setRow .ch1 0 0
      (((Row.empty.withNote (.on 0)).withInstrument 0).withEffect
        ⟨.track .setPanning, 0x00⟩)).setRow .ch1 0 1 (Row.empty.withNote .cut)
  instruments := Table.ofList [(0, { Instrument.new "" .ch1 with
    program := [0x9C], length_le := by decide })]
  waveforms := Table.empty

/-- Behind the cut, the panning of the program still stands over the byte, which has not changed:
the first channel is heard on both outputs without a note. -/
theorem heard_mutedModule :
    let p := Player.atPosition mutedModule.song ⟨0, 0⟩
    let calls := [Call.step, Call.step]
    Player.start mutedModule ⟨0, 0⟩ = .ok p ∧
      (p.after mutedModule calls).isHalted = false ∧
      (p.after mutedModule calls).isPlaying .ch1 = false ∧
      p.deviceSwitches mutedModule calls &&& Channel.ch1.outputMask ≠ 0 := by
  intro p calls
  refine ⟨rfl, ?_, ?_, ?_⟩ <;> decide +kernel

namespace Player

variable {m : Module} {p : Player}

/-! ### Channels with a note -/

/-- **When the device has the panning that a channel with a note has asked for last.**  It has one
of the channel's own settings unless a different panning of its program stands over the byte from
before, and it has one of the program's as long as that stands over the byte, or if the settings
happen to ask for the same. -/
theorem latest_request_iff {position : Position} (h : Player.start m position = .ok p)
    (calls : List Call) (c : Channel) (hgoing : (p.after m calls).isHalted = false)
    (hplaying : (p.after m calls).isPlaying c = true) :
    let history := p.outputHistory m c calls
    let setting := ((p.after m calls).voices.get c).settings.panning
    let bits := p.deviceSwitches m calls &&& c.outputMask
    latest history = some (.own setting) ∧
        (bits = setting.bits c ↔ standing history = none ∨ standing history = some setting) ∨
      ∃ q, latest history = some (.program q) ∧
        (bits = q.bits c ↔ standing history = some q ∨ setting = q) := by
  intro history setting bits
  -- at the start nothing has been asked for
  have hasked : ((p.after m calls).voices.get c).Asked (latest history) := by
    show ((p.after m calls).voices.get c).Asked (latest ([] ++ p.outputHistory m c calls))
    refine asked_after ?_ calls
    obtain ⟨-, rfl⟩ := start_eq_ok.mp h
    rw [atPosition, PerChannel.get_ofFn]
    constructor
    · intro hopen
      cases hopen
    · intro q hq
      cases hq
  have houtput : ((p.after m calls).voices.get c).output = setting :=
    ((Reachable.start h).after calls).output_of_playing hplaying
  have hbits (q : Panning) : bits = q.bits c ↔ (standing history).getD setting = q := by
    rw [show bits = _ from deviceSwitches_and h calls c hgoing, houtput, Panning.bits_inj]
  obtain ⟨request, hlatest⟩ := Option.isSome_iff_exists.mp (hasked.asks hplaying)
  -- the latest request is the setting of the channel, or comes from its program
  cases request with
  | own q =>
      obtain rfl : setting = q := hasked.settled q hlatest
      refine .inl ⟨hlatest, ?_⟩
      rw [hbits]
      cases standing history with
      | none => simp
      | some q' => simp
  | program q =>
      refine .inr ⟨q, hlatest, ?_⟩
      rw [hbits]
      obtain hnone | hsome := standing_of_latest hlatest
      · simp [hnone]
      · simp [hsome]

end Player

/-- On the second frame, the program has asked for the left output last, and the device has it. -/
theorem latest_request_panningModule :
    let p := Player.atPosition panningModule.song ⟨0, 0⟩
    let calls := [Call.step, Call.step]
    let left : Panning := { left := true, right := false }
    Player.start panningModule ⟨0, 0⟩ = .ok p ∧
      (p.after panningModule calls).isHalted = false ∧
      (p.after panningModule calls).isPlaying .ch1 = true ∧
      latest (p.outputHistory panningModule .ch1 calls) = some (.program left) ∧
      p.deviceSwitches panningModule calls &&& Channel.ch1.outputMask = left.bits .ch1 := by
  intro p calls left
  have hstart : Player.start panningModule ⟨0, 0⟩ = .ok p := rfl
  have hgoing : (p.after panningModule calls).isHalted = false := by decide +kernel
  have hplaying : (p.after panningModule calls).isPlaying .ch1 = true := by decide +kernel
  have hlatest : latest (p.outputHistory panningModule .ch1 calls) = some (.program left) := by
    decide +kernel
  have hstanding : standing (p.outputHistory panningModule .ch1 calls) = some left := by
    decide +kernel
  refine ⟨hstart, hgoing, hplaying, hlatest, ?_⟩
  obtain ⟨hown, -⟩ | ⟨q, hprogram, hframe⟩ :=
    Player.latest_request_iff hstart calls .ch1 hgoing hplaying
  · -- the last request is not one of the settings
    rw [hlatest] at hown
    cases hown
  · rw [hlatest] at hprogram
    cases hprogram
    exact hframe.mpr (.inl hstanding)

/-- On the third frame, the note that starts again is not heard as its settings say, and on the
fifth one, the note on the other channel undoes the panning that the program has asked for. -/
theorem overridden_panningModule :
    let p := Player.atPosition panningModule.song ⟨0, 0⟩
    let both : Panning := { left := true, right := true }
    let left : Panning := { left := true, right := false }
    let bits (frames : Nat) :=
      p.deviceSwitches panningModule (List.replicate frames .step) &&& Channel.ch1.outputMask
    let request (frames : Nat) :=
      latest (p.outputHistory panningModule .ch1 (List.replicate frames .step))
    let plays (frames : Nat) :=
      (p.after panningModule (List.replicate frames .step)).isHalted = false ∧
        (p.after panningModule (List.replicate frames .step)).isPlaying .ch1 = true
    Player.start panningModule ⟨0, 0⟩ = .ok p ∧
      (plays 3 ∧ request 3 = some (.own both) ∧ bits 3 = left.bits .ch1) ∧
      (plays 5 ∧ request 5 = some (.program left) ∧ bits 5 = both.bits .ch1) := by
  intro p both left bits request plays
  refine ⟨rfl, ⟨⟨?_, ?_⟩, ?_, ?_⟩, ⟨?_, ?_⟩, ?_, ?_⟩ <;> decide +kernel

end Chiptune
