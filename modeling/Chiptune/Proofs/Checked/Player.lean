import Chiptune.Module.Demo
import Chiptune.Proofs.Checked.Transport
import Chiptune.Proofs.Checked.Voice
import Chiptune.Proofs.Playback.Voices

/-! # Checked playback

A player has the ranges of its transport and of its voices, and reports a place in the song.  All
calls keep these ranges, so that none of them ends in a fault, in whatever order they come.

* `Player.Within` says that a player stays inside the song, and `Player.InRange` adds the ranges.
* `InRange.step` and `InRange.serve` say that a frame, and every call, keeps them.
* `checkedStep_eq` says that a frame has no fault.
* `playback_never_faults` says so of all calls, and that the player stays inside the song. -/

namespace Chiptune

open Checked

/-! ## Channels -/

/-- The family of the results of a computation, channel by channel. -/
def PerChannel.checkedOfFn {α : Type} (f : Channel → Checked α) : Checked (PerChannel α) := do
  let ch1 ← f .ch1
  let ch2 ← f .ch2
  let ch3 ← f .ch3
  let ch4 ← f .ch4
  return { ch1, ch2, ch3, ch4 }

/-- Four computations without a fault have none together. -/
theorem PerChannel.checkedOfFn_eq {α : Type} {f : Channel → Checked α} {g : Channel → α}
    (h : ∀ c, f c = .ok (g c)) : checkedOfFn f = .ok (ofFn g) := by
  rw [checkedOfFn, h, ok_bind, h, ok_bind, h, ok_bind, h]
  rfl

/-- The bits that hear a channel on some outputs, shifted to the place of the channel. -/
def Panning.checkedBits (p : Panning) (c : Channel) : Checked UInt8 :=
  shiftLeft ((if p.left then 0x10 else 0) ||| (if p.right then 0x01 else 0)) c.index

/-- The bit of each channel is shifted within a byte. -/
theorem Panning.checkedBits_eq (p : Panning) (c : Channel) : p.checkedBits c = .ok (p.bits c) := by
  rcases p with ⟨_ | _, _ | _⟩ <;> cases c <;> rfl

namespace Player

variable {m : Module} {p : Player}

/-! ## Ranges -/

/-- A player stays inside the song if its position, the place that a waiting move leads to and the
place that it reports do. -/
structure Within (m : Module) (p : Player) : Prop where
  transport : p.transport.Within m.song.extent
  order : p.report.order.toNat < m.song.extent.orders
  row : p.report.row < m.song.extent.rows

/-- The range of a player: it stays inside the song, and its parts are in range. -/
structure InRange (m : Module) (p : Player) : Prop where
  transport : p.transport.InRange m.song.extent
  voice : ∀ c, (p.voices.get c).InRange
  order : p.report.order.toNat < m.song.extent.orders
  row : p.report.row < m.song.extent.rows

/-- A player in its range stays inside the song. -/
theorem InRange.within (h : p.InRange m) : p.Within m where
  transport := h.transport.within
  order := h.order
  row := h.row

/-- A byte holds every order of a song. -/
theorem toNat_ofNat_order {size : Extent} {position : Position} (h : position.Inside size) :
    (UInt8.ofNat position.order).toNat = position.order :=
  UInt8.toNat_ofNat_of_lt' (Nat.lt_of_lt_of_le h.1 size.orders_le)

/-- A start that is accepted is inside the song, and all counts are at zero. -/
theorem inRange_start {position : Position} (h : Player.start m position = .ok p) :
    p.InRange m := by
  obtain ⟨hinside, rfl⟩ := start_eq_ok.mp h
  exact
    { transport :=
        { within := { position := hinside, move := nofun }
          clock := (by decide : 0 < Speed.slowest.raw) }
      voice := by
        intro c
        rw [atPosition, PerChannel.get_ofFn]
        exact Voice.inRange_new c
      order := (toNat_ofNat_order hinside).symm ▸ hinside.1
      row := hinside.2 }

/-- The row of a frame leaves a player in its range. -/
theorem InRange.begun (h : p.InRange m) : (p.begun m).InRange m := by
  cases hfirst : p.transport.clock.isFirst with
  | false =>
      rw [begun_of_not_first m hfirst]
      exact { h with }
  | true =>
      -- the row is entered before its line is obeyed
      have hentered := h.transport.enterRow
      have hmoved : ({ p.transport.enterRow m.song.extent with entersPattern := false } :
          Transport).InRange m.song.extent :=
        { within := { position := hentered.within.position, move := hentered.within.move }
          clock := hentered.clock }
      have hreport := report_begun_of_first m hfirst
      refine { transport := ?_, voice := ?_, order := ?_, row := ?_ }
      · rw [transport_begun, hfirst, if_pos rfl]
        exact hmoved.obeyAll _
      · intro c
        rw [voice_begun]
        split
        · exact (h.voice c).readRow _ _ _
        · exact h.voice c
      · rw [hreport]
        exact (toNat_ofNat_order hentered.within.position).symm ▸ hentered.within.position.1
      · rw [hreport]
        exact hentered.within.position.2

/-- **A frame keeps a player in its range.** -/
theorem InRange.step (h : p.InRange m) : (p.step m).1.InRange m := by
  cases hp : p.isHalted with
  | true =>
      rw [step_of_halted m hp]
      exact { h with }
  | false =>
      have hbegun := h.begun
      cases hb : (p.begun m).isHalted with
      | true =>
          rw [step_of_halting hp hb]
          exact hbegun
      | false =>
          -- the report of the frame is that of its row, but for speed and time
          obtain ⟨speed, time, hreport⟩ := report_step m hp
          refine { transport := ?_, voice := ?_, order := ?_, row := ?_ }
          · rw [transport_step m hp, hb, if_neg Bool.false_ne_true]
            exact hbegun.transport.step
          · intro c
            rw [voice_step hp hb]
            exact (hbegun.voice c).update m c
          · rw [hreport]
            exact hbegun.order
          · rw [hreport]
            exact hbegun.row

/-- Every call keeps a player in its range. -/
theorem InRange.serve (h : p.InRange m) (call : Call) : (p.serve m call).1.InRange m := by
  cases call with
  | step => exact h.step
  | setRepeat repeats =>
      exact
        { h with
          transport :=
            { within :=
                { position := h.transport.within.position, move := h.transport.within.move }
              clock := h.transport.clock } }
  | jump order => exact { h with transport := h.transport.jump order }
  | halt => exact { h with }

/-- Some calls keep a player in its range. -/
theorem InRange.after (h : p.InRange m) (calls : List Call) : (p.after m calls).InRange m := by
  induction calls generalizing p with
  | nil => exact h
  | cons call calls ih => exact ih (h.serve call)

/-! ## Checked frames -/

/-- What the voices make of a frame, each by itself. -/
def checkedEachVoice (voices : PerChannel Voice)
    (f : Channel → Voice → Checked (Voice × List DeviceWrite)) :
    Checked (PerChannel Voice × List DeviceWrite) := do
  let results ← PerChannel.checkedOfFn fun c => f c (voices.get c)
  return (results.map Prod.fst, results.toList.flatMap Prod.snd)

/-- Voices that are computed without a fault have none together. -/
theorem checkedEachVoice_eq {voices : PerChannel Voice}
    {f : Channel → Voice → Checked (Voice × List DeviceWrite)}
    (g : Channel → Voice → Voice × List DeviceWrite)
    (h : ∀ c, f c (voices.get c) = .ok (g c (voices.get c))) :
    checkedEachVoice voices f = .ok (eachVoice voices g) := by
  rw [checkedEachVoice, PerChannel.checkedOfFn_eq h]
  rfl

/-- The output switches that the voices ask for. -/
def checkedOutputMask (voices : PerChannel Voice) : Checked UInt8 :=
  Channel.all.foldlM (fun mask c => do
    let bits ← (voices.get c).output.checkedBits c
    return mask ||| bits) 0

/-- The output switches are gathered without a fault, since shifting the bits of a channel has none.
-/
theorem checkedOutputMask_eq (voices : PerChannel Voice) :
    checkedOutputMask voices = .ok (outputMask voices) := by
  have hstep : (fun (mask : UInt8) c => do
      let bits ← (voices.get c).output.checkedBits c
      return mask ||| bits) =
      fun mask c => (pure (mask ||| (voices.get c).output.bits c) : Checked UInt8) := by
    funext mask c
    rw [Panning.checkedBits_eq]
    rfl
  rw [checkedOutputMask, hstep, List.foldlM_pure]
  rfl

/-- Enter a row: a move that waits is made, and the report names the new position. -/
def checkedEnterRow (p : Player) (m : Module) : Checked Player := do
  let t ← p.transport.checkedEnterRow m.song.extent
  return { p with
    transport := { t with entersPattern := false }
    report := p.report.enterRow t.position t.entersPattern }

/-- Read a line: every voice reads its row, and the transport obeys the effects of all of them. -/
def checkedReadLine (p : Player) (m : Module) (line : Line) :
    Checked (Player × List DeviceWrite) := do
  let (voices, ws) ← checkedEachVoice p.voices fun c v =>
    if line.reads c then v.checkedReadRow m.waveforms c (line.get c) else .ok (v, [])
  let transport := line.effects.foldl (fun t e => t.obey m.song.extent e) p.transport
  let p := { p with transport, voices }
  return (if line.halts then p.halt else p, ws)

/-- A line is read without a fault, whichever of the voices read their rows. -/
theorem checkedReadLine_eq (p : Player) (m : Module) (line : Line) :
    p.checkedReadLine m line = .ok (p.readLine m line) := by
  have hvoices : checkedEachVoice p.voices (fun c v =>
      if line.reads c then v.checkedReadRow m.waveforms c (line.get c) else .ok (v, [])) =
      .ok (eachVoice p.voices fun c v =>
        if line.reads c then v.readRow m.waveforms c (line.get c) else (v, [])) := by
    refine checkedEachVoice_eq _ ?_
    intro c
    split
    · exact Voice.checkedReadRow_eq _ _ _ _
    · rfl
  rw [checkedReadLine, hvoices]
  rfl

/-- Begin a row if it is time for one. -/
def checkedBeginRow (p : Player) (m : Module) : Checked (Player × List DeviceWrite) :=
  if p.transport.clock.isFirst then do
    let p ← p.checkedEnterRow m
    p.checkedReadLine m (m.song.line p.transport.position)
  else .ok (p, [])

/-- A row begins without a fault in a player inside the song. -/
theorem checkedBeginRow_eq (h : p.transport.Within m.song.extent) :
    p.checkedBeginRow m = .ok (p.beginRow m) := by
  rw [checkedBeginRow, beginRow]
  split
  · rw [checkedEnterRow, Transport.checkedEnterRow_eq h, ok_bind]
    exact checkedReadLine_eq _ _ _
  · rfl

/-- Update all voices, and write the output switches if they have changed. -/
def checkedUpdateVoices (p : Player) (m : Module) : Checked (Player × List DeviceWrite) := do
  let (voices, ws) ← checkedEachVoice p.voices fun c v => v.checkedUpdate m c
  let mask ← checkedOutputMask voices
  return ({ p with voices, outputsWritten := mask },
    ws ++ if mask = p.outputsWritten then [] else [.outputEnable mask])

/-- Voices in their ranges are updated without a fault. -/
theorem checkedUpdateVoices_eq (h : ∀ c, (p.voices.get c).InRange) :
    p.checkedUpdateVoices m = .ok (p.updateVoices m) := by
  have hvoices : checkedEachVoice p.voices (fun c v => v.checkedUpdate m c) =
      .ok (eachVoice p.voices fun c v => v.update m c) :=
    checkedEachVoice_eq _ fun c => Voice.checkedUpdate_eq (h c) m c
  rw [checkedUpdateVoices, hvoices, ok_bind]
  dsimp only
  rw [checkedOutputMask_eq]
  rfl

/-- End a frame: its time passes. -/
def checkedEndFrame (p : Player) (m : Module) : Checked Player := do
  let transport ← p.transport.checkedStep m.song.extent
  let report := { p.report with speed := transport.clock.period, time := p.report.time + 1 }
  return { p with transport, report }

/-- A frame ends without a fault if the transport is in range. -/
theorem checkedEndFrame_eq (h : p.transport.InRange m.song.extent) :
    p.checkedEndFrame m = .ok (p.endFrame m) := by
  rw [checkedEndFrame, Transport.checkedStep_eq h]
  rfl

/-- Play one frame of the song. -/
def checkedStep (p : Player) (m : Module) : Checked (Player × List DeviceWrite) := do
  let p := p.beginFrame
  if p.isHalted then return (p, [])
  else
    let (p, rowWrites) ← p.checkedBeginRow m
    if p.isHalted then return (p, rowWrites)
    else
      let (p, voiceWrites) ← p.checkedUpdateVoices m
      let p ← p.checkedEndFrame m
      return (p, rowWrites ++ voiceWrites)

/-- **A frame of a player in its range has no fault.** -/
theorem checkedStep_eq (h : p.InRange m) : p.checkedStep m = .ok (p.step m) := by
  have hbegun := h.begun
  rw [checkedStep, step]
  dsimp only
  split
  · rfl
  · have hbegin : p.beginFrame.checkedBeginRow m = .ok (p.beginFrame.beginRow m) :=
      checkedBeginRow_eq h.transport.within
    rw [hbegin, ok_bind]
    -- the frame goes on behind its row unless that halts
    show (if (p.begun m).isHalted then _ else _) = Except.ok (if (p.begun m).isHalted then _ else _)
    split
    · rfl
    · show ((p.begun m).checkedUpdateVoices m >>= _) = _
      rw [checkedUpdateVoices_eq hbegun.voice, ok_bind]
      have hend : (p.sounded m).checkedEndFrame m = .ok ((p.sounded m).endFrame m) :=
        checkedEndFrame_eq hbegun.transport
      show ((p.sounded m).checkedEndFrame m >>= _) = _
      rw [hend]
      rfl

/-! ## Checked runs -/

/-- Serve a call. -/
def checkedServe (p : Player) (m : Module) : Call → Checked (Player × List DeviceWrite)
  | .step => p.checkedStep m
  | call => .ok (p.serve m call)

/-- Every call is served without a fault; only a frame computes anything that could have one. -/
theorem checkedServe_eq (h : p.InRange m) (call : Call) :
    p.checkedServe m call = .ok (p.serve m call) := by
  cases call with
  | step => exact checkedStep_eq h
  | _ => rfl

/-- The player behind some calls, unless one of them ends in a fault. -/
def checkedAfter (p : Player) (m : Module) (calls : List Call) : Checked Player :=
  calls.foldlM (fun p call => Prod.fst <$> p.checkedServe m call) p

/-- Any calls are served without a fault, one after the other. -/
theorem checkedAfter_eq (h : p.InRange m) (calls : List Call) :
    p.checkedAfter m calls = .ok (p.after m calls) := by
  -- each call is served in range, and leaves the player in range for the next
  induction calls generalizing p with
  | nil => rfl
  | cons call calls ih =>
      rw [checkedAfter, List.foldlM_cons, checkedServe_eq h, map_ok, ok_bind]
      exact ih (h.serve call)

end Player

/-- **Playback never faults and stays inside the song.**  From every start that is accepted, any
calls in any order are served without a fault; behind them the position, the place that a waiting
move leads to and the place that is reported lie in the song. -/
theorem playback_never_faults {m : Module} {position : Position} {p : Player}
    (h : Player.start m position = .ok p) (calls : List Call) :
    p.checkedAfter m calls = .ok (p.after m calls) ∧ (p.after m calls).Within m := by
  have hrange := Player.inRange_start h
  exact ⟨Player.checkedAfter_eq hrange calls, (hrange.after calls).within⟩

/-- The demonstration module plays from its third pattern on, through jumps into the song and out of
it, without a fault. -/
theorem playback_demo :
    let p := Player.atPosition Module.demo.song ⟨2, 60⟩
    let calls := [Call.step, .jump 1, .step, .setRepeat true, .jump 200, .step, .halt, .step]
    Player.start Module.demo ⟨2, 60⟩ = .ok p ∧
      p.checkedAfter Module.demo calls = .ok (p.after Module.demo calls) ∧
      (p.after Module.demo calls).Within Module.demo := by
  intro p calls
  have hstart : Player.start Module.demo ⟨2, 60⟩ = .ok p := rfl
  exact ⟨hstart, playback_never_faults hstart calls⟩

end Chiptune
