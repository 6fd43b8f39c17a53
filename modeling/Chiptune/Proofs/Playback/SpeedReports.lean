import Mathlib.Data.List.Induction
import Mathlib.Data.List.Infix
import Chiptune.Proofs.Playback.Timing

/-! # Reported speeds

A frame that plays reports the speed in effect at its end.  A line that stops playback ends its
frame before that: where one of its effects has changed the speed, the report keeps the former one,
and so does every later report.

* `speed_begun` is the speed behind a row, `reportedSpeed_step` what a frame says of it.
* `Player.StopsOffSpeed` are the players whose next frame leaves the report behind.
* `speed_is_reported_iff` says when the report is right, for whole runs. -/

namespace Chiptune
namespace Player

variable {m : Module} {p p₀ : Player}

/-! ## Single calls -/

/-- Only frames that play change the speed in effect or the one that is reported. -/
theorem speeds_serve (call : Call) (h : call = .step → p.isHalted = true) :
    (p.serve m call).1.report.speed = p.report.speed ∧ (p.serve m call).1.speed = p.speed := by
  cases call with
  | step =>
      rw [serve, step_of_halted m (h rfl)]
      exact ⟨rfl, rfl⟩
  | setRepeat repeats => exact ⟨rfl, rfl⟩
  | jump order =>
      refine ⟨rfl, ?_⟩
      show (p.transport.jump m.song.extent order).clock.period = p.transport.clock.period
      unfold Transport.jump
      split <;> rfl
  | halt => exact ⟨rfl, rfl⟩

/-- Whatever is called of a player that has stopped, its speeds stay. -/
theorem speeds_after_of_halted (h : p.isHalted = true) (calls : List Call) :
    (p.after m calls).report.speed = p.report.speed ∧ (p.after m calls).speed = p.speed := by
  induction calls generalizing p with
  | nil => exact ⟨rfl, rfl⟩
  | cons call calls ih =>
      obtain ⟨hreport, hspeed⟩ := speeds_serve (m := m) call fun _ => h
      obtain ⟨hreport', hspeed'⟩ := ih (isHalted_serve m call h)
      exact ⟨hreport'.trans hreport, hspeed'.trans hspeed⟩

/-- The row of a frame sets the speed that its line asks for last. -/
theorem speed_begun (p : Player) (m : Module) :
    (p.begun m).speed =
      if p.transport.clock.isFirst then (lastSpeed? (p.nextLine m).effects).getD p.speed
      else p.speed := by
  rw [speed, transport_begun]
  split
  · rw [Transport.foldl_obey, Transport.clock_enterRow]
    rfl
  · rfl

/-- The row of a frame reports no speed. -/
theorem reportedSpeed_begun (p : Player) (m : Module) :
    (p.begun m).report.speed = p.report.speed := by
  cases hf : p.transport.clock.isFirst with
  | true => rw [report_begun_of_first m hf]; rfl
  | false => rw [begun_of_not_first m hf]; rfl

/-- **What a frame reports**: the speed in effect, unless its row stops playback. -/
theorem reportedSpeed_step (h : p.isHalted = false) :
    (p.step m).1.report.speed =
      if (p.begun m).isHalted then p.report.speed else (p.step m).1.speed := by
  cases hb : (p.begun m).isHalted with
  | true => rw [step_of_halting h hb, if_pos rfl, reportedSpeed_begun]
  | false => rw [step_of_going h hb, if_neg Bool.false_ne_true]; rfl

/-- While playback goes on, the report is right. -/
theorem Reachable.reportedSpeed_eq (h : Reachable m p) (hh : p.isHalted = false) :
    p.report.speed = p.speed := by
  induction h with
  | start hp =>
      obtain ⟨-, rfl⟩ := start_eq_ok.mp hp
      rfl
  | @serve p call hreach ih =>
      have hp : p.isHalted = false := by
        refine Bool.eq_false_iff.mpr fun hp => ?_
        rw [isHalted_serve m call hp] at hh
        exact Bool.false_ne_true hh.symm
      by_cases hcall : call = .step
      · subst hcall
        obtain ⟨-, hb⟩ := isHalted_step_eq_false.mp hh
        rw [Player.serve, reportedSpeed_step hp, hb, if_neg Bool.false_ne_true]
      · obtain ⟨hreport, hspeed⟩ := speeds_serve (m := m) (p := p) call fun h => absurd h hcall
        rw [hreport, hspeed, ih hp]

/-! ## Runs -/

/-- The next frame starts a row that stops playback, behind an effect that changes the speed. -/
structure StopsOffSpeed (p : Player) (m : Module) : Prop where
  /-- Playback has not stopped before. -/
  goes : p.isHalted = false
  /-- A row starts. -/
  first : p.transport.clock.isFirst = true
  /-- Its line stops playback. -/
  halts : (p.nextLine m).halts = true
  /-- What is obeyed of the line changes the speed. -/
  changes : (lastSpeed? (p.nextLine m).effects).getD p.speed ≠ p.speed

/-- Such a frame is one whose row stops playback and has changed the speed. -/
theorem stopsOffSpeed_iff (h : p.isHalted = false) :
    p.StopsOffSpeed m ↔ (p.begun m).isHalted = true ∧ (p.begun m).speed ≠ p.speed := by
  rw [isHalted_begun m h, speed_begun, Bool.and_eq_true]
  constructor
  · intro hstops
    rw [if_pos hstops.first]
    exact ⟨⟨hstops.first, hstops.halts⟩, hstops.changes⟩
  · rintro ⟨⟨hfirst, hhalts⟩, hchanges⟩
    rw [if_pos hfirst] at hchanges
    exact ⟨h, hfirst, hhalts, hchanges⟩

/-- A report that is right stays so with every call but a frame that leaves it behind. -/
theorem reportedSpeed_serve_iff (h : Reachable m p) (call : Call) :
    (p.serve m call).1.report.speed = (p.serve m call).1.speed ↔
      p.report.speed = p.speed ∧ ¬(call = .step ∧ p.StopsOffSpeed m) := by
  by_cases hplays : call = .step ∧ p.isHalted = false
  · obtain ⟨rfl, hp⟩ := hplays
    rw [serve, reportedSpeed_step hp, speed_step hp, stopsOffSpeed_iff hp, h.reportedSpeed_eq hp]
    split
    · next hb => simp [hb, eq_comm]
    · next hb => simp [hb]
  · obtain ⟨hreport, hspeed⟩ := speeds_serve (m := m) (p := p) call fun hcall =>
      Bool.not_eq_false _ ▸ fun hp => hplays ⟨hcall, hp⟩
    rw [hreport, hspeed]
    exact (and_iff_left fun hstops => hplays ⟨hstops.1, hstops.2.goes⟩).symm

/-- A report that is right stays so with any calls unless a step among them leaves it behind. -/
theorem reportedSpeed_after_iff (h : Reachable m p) (hright : p.report.speed = p.speed)
    (calls : List Call) :
    (p.after m calls).report.speed = (p.after m calls).speed ↔
      ¬∃ before, before ++ [.step] <+: calls ∧ (p.after m before).StopsOffSpeed m := by
  induction calls using List.reverseRecOn with
  | nil =>
      refine iff_of_true hright ?_
      rintro ⟨before, hbefore, -⟩
      exact List.append_ne_nil_of_right_ne_nil before (List.cons_ne_nil _ _)
        (List.prefix_nil.mp hbefore)
  | append_singleton calls call ih =>
      rw [after_concat, reportedSpeed_serve_iff (h.after calls) call, ih]
      -- the step is the last call, or it stands before that
      simp only [List.prefix_concat_iff, List.append_singleton_inj]
      constructor
      · rintro ⟨hnone, hcall⟩ ⟨before, ⟨rfl, rfl⟩ | hbefore, hstops⟩
        · exact hcall ⟨rfl, hstops⟩
        · exact hnone ⟨before, hbefore, hstops⟩
      · intro hnone
        refine ⟨?_, ?_⟩
        · rintro ⟨before, hbefore, hstops⟩
          exact hnone ⟨before, .inr hbefore, hstops⟩
        · rintro ⟨rfl, hstops⟩
          exact hnone ⟨calls, .inl ⟨rfl, rfl⟩, hstops⟩

/-- Behind a step that leaves the report behind, it keeps the speed from before the row, whatever is
called; the one that the row has set last is in effect. -/
theorem speeds_behind_stop (h : Reachable m p) (hstops : p.StopsOffSpeed m) (calls : List Call) :
    ((p.step m).1.after m calls).report.speed = p.speed ∧
      lastSpeed? (p.nextLine m).effects = some ((p.step m).1.after m calls).speed := by
  have hp := hstops.goes
  obtain ⟨hb, hne⟩ := (stopsOffSpeed_iff hp).mp hstops
  have hhalted : (p.step m).1.isHalted = true := by rw [isHalted_step, hb, Bool.or_true]
  obtain ⟨hreport, hspeed⟩ := speeds_after_of_halted (m := m) hhalted calls
  rw [hreport, hspeed, reportedSpeed_step hp, if_pos hb, speed_step hp]
  refine ⟨h.reportedSpeed_eq hp, ?_⟩
  -- without a speed in the row, none would have changed
  rw [speed_begun, if_pos hstops.first] at hne ⊢
  cases hlast : lastSpeed? (p.nextLine m).effects with
  | none => rw [hlast] at hne; exact absurd rfl hne
  | some speed => rfl

/-- **When the reported speed is the one in effect**: behind any calls, exactly if no step among
them has started a row that stops playback behind an effect that changes the speed.  Behind such a
step, the report keeps the speed from before the row, while the one that the row has set last is in
effect. -/
theorem speed_is_reported_iff {position : Position} (h : Player.start m position = .ok p₀)
    (calls : List Call) :
    let p := p₀.after m calls
    (p.report.speed = p.speed ↔
        ¬∃ before, before ++ [.step] <+: calls ∧ (p₀.after m before).StopsOffSpeed m) ∧
      ∀ before, before ++ [.step] <+: calls → (p₀.after m before).StopsOffSpeed m →
        p.report.speed = (p₀.after m before).speed ∧
          lastSpeed? ((p₀.after m before).nextLine m).effects = some p.speed := by
  intro p
  have hstart : Reachable m p₀ := .start h
  -- at the start the report has the speed of the song
  have hright : p₀.report.speed = p₀.speed := by
    obtain ⟨-, rfl⟩ := start_eq_ok.mp h
    rfl
  refine ⟨reportedSpeed_after_iff hstart hright calls, ?_⟩
  rintro before ⟨later, rfl⟩ hstops
  subst p
  rw [after_append, after_concat]
  exact speeds_behind_stop (hstart.after before) hstops later

end Player

/-- A module whose first line sets a speed before it stops playback. -/
def stoppingModule : Module :=
  .ofSong ((Song.new "").setRow .ch1 0 0
    ((Row.empty.withEffect ⟨.pattern .setTempo, 0x20⟩).withEffect ⟨.pattern .halt, 0⟩))

/-- The report keeps the former speed, also with later calls. -/
theorem speed_is_reported_stoppingModule :
    let p := Player.atPosition stoppingModule.song ⟨0, 0⟩
    let calls : List Call := [.setRepeat true, .step, .jump 0]
    let q := p.after stoppingModule calls
    Player.start stoppingModule ⟨0, 0⟩ = .ok p ∧ q.report.speed = Speed.standard ∧
      q.speed = { raw := 0x20 } := by
  intro p calls q
  have hstart : Player.start stoppingModule ⟨0, 0⟩ = .ok p := rfl
  obtain ⟨-, hstopped⟩ := Player.speed_is_reported_iff hstart calls
  have hstops : (p.after stoppingModule [.setRepeat true]).StopsOffSpeed stoppingModule :=
    { goes := rfl
      first := rfl
      halts := by decide +kernel
      changes := by decide +kernel }
  obtain ⟨hreport, hspeed⟩ := hstopped [.setRepeat true] ⟨[.jump 0], rfl⟩ hstops
  refine ⟨hstart, hreport.trans (by decide +kernel), ?_⟩
  exact Option.some.inj (hspeed.symm.trans (by decide +kernel))

/-- So the speed that is reported need not be the one in effect. -/
theorem misreported_stoppingModule :
    let p := Player.atPosition stoppingModule.song ⟨0, 0⟩
    let q := p.after stoppingModule [.step]
    Player.start stoppingModule ⟨0, 0⟩ = .ok p ∧ q.report.speed ≠ q.speed := by
  decide +kernel

end Chiptune
