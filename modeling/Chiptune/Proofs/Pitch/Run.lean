import Mathlib.Logic.Function.Iterate
import Chiptune.Proofs.Checked.Pitch

/-! # Runs of a pitch

A caller stages changes to a pitch, lets them take hold, steps it and resets it, in any order.  This
file makes the calls data and follows a pitch through a list of them.

* `Pitch.serve` answers one call, `Pitch.after` is the pitch behind a list of calls, and `Reachable`
  holds of the pitches that a caller can get hold of.
* `Pitch.changes?` are the changes that a call lets take hold, as `exists_serve_eq` says.  Calls that
  are `isQuiet` let none take hold: of a run of them, `bare_after_of_quiet` and `bare_after_eq_run`
  keep nothing but its steps. -/

namespace Chiptune

/-- What a caller asks of a pitch. -/
inductive PitchCall where
  /-- Stage some changes, as each setter does with the one that it sets. -/
  | stage (changes : PitchParams)
  /-- Stage what an effect asks for. -/
  | stageEffect (effect : Effect)
  /-- Let the staged changes take hold. -/
  | apply
  /-- Let some changes take hold that were not staged. -/
  | commit (changes : PitchParams)
  /-- Advance by one frame. -/
  | step
  /-- Return to the start. -/
  | reset
  deriving DecidableEq, Repr

/-- Whether a call leaves everything to the frames: it stages changes or steps. -/
def PitchCall.isQuiet : PitchCall → Bool
  | stage _ | stageEffect _ | step => true
  | apply | commit _ | reset => false

namespace Pitch

variable {kind : PitchKind} {p : Pitch kind}

/-- Serve a call. -/
def serve (p : Pitch kind) : PitchCall → Pitch kind
  | .stage changes => p.stage changes
  | .stageEffect effect => p.stageEffect effect
  | .apply => p.apply
  | .commit changes => p.commit changes
  | .step => p.step
  | .reset => new

/-- The pitch behind some calls. -/
def after (p : Pitch kind) (calls : List PitchCall) : Pitch kind :=
  calls.foldl serve p

/-- Without calls, a pitch stays as it is. -/
@[simp] theorem after_nil (p : Pitch kind) : p.after [] = p := rfl

/-- The first call is served first. -/
@[simp] theorem after_cons (p : Pitch kind) (call : PitchCall) (calls : List PitchCall) :
    p.after (call :: calls) = (p.serve call).after calls := rfl

/-- Calls are served one list after the other. -/
theorem after_append (p : Pitch kind) (calls calls' : List PitchCall) :
    p.after (calls ++ calls') = (p.after calls).after calls' :=
  List.foldl_append

/-- The pitches that some calls lead to from the start. -/
def Reachable (p : Pitch kind) : Prop :=
  ∃ calls, p = (new : Pitch kind).after calls

/-- Calls to a pitch that was reached lead to another one. -/
theorem Reachable.after (h : p.Reachable) (calls : List PitchCall) : (p.after calls).Reachable := by
  obtain ⟨calls', rfl⟩ := h
  exact ⟨calls' ++ calls, (after_append _ _ _).symm⟩

/-- A call to a pitch that was reached leads to another one. -/
theorem Reachable.serve (h : p.Reachable) (call : PitchCall) : (p.serve call).Reachable :=
  h.after [call]

/-! ## Changes that take hold -/

/-- The changes that a call lets take hold. -/
def changes? (p : Pitch kind) : PitchCall → Option PitchParams
  | .apply => some p.staged
  | .commit changes => some changes
  | _ => none

/-- A call that lets some changes take hold does so whatever waits. -/
theorem exists_serve_eq {call : PitchCall} {changes : PitchParams}
    (h : p.changes? call = some changes) :
    ∃ staged, p.serve call = commit { p with staged } changes := by
  cases call with
  | apply =>
      obtain rfl := Option.some.inj h
      exact ⟨{}, rfl⟩
  | commit changes' =>
      obtain rfl := Option.some.inj h
      exact ⟨p.staged, rfl⟩
  | stage | stageEffect | step | reset => cases h

/-- A pitch without the changes that wait. -/
def bare (p : Pitch kind) : Pitch kind :=
  { p with staged := {} }

/-- Staging changes nothing but what waits. -/
theorem bare_stage (p : Pitch kind) (changes : PitchParams) : (p.stage changes).bare = p.bare := rfl

/-- An effect changes nothing but what waits. -/
theorem bare_stageEffect (p : Pitch kind) (effect : Effect) :
    (p.stageEffect effect).bare = p.bare := by
  unfold stageEffect
  split <;> rfl

/-- A frame does not look at what waits. -/
theorem bare_step (p : Pitch kind) : p.step.bare = p.bare.step := by
  have hpitch (p : Pitch kind) : p.stepPitchSequence.bare = p.bare.stepPitchSequence := by
    unfold stepPitchSequence
    dsimp only [bare]
    split <;> rfl
  have hmode (p : Pitch kind) : p.stepMode.bare = p.bare.stepMode := by
    unfold stepMode
    dsimp only [bare]
    split <;> rfl
  have htone (p : Pitch kind) : p.stepTone.bare = p.bare.stepTone := by
    unfold stepTone
    dsimp only [bare]
    split
    · rfl
    · exact hmode _
  rw [step_eq, step_eq, htone, hpitch]
  rfl

/-- Behind quiet calls, a pitch is where its frames have led it. -/
theorem bare_after_of_quiet {calls : List PitchCall} (h : ∀ call ∈ calls, call.isQuiet = true)
    (p : Pitch kind) : (p.after calls).bare = step^[calls.count .step] p.bare := by
  induction calls generalizing p with
  | nil => rfl
  | cons call calls ih =>
      have ih := ih (fun call' hcall' => h call' (List.mem_cons_of_mem _ hcall')) (p.serve call)
      rw [after_cons, ih]
      cases call with
      | stage changes => rw [List.count_cons_of_ne (by simp), serve, bare_stage]
      | stageEffect effect => rw [List.count_cons_of_ne (by simp), serve, bare_stageEffect]
      | step => rw [List.count_cons_self, Function.iterate_succ_apply, serve, bare_step]
      | apply | commit | reset => exact absurd (h _ (List.mem_cons_self ..)) Bool.false_ne_true

/-- Frames do not look at what waits. -/
theorem bare_run (p : Pitch kind) (n : Nat) : (step^[n] p).bare = step^[n] p.bare :=
  have hstep : Function.Semiconj (@bare kind) step step := bare_step
  hstep.iterate_right n p

/-- Behind quiet calls, a pitch is where as many frames alone would have led it. -/
theorem bare_after_eq_run {calls : List PitchCall} (h : ∀ call ∈ calls, call.isQuiet = true)
    (p : Pitch kind) : (p.after calls).bare = (step^[calls.count .step] p).bare := by
  rw [bare_after_of_quiet h, bare_run]

end Pitch
end Chiptune
