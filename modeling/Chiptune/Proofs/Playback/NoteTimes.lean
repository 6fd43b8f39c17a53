import Mathlib.Data.List.Infix
import Mathlib.Data.List.Induction
import Mathlib.Data.Prod.Basic
import Chiptune.Playback.NoteGate

/-! # The times of notes

A gate counts down the frames before its note and before its cut.  Seen from outside, each request
is an appointment: it names the step on which it is due, from then on until another request of its
kind or a reset takes its place.  This file says what a gate does in terms of the calls alone, whose
steps are numbered from zero.

* `GateCall.note?` and `GateCall.cut?` are the two kinds of requests, `Due` is the appointment that
  stands behind some calls, and `Fires` says on which steps one was kept.
* `countdown` is what a call does to either count, and `left_eq_some_iff` reads appointments off
  it.
* `isOpen_after_iff` is about notes that sound, and `keeps_appointments` puts all together. -/

namespace Chiptune

/-! ## Calls -/

/-- What a caller asks of a gate. -/
inductive GateCall where
  /-- Request a note by its index, some frames ahead. -/
  | note (note delay : Nat)
  /-- Request a cut some frames ahead. -/
  | cut (delay : Nat)
  /-- Drop all requests and fall silent. -/
  | reset
  /-- Advance by one frame. -/
  | step
  deriving DecidableEq, Repr

namespace GateCall

/-- The note that a call requests, and its delay. -/
def note? : GateCall → Option (Nat × Nat)
  | note n delay => if n < Note.cutIndex then some (n, delay) else none
  | _ => none

/-- The delay of the cut that a call requests; the index behind the last note requests one, too. -/
def cut? : GateCall → Option (Unit × Nat)
  | note n delay => if n = Note.cutIndex then some ((), delay) else none
  | cut delay => some ((), delay)
  | _ => none

end GateCall

namespace NoteGate

/-- Serve a call. -/
def serve (g : NoteGate) : GateCall → NoteGate
  | .note n delay => g.requestNote n delay
  | .cut delay => g.requestCut delay
  | .reset => new
  | .step => g.step.1

/-- The gate behind some calls. -/
def after (g : NoteGate) (calls : List GateCall) : NoteGate :=
  calls.foldl serve g

/-- Without calls, a gate stays as it is. -/
@[simp] theorem after_nil (g : NoteGate) : g.after [] = g := rfl

/-- The first call is served first. -/
@[simp] theorem after_cons (g : NoteGate) (call : GateCall) (calls : List GateCall) :
    g.after (call :: calls) = (g.serve call).after calls := rfl

/-- The gate behind some calls and one more. -/
theorem after_concat (g : NoteGate) (calls : List GateCall) (call : GateCall) :
    g.after (calls ++ [call]) = (g.after calls).serve call :=
  List.foldl_append

end NoteGate

/-! ## Appointments -/

section Appointments

variable {α : Type} {ask : GateCall → Option (α × Nat)} {calls : List GateCall} {call : GateCall}
  {a b : α} {t u delay : Nat}

/-- Behind some calls, a request is due on a step: it is the last one of its kind since the last
reset, and was made as many steps before as it asks for. -/
def Due (ask : GateCall → Option (α × Nat)) (calls : List GateCall) (a : α) (t : Nat) : Prop :=
  ∃ before call behind delay,
    calls = before ++ call :: behind ∧ ask call = some (a, delay) ∧
      before.count .step + delay = t ∧ ∀ c ∈ behind, ask c = none ∧ c ≠ .reset

/-- In some calls, a request is due on a step that is made. -/
def Fires (ask : GateCall → Option (α × Nat)) (calls : List GateCall) (a : α) (t : Nat) : Prop :=
  ∃ before, before ++ [.step] <+: calls ∧ before.count .step = t ∧ Due ask before a t

/-- Some calls reset the gate when a number of steps have been made. -/
def ResetsBefore (calls : List GateCall) (t : Nat) : Prop :=
  ∃ before, before ++ [.reset] <+: calls ∧ before.count .step = t

/-- Without calls, nothing was asked for. -/
theorem not_due_nil : ¬Due ask [] a t := by
  rintro ⟨before, call, behind, delay, hcalls, -⟩
  exact List.cons_ne_nil _ _ (List.append_eq_nil_iff.mp hcalls.symm).2

/-- One more call makes an appointment, or it leaves the one that stands. -/
theorem due_concat :
    Due ask (calls ++ [call]) a t ↔
      (∃ delay, ask call = some (a, delay) ∧ calls.count .step + delay = t) ∨
        (ask call = none ∧ call ≠ .reset) ∧ Due ask calls a t := by
  constructor
  · rintro ⟨before, c, behind, delay, hcalls, hask, hcount, hbehind⟩
    -- the call is the one that asks, or it stands behind that one
    rcases List.eq_nil_or_concat' behind with rfl | ⟨rest, last, rfl⟩
    · obtain ⟨rfl, rfl⟩ := List.append_singleton_inj.mp hcalls
      exact .inl ⟨delay, hask, hcount⟩
    · rw [← List.cons_append, ← List.append_assoc] at hcalls
      obtain ⟨rfl, rfl⟩ := List.append_singleton_inj.mp hcalls
      obtain ⟨hrest, hlast⟩ := List.forall_mem_append.mp hbehind
      have hcall := List.forall_mem_singleton.mp hlast
      exact .inr ⟨hcall, before, c, rest, delay, rfl, hask, hcount, hrest⟩
  · rintro (⟨delay, hask, hcount⟩ | ⟨hcall, before, c, rest, delay, rfl, hask, hcount, hrest⟩)
    · exact ⟨calls, call, [], delay, rfl, hask, hcount, List.forall_mem_nil _⟩
    · refine ⟨before, c, rest ++ [call], delay, ?_, hask, hcount, ?_⟩
      · rw [List.append_assoc, List.cons_append]
      · exact List.forall_mem_append.mpr ⟨hrest, List.forall_mem_singleton.mpr hcall⟩

/-- A request fires on the step that some calls end with, or on an earlier one. -/
theorem fires_concat_step :
    Fires ask (calls ++ [.step]) a t ↔
      Fires ask calls a t ∨ t = calls.count .step ∧ Due ask calls a t := by
  constructor
  · rintro ⟨before, hbefore, rfl, hdue⟩
    rcases List.prefix_concat_iff.mp hbefore with heq | hbefore
    · obtain ⟨rfl, -⟩ := List.append_singleton_inj.mp heq
      exact .inr ⟨rfl, hdue⟩
    · exact .inl ⟨before, hbefore, rfl, hdue⟩
  · rintro (⟨before, hbefore, hcount, hdue⟩ | ⟨rfl, hdue⟩)
    · exact ⟨before, hbefore.trans (List.prefix_append _ _), hcount, hdue⟩
    · exact ⟨calls, List.prefix_rfl, rfl, hdue⟩

/-- No request fires with a call other than a step. -/
theorem fires_concat_of_ne (h : call ≠ .step) :
    Fires ask (calls ++ [call]) a t ↔ Fires ask calls a t := by
  constructor
  · rintro ⟨before, hbefore, hcount, hdue⟩
    rcases List.prefix_concat_iff.mp hbefore with heq | hbefore
    · obtain ⟨-, hcall⟩ := List.append_singleton_inj.mp heq
      exact absurd hcall.symm h
    · exact ⟨before, hbefore, hcount, hdue⟩
  · rintro ⟨before, hbefore, hcount, hdue⟩
    exact ⟨before, hbefore.trans (List.prefix_append _ _), hcount, hdue⟩

/-- A step on which a request fires has been made. -/
theorem Fires.lt_count (h : Fires ask calls a t) : t < calls.count .step := by
  obtain ⟨before, hbefore, rfl, -⟩ := h
  have hle := hbefore.sublist.count_le .step
  rwa [List.count_append, List.count_singleton_self] at hle

/-- One more call resets the gate, or it leaves the resets as they are. -/
theorem resetsBefore_concat :
    ResetsBefore (calls ++ [call]) t ↔
      ResetsBefore calls t ∨ call = .reset ∧ calls.count .step = t := by
  constructor
  · rintro ⟨before, hbefore, hcount⟩
    rcases List.prefix_concat_iff.mp hbefore with heq | hbefore
    · obtain ⟨rfl, hcall⟩ := List.append_singleton_inj.mp heq
      exact .inr ⟨hcall.symm, hcount⟩
    · exact .inl ⟨before, hbefore, hcount⟩
  · rintro (⟨before, hbefore, hcount⟩ | ⟨rfl, hcount⟩)
    · exact ⟨before, hbefore.trans (List.prefix_append _ _), hcount⟩
    · exact ⟨calls, List.prefix_rfl, hcount⟩

/-- The steps that lie before a reset have been made. -/
theorem ResetsBefore.le_count (h : ResetsBefore calls t) : t ≤ calls.count .step := by
  obtain ⟨before, hbefore, rfl⟩ := h
  exact ((List.prefix_append before [.reset]).trans hbefore).sublist.count_le .step

/-! ## Countdowns -/

/-- What a call leaves of a request and the number of frames before it. -/
def countdown (ask : GateCall → Option (α × Nat)) (left : Option (α × Nat)) (call : GateCall) :
    Option (α × Nat) :=
  match call, left with
  | .step, some (a, n + 1) => some (a, n)
  | .step, _ => none
  | .reset, _ => none
  | call, left => (ask call).or left

/-- What some calls leave of a request. -/
def left (ask : GateCall → Option (α × Nat)) (calls : List GateCall) : Option (α × Nat) :=
  calls.foldl (countdown ask) none

/-- One more call counts down or replaces what is left. -/
theorem left_concat : left ask (calls ++ [call]) = countdown ask (left ask calls) call :=
  List.foldl_append

/-- A call that neither steps nor resets starts the countdown of what it asks for. -/
theorem countdown_of_request (hstep : call ≠ .step) (hreset : call ≠ .reset)
    (left : Option (α × Nat)) : countdown ask left call = (ask call).or left := by
  cases call with
  | step => exact absurd rfl hstep
  | reset => exact absurd rfl hreset
  | note n delay => rfl
  | cut delay => rfl

/-- **A countdown keeps its appointment**: what is left of it is the distance from the step that
comes next. -/
theorem left_eq_some_iff (hstep : ask .step = none) (hreset : ask .reset = none) {n : Nat} :
    left ask calls = some (a, n) ↔ Due ask calls a (calls.count .step + n) := by
  induction calls using List.reverseRecOn generalizing n with
  | nil => exact iff_of_false nofun not_due_nil
  | append_singleton calls call ih =>
      rw [left_concat, due_concat]
      by_cases hcall : call = .step
      · subst hcall
        -- the count goes down while the steps go up
        have hcount : (calls ++ [GateCall.step]).count .step + n = calls.count .step + (n + 1) := by
          rw [List.count_append, List.count_singleton_self]
          omega
        rw [hcount, ← ih, hstep]
        rcases left ask calls with _ | ⟨b, _ | k⟩ <;> simp [countdown]
      · have hcount : (calls ++ [call]).count .step = calls.count .step := by
          rw [List.count_append, List.count_singleton, if_neg (by simpa using hcall), Nat.add_zero]
        rw [hcount]
        by_cases hcall' : call = .reset
        · subst hcall'
          simp [countdown, hreset]
        · rw [countdown_of_request hcall hcall', ← ih]
          cases ask call with
          | none => simp [hcall']
          | some pair => simp [Prod.ext_iff]

end Appointments

/-! ## Gates -/

namespace NoteGate

variable {calls : List GateCall}

/-- A request as its note and its delay. -/
def asPair (r : NoteRequest) : Nat × Nat :=
  (r.note, r.delay)

/-- Requests with the same note and the same delay are the same. -/
theorem asPair_injective : Function.Injective asPair := by
  rintro ⟨note, delay⟩ ⟨note', delay'⟩ h
  obtain ⟨rfl, rfl⟩ := Prod.mk.inj h
  rfl

/-- The requested note of a gate counts down. -/
theorem request_serve (g : NoteGate) (call : GateCall) :
    (g.serve call).request.map asPair =
      countdown GateCall.note? (g.request.map asPair) call := by
  cases call with
  | note n delay =>
      simp only [serve, requestNote, requestCut, countdown, GateCall.note?]
      split
      · next hn => rw [if_neg (by omega)]; rfl
      · split <;> rfl
  | cut delay => rfl
  | reset => rfl
  | step =>
      show g.laterRequest.map _ = _
      unfold laterRequest
      rcases g.request with _ | ⟨n, _ | k⟩ <;> rfl

/-- The requested cut of a gate counts down. -/
theorem cutIn_serve (g : NoteGate) (call : GateCall) :
    (g.serve call).cutIn.map (Prod.mk ()) =
      countdown GateCall.cut? (g.cutIn.map (Prod.mk ())) call := by
  cases call with
  | note n delay =>
      simp only [serve, requestNote, countdown, GateCall.cut?]
      split
      · rfl
      · split <;> rfl
  | cut delay => rfl
  | reset => rfl
  | step =>
      show g.laterCut.map _ = _
      unfold laterCut
      rcases g.cutIn with _ | _ | k <;> rfl

/-! ### Appointments of a gate -/

/-- The note for which a gate waits is the one that is due, and it waits for as long. -/
theorem request_after (calls : List GateCall) (note n : Nat) :
    (new.after calls).request = some ⟨note, n⟩ ↔
      Due GateCall.note? calls note (calls.count .step + n) := by
  have hleft : (new.after calls).request.map asPair =
      left GateCall.note? calls := by
    induction calls using List.reverseRecOn with
    | nil => rfl
    | append_singleton calls call ih => rw [after_concat, left_concat, request_serve, ih]
  have hpair : some (note, n) = (some ⟨note, n⟩ : Option NoteRequest).map asPair := rfl
  rw [← left_eq_some_iff rfl rfl, ← hleft, hpair]
  exact (Option.map_injective asPair_injective).eq_iff.symm

/-- The cut for which a gate waits is due when it says. -/
theorem cutIn_after (calls : List GateCall) (n : Nat) :
    (new.after calls).cutIn = some n ↔ Due GateCall.cut? calls () (calls.count .step + n) := by
  have hleft : (new.after calls).cutIn.map (Prod.mk ()) = left GateCall.cut? calls := by
    induction calls using List.reverseRecOn with
    | nil => rfl
    | append_singleton calls call ih => rw [after_concat, left_concat, cutIn_serve, ih]
  have hpair : some ((), n) = (some n).map (Prod.mk ()) := rfl
  rw [← left_eq_some_iff rfl rfl, ← hleft, hpair]
  exact (Option.map_injective (Prod.mk_right_injective ())).eq_iff.symm

/-- A note is due to a gate on the next step exactly if its appointment is. -/
theorem due?_after (calls : List GateCall) (note : Nat) :
    (new.after calls).due? = some note ↔ Due GateCall.note? calls note (calls.count .step) := by
  have hnow := request_after calls note 0
  rw [Nat.add_zero] at hnow
  rw [← hnow, due?]
  rcases (new.after calls).request with _ | ⟨note', _ | k⟩ <;> simp

/-- A cut is due to a gate on the next step exactly if its appointment is. -/
theorem cutIsDue_after (calls : List GateCall) :
    (new.after calls).cutIsDue = true ↔ Due GateCall.cut? calls () (calls.count .step) := by
  rw [cutIsDue, decide_eq_true_eq]
  exact cutIn_after calls 0

/-- A note starts on a step exactly if it is due and no cut is. -/
theorem started_after_iff (calls : List GateCall) (note : Nat) :
    (new.after calls).step.2 = some note ↔
      Due GateCall.note? calls note (calls.count .step) ∧
        ¬Due GateCall.cut? calls () (calls.count .step) := by
  rw [← due?_after, ← cutIsDue_after]
  show (if (new.after calls).cutIsDue then none else (new.after calls).due?) = some note ↔ _
  split
  · next hcut => exact iff_of_false nofun fun h => h.2 hcut
  · next hcut => exact (and_iff_left hcut).symm

/-! ### Notes that sound -/

/-- Since the last reset, a note has started on a step, and no cut has come on that step or behind
it. -/
def Sounds (calls : List GateCall) : Prop :=
  ∃ u, (∀ t, ResetsBefore calls t → t ≤ u) ∧ (∃ note, Fires GateCall.note? calls note u) ∧
    ∀ t, u ≤ t → ¬Fires GateCall.cut? calls () t

/-- Without calls, no note sounds. -/
theorem not_sounds_nil : ¬Sounds [] := by
  rintro ⟨u, -, ⟨note, hfires⟩, -⟩
  exact Nat.not_lt_zero _ hfires.lt_count

/-- Requests neither start nor end a note by themselves. -/
theorem sounds_concat_of_request {call : GateCall} (hstep : call ≠ .step) (hreset : call ≠ .reset) :
    Sounds (calls ++ [call]) ↔ Sounds calls := by
  simp only [Sounds, fires_concat_of_ne hstep, resetsBefore_concat, hreset, false_and, or_false]

/-- Behind a reset, no note sounds. -/
theorem not_sounds_concat_reset : ¬Sounds (calls ++ [.reset]) := by
  rintro ⟨u, hsince, ⟨note, hfires⟩, -⟩
  rw [fires_concat_of_ne (by decide)] at hfires
  have hle := hsince _ (resetsBefore_concat.mpr (.inr ⟨rfl, rfl⟩))
  exact Nat.not_lt.mpr hle hfires.lt_count

/-- **Behind a step, a note sounds if it did before or starts, unless a cut is due.** -/
theorem sounds_concat_step :
    Sounds (calls ++ [.step]) ↔
      (Sounds calls ∨ ∃ note, Due GateCall.note? calls note (calls.count .step)) ∧
        ¬Due GateCall.cut? calls () (calls.count .step) := by
  constructor
  · -- the note has started before this step or on it
    rintro ⟨u, hsince, ⟨note, hfires⟩, huncut⟩
    have hsince' (t : Nat) (ht : ResetsBefore calls t) : t ≤ u :=
      hsince t (resetsBefore_concat.mpr (.inl ht))
    have huncut' (t : Nat) (ht : u ≤ t) : ¬Fires GateCall.cut? calls () t :=
      fun h => huncut t ht (fires_concat_step.mpr (.inl h))
    have hnow (hle : u ≤ calls.count .step) :
        ¬Due GateCall.cut? calls () (calls.count .step) :=
      fun h => huncut _ hle (fires_concat_step.mpr (.inr ⟨rfl, h⟩))
    rcases fires_concat_step.mp hfires with hfires | ⟨rfl, hdue⟩
    · exact ⟨.inl ⟨u, hsince', ⟨note, hfires⟩, huncut'⟩, hnow hfires.lt_count.le⟩
    · exact ⟨.inr ⟨note, hdue⟩, hnow le_rfl⟩
  · rintro ⟨hsounds, hcut⟩
    have hsince {u : Nat} (h : ∀ t, ResetsBefore calls t → t ≤ u) (t : Nat)
        (ht : ResetsBefore (calls ++ [.step]) t) : t ≤ u := by
      rcases resetsBefore_concat.mp ht with ht | ⟨hcall, -⟩
      · exact h t ht
      · cases hcall
    have huncut {u : Nat} (h : ∀ t, u ≤ t → ¬Fires GateCall.cut? calls () t) (t : Nat)
        (ht : u ≤ t) : ¬Fires GateCall.cut? (calls ++ [.step]) () t := by
      intro hfires
      rcases fires_concat_step.mp hfires with hfires | ⟨rfl, hdue⟩
      · exact h t ht hfires
      · exact hcut hdue
    -- a note that sounded goes on, and one that is due starts on this step
    rcases hsounds with ⟨u, hu, ⟨note, hfires⟩, hv⟩ | ⟨note, hdue⟩
    · exact ⟨u, hsince hu, ⟨note, fires_concat_step.mpr (.inl hfires)⟩, huncut hv⟩
    · refine ⟨calls.count .step, hsince fun t ht => ht.le_count,
        ⟨note, fires_concat_step.mpr (.inr ⟨rfl, hdue⟩)⟩, huncut fun t ht hfires => ?_⟩
      exact Nat.not_lt.mpr ht hfires.lt_count

/-- A gate is open exactly while a note sounds. -/
theorem isOpen_after_iff (calls : List GateCall) :
    (new.after calls).isOpen = true ↔ Sounds calls := by
  induction calls using List.reverseRecOn with
  | nil => exact iff_of_false Bool.false_ne_true not_sounds_nil
  | append_singleton calls call ih =>
      rw [after_concat]
      -- requests leave the gate open or shut, a reset shuts it, and a step may do either
      cases call with
      | note n delay =>
          rw [sounds_concat_of_request (by simp) (by simp), ← ih, serve, requestNote]
          split
          · rfl
          · split <;> rfl
      | cut delay =>
          rw [sounds_concat_of_request (by simp) (by simp), ← ih]
          rfl
      | reset => exact iff_of_false Bool.false_ne_true not_sounds_concat_reset
      | step =>
          have hdue : (new.after calls).due?.isSome = true ↔
              ∃ note, Due GateCall.note? calls note (calls.count .step) := by
            rw [Option.isSome_iff_exists]
            exact exists_congr (due?_after calls)
          rw [sounds_concat_step, ← ih, ← hdue, ← cutIsDue_after]
          show ((new.after calls).isOpen || (new.after calls).due?.isSome) &&
            !(new.after calls).cutIsDue ↔ _
          simp

/-! ### Requests of different kinds -/

variable {g g' : NoteGate}

/-- What becomes of a requested note depends on that request and on later calls alone. -/
theorem request_after_congr (h : g.request = g'.request) (calls : List GateCall) :
    (g.after calls).request = (g'.after calls).request := by
  induction calls generalizing g g' with
  | nil => exact h
  | cons call calls ih =>
      refine ih (Option.map_injective asPair_injective ?_)
      rw [request_serve, request_serve, h]

/-- What becomes of a requested cut depends on that request and on later calls alone. -/
theorem cutIn_after_congr (h : g.cutIn = g'.cutIn) (calls : List GateCall) :
    (g.after calls).cutIn = (g'.after calls).cutIn := by
  induction calls generalizing g g' with
  | nil => exact h
  | cons call calls ih =>
      refine ih (Option.map_injective (Prod.mk_right_injective ()) ?_)
      rw [cutIn_serve, cutIn_serve, h]

/-- A call that requests a note leaves the cut alone that the gate waits for. -/
theorem cutIn_serve_of_note {call : GateCall} (h : call.note?.isSome = true) (g : NoteGate) :
    (g.serve call).cutIn = g.cutIn := by
  cases call with
  | note n delay =>
      rw [GateCall.note?, Option.isSome_ite] at h
      exact g.cutIn_requestNote delay h
  | cut | reset | step => cases h

/-- A call that requests a cut leaves the note alone that the gate waits for. -/
theorem request_serve_of_cut {call : GateCall} (h : call.cut?.isSome = true) (g : NoteGate) :
    (g.serve call).request = g.request := by
  cases call with
  | note n delay =>
      rw [GateCall.cut?, Option.isSome_ite] at h
      rw [serve, requestNote, if_pos h, request_requestCut]
  | cut delay => rfl
  | reset | step => cases h

/-- **A gate keeps its appointments.** Behind any calls, whose steps are numbered from zero, the
next step starts the note that is due on it, unless a cut is due on it as well.  A note sounds
exactly if one has started since the last reset and no cut has come on that step or behind it.  A
request of one kind disturbs none of the other, whatever is called later. -/
theorem keeps_appointments (calls : List GateCall) :
    let g := new.after calls
    let t := calls.count .step
    (∀ note, g.step.2 = some note ↔
        Due GateCall.note? calls note t ∧ ¬Due GateCall.cut? calls () t) ∧
      (g.isOpen = true ↔ Sounds calls) ∧
      ∀ call later,
        (call.note?.isSome = true → ((g.serve call).after later).cutIn = (g.after later).cutIn) ∧
          (call.cut?.isSome = true →
            ((g.serve call).after later).request = (g.after later).request) := by
  intro g t
  refine ⟨started_after_iff calls, isOpen_after_iff calls, fun call later => ⟨?_, ?_⟩⟩
  · intro hnote
    exact cutIn_after_congr (cutIn_serve_of_note hnote g) later
  · intro hcut
    exact request_after_congr (request_serve_of_cut hcut g) later

/-- A note that is requested for step two takes the place of one for the same step, and sounds
behind it; the cut of step zero does not touch it, and neither does one that is requested for step
three. -/
theorem keeps_appointments_replacingCalls :
    let calls : List GateCall := [.note 10 2, .cut 0, .step, .note 20 1, .step]
    let g := new.after calls
    g.step.2 = some 20 ∧ Due GateCall.note? calls 20 2 ∧ ¬Due GateCall.cut? calls () 2 ∧
      Sounds (calls ++ [.step]) ∧ (GateCall.cut 1).cut?.isSome = true ∧
      ((g.serve (.cut 1)).after [.step]).request = (g.after [.step]).request := by
  intro calls g
  have hstarted : g.step.2 = some 20 := by decide
  obtain ⟨hstarts, -, hothers⟩ := keeps_appointments calls
  obtain ⟨-, hsounds, -⟩ := keeps_appointments (calls ++ [.step])
  obtain ⟨hdue, hcut⟩ := (hstarts 20).mp hstarted
  exact ⟨hstarted, hdue, hcut, hsounds.mp (by decide), rfl, (hothers (.cut 1) [.step]).2 rfl⟩

end NoteGate
end Chiptune
