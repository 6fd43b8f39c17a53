import Chiptune.Recording.Trace
import Chiptune.Proofs.Playback.Run
import Chiptune.Proofs.Text.Numerals

/-! # Reading traces

A trace loses nothing: the recording is read back from its text.  Numerals end where their digits
do, writes are told apart by their first word, lines that are indented belong to the frame above
them, and a pattern that starts is known to start a row.

* `DeviceWrite.read?_text` and `FrameReport.read?_text` read a line back.  A report must be
  `FrameReport.IsComplete` for that, as those of a player are by `Player.isComplete_step`.
* `RecordedFrame.readAll?_lines` reads frames back from their lines, and `splitOn_endLines` finds
  the lines of a text.
* `Recording.ofTrace?_trace` reads a whole recording back, and `Module.trace_loses_nothing` states
  it for all that can be recorded. -/

namespace Chiptune

/-! ## Texts -/

/-- What follows some words at the front of a text. -/
def afterText? (words : String) (cs : List Char) : Option (List Char) :=
  if words.toList.isPrefixOf cs then some (cs.drop words.toList.length) else none

/-- Words that a text starts with are read off it. -/
@[simp] theorem afterText?_append (words : String) (cs : List Char) :
    afterText? words (words.toList ++ cs) = some cs := by
  rw [afterText?, if_pos (List.isPrefixOf_iff_prefix.mpr (List.prefix_append ..)), List.drop_left]

/-- Whether some words stand at the front of a text, and what follows them. -/
def readFlag (words : String) (cs : List Char) : Bool × List Char :=
  match afterText? words cs with
  | some rest => (true, rest)
  | none => (false, cs)

/-- No line ends within a numeral. -/
theorem Numeral.newline_not_mem_chars {base : Nat} (hbase : 1 < base) (hle : base ≤ 16)
    (width n : Nat) : '\n' ∉ chars base width n := by
  intro hmem
  exact absurd (isDigit_of_mem_chars hbase hle hmem) Bool.false_ne_true

/-! ## Writes -/

/-- Read the name of a channel. -/
def Channel.read? (cs : List Char) : Option (Channel × List Char) :=
  (all.find? fun c => c.name.toList == cs.take 3).map (·, cs.drop 3)

/-- The name of a channel is read back, with what stands behind it. -/
theorem Channel.read?_name (c : Channel) (cs : List Char) :
    read? (c.name.toList ++ cs) = some (c, cs) := by
  cases c <;> rfl

namespace DeviceWrite

/-- Read a write to a register. -/
def readRegister? (cs : List Char) : Option DeviceWrite := do
  let (address, cs) := Numeral.read 16 (← afterText? "reg  " cs)
  let (value, _) := Numeral.read 16 (← afterText? " <- " cs)
  some (.register address (UInt8.ofNat value))

/-- Read the restart of a channel. -/
def readRestart? (cs : List Char) : Option DeviceWrite := do
  let (c, _) ← Channel.read? (← afterText? "trig " cs)
  some (.restart c)

/-- Read the frequency of a channel. -/
def readFrequency? (cs : List Char) : Option DeviceWrite := do
  let (c, cs) ← Channel.read? (← afterText? "freq " cs)
  let (value, _) := Numeral.read 16 (← afterText? " <- " cs)
  some (.frequency c value)

/-- Read the output switches of all channels. -/
def readOutputEnable? (cs : List Char) : Option DeviceWrite := do
  let (mask, _) := Numeral.read 16 (← afterText? "pan  " cs)
  some (.outputEnable (UInt8.ofNat mask))

/-- Read the output switches of a channel. -/
def readChannelOutput? (cs : List Char) : Option DeviceWrite := do
  let (c, cs) ← Channel.read? (← afterText? "out  " cs)
  some (.channelOutput c ⟨cs[1]? = some 'L', cs[2]? = some 'R'⟩)

/-- Read a write; its first letter says which kind it is of. -/
def read? (cs : List Char) : Option DeviceWrite :=
  match cs.head? with
  | some 'r' => readRegister? cs
  | some 't' => readRestart? cs
  | some 'f' => readFrequency? cs
  | some 'p' => readOutputEnable? cs
  | some 'o' => readChannelOutput? cs
  | _ => none

/-- The text of a write, character by character. -/
theorem toList_text (w : DeviceWrite) :
    w.text.toList =
      match w with
      | register address value => "reg  ".toList ++
          (Numeral.chars 16 4 address ++ (" <- ".toList ++ Numeral.chars 16 2 value.toNat))
      | restart c => "trig ".toList ++ c.name.toList
      | frequency c value => "freq ".toList ++
          (c.name.toList ++ (" <- ".toList ++ Numeral.chars 16 3 value))
      | outputEnable mask => "pan  ".toList ++ Numeral.chars 16 2 mask.toNat
      | channelOutput c p => "out  ".toList ++ (c.name.toList ++
          [' ', if p.left then 'L' else '-', if p.right then 'R' else '-']) := by
  cases w with
  | channelOutput c p =>
      obtain ⟨left, right⟩ := p
      simp only [text, String.toList_append, List.append_assoc]
      cases left <;> cases right <;> rfl
  | register | restart | frequency | outputEnable =>
      simp only [text, Numeral.hex, Numeral.byte, String.toList_append, String.toList_ofList,
        List.append_assoc]

/-- **A write is read back.** -/
theorem read?_text (w : DeviceWrite) : read? w.text.toList = some w := by
  rw [toList_text]
  -- each kind of write begins with words of its own
  cases w with
  | register address value =>
      change readRegister? _ = _
      rw [readRegister?, afterText?_append, Option.bind_eq_bind, Option.bind_some,
        Numeral.read_chars (by decide) (by decide) 4 address rfl]
      dsimp only
      rw [afterText?_append, Option.bind_some, Numeral.read_chars_end (by decide) (by decide)]
      exact congrArg (fun value => some (register address value)) UInt8.ofNat_toNat
  | restart c => cases c <;> rfl
  | frequency c value =>
      change readFrequency? _ = _
      rw [readFrequency?, afterText?_append, Option.bind_eq_bind, Option.bind_some,
        Channel.read?_name, Option.bind_eq_bind, Option.bind_some]
      dsimp only
      rw [afterText?_append, Option.bind_some, Numeral.read_chars_end (by decide) (by decide)]
  | outputEnable mask =>
      change readOutputEnable? _ = _
      rw [readOutputEnable?, afterText?_append, Option.bind_eq_bind, Option.bind_some,
        Numeral.read_chars_end (by decide) (by decide)]
      exact congrArg (fun mask => some (outputEnable mask)) UInt8.ofNat_toNat
  | channelOutput c p =>
      obtain ⟨left, right⟩ := p
      cases c <;> cases left <;> cases right <;> rfl

/-- A write takes one line. -/
theorem newline_not_mem_text (w : DeviceWrite) : '\n' ∉ w.text.toList := by
  have hchars (width n : Nat) : '\n' ∉ Numeral.chars 16 width n :=
    Numeral.newline_not_mem_chars (by decide) (by decide) width n
  rw [toList_text]
  cases w with
  | register address value => simp [hchars]
  | restart c => cases c <;> decide
  | frequency c value => cases c <;> simp [Channel.name, hchars]
  | outputEnable mask => simp [hchars]
  | channelOutput c p =>
      obtain ⟨left, right⟩ := p
      cases c <;> cases left <;> cases right <;> decide

end DeviceWrite

/-! ## Reports -/

namespace FrameReport

/-- Whether a report of a pattern that starts tells of its row as well. -/
def IsComplete (f : FrameReport) : Prop :=
  f.startsPattern = true → f.startsRow = true

/-- What a report ends with: what starts on the frame, and whether playback stops. -/
def flags (f : FrameReport) : List Char :=
  (if f.startsPattern then " pattern".toList else if f.startsRow then " row".toList else []) ++
    (if f.isHalted then " halt".toList else [])

/-- Read what a report ends with: whether a pattern and a row start, and whether playback stops. -/
def readFlags (cs : List Char) : Bool × Bool × Bool :=
  let (startsPattern, cs) := readFlag " pattern" cs
  let (showsRow, cs) := readFlag " row" cs
  (startsPattern, startsPattern || showsRow, (readFlag " halt" cs).1)

/-- Read a report. -/
def read? (cs : List Char) : Option FrameReport := do
  let (time, cs) := Numeral.read 10 cs
  let (order, cs) := Numeral.read 16 (← afterText? " " cs)
  let (row, cs) := Numeral.read 16 (← afterText? ":" cs)
  let (whole, cs) := Numeral.read 10 (← afterText? " speed " cs)
  let (places, cs) := Numeral.read 10 (← afterText? "." cs)
  -- a sixteenth of a frame is 625 of its ten thousandths
  let speed ← Speed.ofRaw? (whole * Speed.unit + places / 625)
  let (startsPattern, startsRow, isHalted) := readFlags cs
  some
    { isHalted, startsRow, startsPattern, speed
      time := UInt32.ofNat time, order := UInt8.ofNat order, row }

/-- The text of a report, character by character. -/
theorem toList_text (f : FrameReport) :
    f.text.toList = Numeral.chars 10 6 f.time.toNat ++ (" ".toList ++
      (Numeral.chars 16 2 f.order.toNat ++ (":".toList ++ (Numeral.chars 16 2 f.row ++
        (" speed ".toList ++ (Numeral.chars 10 1 f.speed.whole ++ (".".toList ++
          (Numeral.chars 10 4 (f.speed.fraction * 625) ++ f.flags)))))))) := by
  simp only [text, flags, Speed.text, Numeral.hex, Numeral.byte, Numeral.decimal,
    String.toList_append, String.toList_ofList, String.toList_empty, apply_ite String.toList,
    List.append_assoc]

/-- What a complete report ends with is read back: of a pattern that starts, the row is known. -/
theorem readFlags_flags {f : FrameReport} (h : f.IsComplete) :
    readFlags f.flags = (f.startsPattern, f.startsRow, f.isHalted) := by
  obtain ⟨isHalted, startsRow, startsPattern, speed, time, order, row⟩ := f
  cases startsPattern with
  | true =>
      -- the text does not show the row here, but it starts with the pattern
      obtain rfl : startsRow = true := h rfl
      cases isHalted <;> rfl
  | false => cases startsRow <;> cases isHalted <;> rfl

/-- No digit stands where the numerals of a report have ended. -/
theorem isDigit_head_flags (f : FrameReport) :
    f.flags.head?.any (Numeral.isDigit 10) = false := by
  unfold flags
  cases f.startsPattern <;> cases f.startsRow <;> cases f.isHalted <;> rfl

/-- **A complete report is read back.** -/
theorem read?_text {f : FrameReport} (h : f.IsComplete) : read? f.text.toList = some f := by
  have hspeed : Speed.ofRaw? (f.speed.whole * Speed.unit + f.speed.fraction * 625 / 625) =
      some f.speed := by
    rw [Nat.mul_div_cancel _ (by decide), Speed.whole, Speed.fraction, Nat.div_add_mod',
      Speed.ofRaw?_raw]
  -- each numeral ends at the words behind it, which the next one follows
  rw [toList_text, read?, Numeral.read_chars (by decide) (by decide) 6 _ rfl]
  dsimp only
  rw [afterText?_append, Option.bind_eq_bind, Option.bind_some,
    Numeral.read_chars (by decide) (by decide) 2 _ rfl]
  dsimp only
  rw [afterText?_append, Option.bind_some, Numeral.read_chars (by decide) (by decide) 2 _ rfl]
  dsimp only
  rw [afterText?_append, Option.bind_some, Numeral.read_chars (by decide) (by decide) 1 _ rfl]
  dsimp only
  rw [afterText?_append, Option.bind_some, Numeral.read_chars (by decide) (by decide) 4 _
    f.isDigit_head_flags]
  dsimp only
  rw [hspeed, Option.bind_eq_bind, Option.bind_some, readFlags_flags h]
  dsimp only
  rw [UInt32.ofNat_toNat, UInt8.ofNat_toNat]

/-- A report takes one line. -/
theorem newline_not_mem_text (f : FrameReport) : '\n' ∉ f.text.toList := by
  have hchars {base : Nat} (hbase : 1 < base) (hle : base ≤ 16) (width n : Nat) :
      '\n' ∉ Numeral.chars base width n :=
    Numeral.newline_not_mem_chars hbase hle width n
  have hflags : '\n' ∉ f.flags := by
    unfold flags
    cases f.startsPattern <;> cases f.startsRow <;> cases f.isHalted <;> decide
  rw [toList_text]
  simp [hchars, hflags]

/-- A report is not indented, since it begins with a digit. -/
theorem afterText?_indent_text (f : FrameReport) : afterText? "    " f.text.toList = none := by
  obtain ⟨c, cs, hcs, hc⟩ :=
    @Numeral.exists_chars_eq_cons 10 (by decide) (by decide) 6 f.time.toNat
  have hspace : (' ' == c) = false := by
    refine beq_eq_false_iff_ne.mpr ?_
    rintro rfl
    exact absurd hc Bool.false_ne_true
  rw [toList_text, hcs]
  refine if_neg (Bool.not_eq_true _ ▸ ?_)
  change (' ' == c && _) = false
  rw [hspace, Bool.false_and]

end FrameReport

/-! ## Frames -/

namespace RecordedFrame

/-- Read the frames that some lines hold, from the last line to the first, together with the writes
that stand above all of them; these belong to the frame that is read next. -/
def readAll? : List (List Char) → Option (List DeviceWrite × List RecordedFrame)
  | [] => some ([], [])
  | line :: lines => do
      let (writes, frames) ← readAll? lines
      match afterText? "    " line with
      | some cs => do
          let w ← DeviceWrite.read? cs
          some (w :: writes, frames)
      | none => do
          let report ← FrameReport.read? line
          some ([], { report, writes } :: frames)

/-- Writes are read back above what follows them. -/
theorem readAll?_writes (ws : List DeviceWrite) {lines : List (List Char)}
    {writes : List DeviceWrite} {frames : List RecordedFrame}
    (h : readAll? lines = some (writes, frames)) :
    readAll? ((ws.map fun w => "    " ++ w.text).map String.toList ++ lines) =
      some (ws ++ writes, frames) := by
  induction ws with
  | nil => exact h
  | cons w ws ih =>
      rw [List.map_cons, List.map_cons, List.cons_append, readAll?, ih, String.toList_append,
        Option.bind_eq_bind, Option.bind_some]
      dsimp only
      rw [afterText?_append]
      dsimp only
      rw [DeviceWrite.read?_text]
      rfl

/-- **Frames are read back from their lines.** -/
theorem readAll?_lines {frames : List RecordedFrame} (h : ∀ f ∈ frames, f.report.IsComplete) :
    readAll? ((frames.flatMap traceLines).map String.toList) = some ([], frames) := by
  induction frames with
  | nil => rfl
  | cons f frames ih =>
      have ih := ih fun g hg => h g (List.mem_cons_of_mem _ hg)
      -- the writes of the frame stand between its report and the frames behind it
      have hwrites := readAll?_writes f.writes ih
      rw [List.flatMap_cons, List.map_append, traceLines, List.map_cons, List.cons_append,
        readAll?, hwrites, Option.bind_eq_bind, Option.bind_some]
      dsimp only
      rw [FrameReport.afterText?_indent_text]
      dsimp only
      rw [FrameReport.read?_text (h f (List.mem_cons_self ..)), List.append_nil]
      rfl

/-- A frame takes one line for itself and one for each write. -/
theorem newline_not_mem_traceLines (f : RecordedFrame) :
    ∀ line ∈ f.traceLines, '\n' ∉ line.toList := by
  intro line hline
  rcases List.mem_cons.mp hline with rfl | hline
  · exact f.report.newline_not_mem_text
  · obtain ⟨w, -, rfl⟩ := List.mem_map.mp hline
    rw [String.toList_append, List.mem_append, not_or]
    exact ⟨by decide, w.newline_not_mem_text⟩

end RecordedFrame

/-! ## Lines -/

/-- Lines are put one behind the other, each with its end. -/
theorem toList_endLines (lines : List String) :
    (endLines lines).toList = lines.flatMap fun line => line.toList ++ ['\n'] := by
  rw [endLines, String.toList_join, List.flatMap_map]
  simp only [String.toList_append]
  rfl

/-- The lines of a text are found again. -/
theorem splitOn_endLines {lines : List String} (h : ∀ line ∈ lines, '\n' ∉ line.toList) :
    (endLines lines).toList.splitOn '\n' = lines.map String.toList ++ [[]] := by
  rw [toList_endLines]
  induction lines with
  | nil => rfl
  | cons line lines ih =>
      rw [List.flatMap_cons, List.append_assoc, List.singleton_append,
        List.splitOn_append_cons_self_of_not_mem (h line (List.mem_cons_self ..)),
        ih fun l hl => h l (List.mem_cons_of_mem _ hl)]
      rfl

/-- A text has as many line ends as lines. -/
theorem count_endLines {lines : List String} (h : ∀ line ∈ lines, '\n' ∉ line.toList) :
    (endLines lines).toList.count '\n' = lines.length := by
  rw [toList_endLines]
  induction lines with
  | nil => rfl
  | cons line lines ih =>
      rw [List.flatMap_cons, List.count_append, List.count_append,
        List.count_eq_zero_of_not_mem (h line (List.mem_cons_self ..)), List.count_singleton_self,
        ih fun l hl => h l (List.mem_cons_of_mem _ hl), List.length_cons, Nat.zero_add,
        Nat.add_comm]

/-! ## Recordings -/

namespace Recording

/-- Read a recording from a trace; the first line only sums it up. -/
def ofTrace? (text : String) : Option Recording :=
  match RecordedFrame.readAll? (text.toList.splitOn '\n').dropLast.tail with
  | some ([], frames) => some ⟨frames⟩
  | _ => none

/-- No line of a trace is broken. -/
theorem newline_not_mem_traceLines (r : Recording) :
    ∀ line ∈ r.traceLines, '\n' ∉ line.toList := by
  intro line hline
  rcases List.mem_cons.mp hline with rfl | hline
  · have hchars (n : Nat) : '\n' ∉ Numeral.chars 10 1 n :=
      Numeral.newline_not_mem_chars (by decide) (by decide) 1 n
    simp only [traceHeader, Numeral.decimal, String.toList_append, String.toList_ofList,
      apply_ite String.toList]
    split <;> simp [hchars]
  · obtain ⟨f, -, hline⟩ := List.mem_flatMap.mp hline
    exact f.newline_not_mem_traceLines line hline

/-- **A recording of complete reports is read back from its trace.** -/
theorem ofTrace?_trace {r : Recording} (h : ∀ f ∈ r.frames, f.report.IsComplete) :
    ofTrace? r.trace = some r := by
  rw [ofTrace?, trace, splitOn_endLines r.newline_not_mem_traceLines, List.dropLast_concat,
    traceLines, List.map_cons, List.tail_cons, RecordedFrame.readAll?_lines h]

end Recording

/-- Behind every frame of a player, the report is complete. -/
theorem Player.isComplete_step (p : Player) (m : Module) : (p.step m).1.report.IsComplete := by
  intro hpattern
  rw [startsRow_step]
  cases h : p.isHalted with
  | true =>
      -- a frame that is not played starts no pattern
      rw [step_of_halted m h] at hpattern
      exact absurd hpattern Bool.false_ne_true
  | false =>
      cases hfirst : p.transport.clock.isFirst with
      | true => rfl
      | false =>
          -- patterns start on frames on which a row is read, and this one reads none
          obtain ⟨speed, time, hreport⟩ := report_step m h
          rw [hreport, begun_of_not_first m hfirst] at hpattern
          exact absurd hpattern Bool.false_ne_true

/-- The reports of a run are complete. -/
theorem Player.isComplete_of_mem_frames (m : Module) (limit : Nat) (p : Player) :
    ∀ f ∈ p.frames m limit, f.report.IsComplete := by
  induction limit generalizing p with
  | zero => exact fun _ hf => absurd hf List.not_mem_nil
  | succ limit ih =>
      intro f hf
      rw [frames_succ] at hf
      rcases List.mem_cons.mp hf with rfl | hf
      · exact p.isComplete_step m
      · split at hf
        · exact absurd hf List.not_mem_nil
        · exact ih _ f hf

namespace Module

/-- Whatever is recorded has complete reports. -/
theorem isComplete_of_record {m : Module} {plan : RecordingPlan} {r : Recording}
    (h : m.record plan = .ok r) : ∀ f ∈ r.frames, f.report.IsComplete := by
  unfold record at h
  split at h
  · cases h
    exact Player.isComplete_of_mem_frames m _ _
  · cases h

/-- **Traces lose nothing.**  What is recorded of any module is read back from its trace, so no two
recordings share one, and the trace has a line for itself, for each frame and for each write. -/
theorem trace_loses_nothing {m m' : Module} {plan plan' : RecordingPlan} {r r' : Recording}
    (h : m.record plan = .ok r) (h' : m'.record plan' = .ok r') :
    (r.trace = r'.trace → r = r') ∧ Recording.ofTrace? r.trace = some r ∧
      r.trace.toList.count '\n' = 1 + r.frames.length + r.totalWrites := by
  have hread := Recording.ofTrace?_trace (isComplete_of_record h)
  have hread' := Recording.ofTrace?_trace (isComplete_of_record h')
  refine ⟨fun htrace => ?_, hread, ?_⟩
  · rw [htrace] at hread
    exact Option.some.inj (hread.symm.trans hread')
  · rw [Recording.trace, count_endLines r.newline_not_mem_traceLines, Recording.length_traceLines]

/-- A module that starts a note in its first row and stops playback in its second. -/
def tracedModule : Module :=
  .ofSong (((Song.new "").setRow .ch1 0 0
    ((Row.empty.withNote (.on 0)).withEffect ⟨.track .setEnvelope, 0xF0⟩)).setRow .ch1 0 1
    (Row.empty.withEffect ⟨.pattern .halt, 0⟩))

/-- A recording of some frames of it from some row. -/
def tracedRecording (row limit : Nat) : Recording :=
  ⟨((Player.atPosition tracedModule.song ⟨0, row⟩).setRepeat false).frames tracedModule limit⟩

/-- The two rows have different traces, and the second is read back from the words of its trace. -/
theorem trace_loses_nothing_tracedModule :
    tracedModule.record { maxFrames := 2 } = .ok (tracedRecording 0 2) ∧
      tracedModule.record { start := ⟨0, 1⟩ } = .ok (tracedRecording 1 3600) ∧
      (tracedRecording 1 3600).trace ≠ (tracedRecording 0 2).trace ∧
      Recording.ofTrace?
          "# 1 frames, 0 writes, halted\n000000 00:01 speed 6.0000 pattern halt\n" =
        some (tracedRecording 1 3600) ∧
      (tracedRecording 0 2).trace.toList.count '\n' = 8 := by
  have hfirst : tracedModule.record { maxFrames := 2 } = .ok (tracedRecording 0 2) := rfl
  have hsecond : tracedModule.record { start := ⟨0, 1⟩ } = .ok (tracedRecording 1 3600) := rfl
  have htrace : (tracedRecording 1 3600).trace =
      "# 1 frames, 0 writes, halted\n000000 00:01 speed 6.0000 pattern halt\n" := by
    decide +kernel
  have hdiffer : tracedRecording 1 3600 ≠ tracedRecording 0 2 := by decide +kernel
  obtain ⟨hsame, hread, -⟩ := trace_loses_nothing hsecond hfirst
  obtain ⟨-, -, hcount⟩ := trace_loses_nothing hfirst hsecond
  rw [htrace] at hread
  have hwrites : (tracedRecording 0 2).totalWrites = 5 := by decide +kernel
  have hframes : (tracedRecording 0 2).frames.length = 2 := by decide +kernel
  rw [hframes, hwrites] at hcount
  exact ⟨hfirst, hsecond, fun heq => hdiffer (hsame heq), hread, hcount⟩

end Module
end Chiptune
