/-
VideoComputer.Proofs.Video.LineEnds — the ends of lines, and the frames that are
published there.

Time that passes for the chip is a row of line ends with dots between them, and
between them nothing happens to the line counter and to what is published. So
the history of both is a list of line ends. Each of them has the line counter
before and after, whether the picture was blanked, and the picture as it was
then; it publishes that picture if the counter comes back to 0.

* `LineEnd.Chain` — line ends in a row, as the line counter has to go.
* `LineEnd.countP_wraps_unblanked`, `LineEnd.countP_wraps_blanked` — how many of
  them publish.
* `Tia.chain_run` — the line ends of a run are such a row.
* `Tia.published_run` — the chip holds the last frame that was published and
  that nobody took.
-/
import VideoComputer.Proofs.Video.Racing

namespace VideoComputer

/-- The end of a line. -/
structure LineEnd where
  /-- The line that ends, -/
  line : Nat
  /-- and the one that begins. -/
  next : Nat
  blanked : Bool
  /-- The picture as it is then. -/
  frame : Frame

namespace LineEnd

/-- Whether the line counter comes back to 0 from another line. -/
def wraps (e : LineEnd) : Bool := e.line != 0 && e.next == 0

/-- The frames that line ends publish, oldest first. -/
def published (ends : List LineEnd) : List Frame := (ends.filter wraps).map frame

/-- Line ends in a row that take the line counter from one line to another: each
takes up where the one before it ended, sets the counter to 0 if the picture is
blanked, and counts the lines of a picture round otherwise. -/
def Chain : (line : Nat) → List LineEnd → (line' : Nat) → Prop
  | y, [], y' => y' = y
  | y, e :: ends, y' =>
    e.line = y ∧ e.next = (if e.blanked then 0 else (y + 1) % lineCount) ∧ Chain e.next ends y'

/-- A frame is published with each line end that wraps. -/
theorem length_published (ends : List LineEnd) :
    (published ends).length = ends.countP wraps := by
  rw [published, List.length_map, List.countP_eq_length_filter]

/-- Two chains of lines make one where the second begins with the line on which the first ended, -/
theorem Chain.append {y y' y'' : Nat} {ends ends' : List LineEnd} (h : Chain y ends y')
    (h' : Chain y' ends' y'') : Chain y (ends ++ ends') y'' := by
  induction ends generalizing y with
  | nil => exact (show y' = y from h) ▸ h'
  | cons e ends ih =>
    obtain ⟨hline, hnext, hrest⟩ := h
    exact ⟨hline, hnext, ih hrest⟩

/-- and one chain can be cut anywhere. -/
theorem Chain.of_append {y y'' : Nat} {ends ends' : List LineEnd}
    (h : Chain y (ends ++ ends') y'') : ∃ y', Chain y ends y' ∧ Chain y' ends' y'' := by
  induction ends generalizing y with
  | nil => exact ⟨y, rfl, h⟩
  | cons e ends ih =>
    obtain ⟨hline, hnext, hrest⟩ := h
    obtain ⟨y', hfirst, hsecond⟩ := ih hrest
    exact ⟨y', ⟨hline, hnext, hfirst⟩, hsecond⟩

/-- What is cut out of a row is a row. -/
theorem Chain.of_stretch {y y' : Nat} {ends stretch : List LineEnd} (h : Chain y ends y')
    (hwithin : stretch <:+: ends) : ∃ z z', Chain z stretch z' := by
  obtain ⟨before, after, rfl⟩ := hwithin
  obtain ⟨z', hfront, -⟩ := h.of_append
  obtain ⟨z, -, hstretch⟩ := hfront.of_append
  exact ⟨z, z', hstretch⟩

/-- No line of a chain is beyond the last one. -/
theorem Chain.line_lt {y y' : Nat} {ends : List LineEnd} (h : Chain y ends y')
    (hy : y < lineCount) : ∀ e ∈ ends, e.line < lineCount := by
  induction ends generalizing y with
  | nil => exact fun _ he => nomatch he
  | cons e ends ih =>
    obtain ⟨hline, hnext, hrest⟩ := h
    have hnext_lt : e.next < lineCount := by
      rw [hnext]
      split
      · decide
      · exact Nat.mod_lt _ (by decide)
    exact List.forall_mem_cons.mpr ⟨hline ▸ hy, ih hrest hnext_lt⟩

/-- Line ends that are not blanked publish as often as the lines come round. -/
theorem countP_wraps_unblanked {y y' : Nat} {ends : List LineEnd} (h : Chain y ends y')
    (hy : y < lineCount) (hon : ∀ e ∈ ends, e.blanked = false) :
    ends.countP wraps = (y + ends.length) / lineCount := by
  induction ends generalizing y with
  | nil => exact (Nat.div_eq_of_lt hy).symm
  | cons e ends ih =>
    obtain ⟨hline, hnext, hrest⟩ := h
    obtain ⟨hfirst, hothers⟩ := List.forall_mem_cons.mp hon
    rw [hfirst, if_neg (by decide)] at hnext
    have hcount := ih hrest (by rw [hnext]; exact Nat.mod_lt _ (by decide)) hothers
    -- the first of them publishes just if it is the end of the last line
    rw [List.countP_cons, hcount, List.length_cons]
    simp only [wraps, hline, hnext, lineCount, Bool.and_eq_true, bne_iff_ne, beq_iff_eq] at *
    split <;> omega

/-- Line ends that are blanked from line 0 on complete nothing. -/
theorem countP_wraps_of_line_zero {ends : List LineEnd} {y' : Nat} (h : Chain 0 ends y')
    (hoff : ∀ e ∈ ends, e.blanked = true) : ends.countP wraps = 0 := by
  induction ends with
  | nil => rfl
  | cons e ends ih =>
    obtain ⟨hline, hnext, hrest⟩ := h
    obtain ⟨hfirst, hothers⟩ := List.forall_mem_cons.mp hoff
    rw [hfirst, if_pos rfl] at hnext
    rw [hnext] at hrest
    rw [List.countP_cons, ih hrest hothers]
    simp [wraps, hline]

/-- Line ends that are blanked publish once, if the counter was not at 0. -/
theorem countP_wraps_blanked {e : LineEnd} {ends : List LineEnd} {y y' : Nat}
    (h : Chain y (e :: ends) y') (hoff : ∀ e' ∈ e :: ends, e'.blanked = true) :
    (e :: ends).countP wraps = if e.line = 0 then 0 else 1 := by
  obtain ⟨hline, hnext, hrest⟩ := h
  obtain ⟨hfirst, hothers⟩ := List.forall_mem_cons.mp hoff
  rw [hfirst, if_pos rfl] at hnext
  rw [hnext] at hrest
  rw [List.countP_cons, countP_wraps_of_line_zero hrest hothers]
  by_cases hzero : e.line = 0 <;> simp [wraps, hnext, hzero]

end LineEnd

namespace Tia

/-! ## Line ends of the chip -/

/-- The end of the current line, if the beam is at its last dot. -/
def lineEnd (t : Tia) : LineEnd where
  line := t.beam.y
  next := t.stepDot.beam.y
  blanked := t.scene.registers.isBlanked
  frame := t.stepDot.canvas.frame

/-- The line ends while dots pass, oldest first. -/
def lineEnds : (dots : Nat) → Tia → List LineEnd
  | 0, _ => []
  | dots + 1, t =>
    if t.beam.x + 1 = lineLength then t.lineEnd :: lineEnds dots t.stepDot
    else lineEnds dots t.stepDot

def lineEndsIn (t : Tia) (c : Call) : List LineEnd := t.lineEnds (t.dotsIn c)

def lineEndsDuring (t : Tia) : List Call → List LineEnd
  | [] => []
  | c :: calls => t.lineEndsIn c ++ (t.call c).lineEndsDuring calls

/-- Each line takes as many dots as it is long. -/
theorem length_lineEnds (n : Nat) {t : Tia} (h : t.beam.x < lineLength) :
    (t.lineEnds n).length = (t.beam.x + n) / lineLength := by
  induction n generalizing t with
  | zero => exact (Nat.div_eq_of_lt h).symm
  | succ n ih =>
    have hdot := t.beam_x_stepDot h
    have hrest := ih (t := t.stepDot) (by rw [hdot]; exact Nat.mod_lt _ lineLength_pos)
    rw [hdot] at hrest
    rw [lineEnds]
    split
    · rw [List.length_cons, hrest]
      simp only [lineLength] at *
      omega
    · rw [hrest]
      simp only [lineLength] at *
      omega

/-- The last dot of a line sets the line counter, and no other dot does. -/
theorem beam_y_stepDot (t : Tia) :
    t.stepDot.beam.y
      = if t.beam.x + 1 = lineLength then
          if t.scene.registers.isBlanked then 0 else (t.beam.y + 1) % lineCount
        else t.beam.y := by
  rw [stepDot_eq]
  split <;> rfl

/-- The line ends of dots make a chain from the line of the beam to the one it gets to. -/
theorem chain_lineEnds (n : Nat) (t : Tia) :
    LineEnd.Chain t.beam.y (t.lineEnds n) (t.stepDots n).beam.y := by
  induction n generalizing t with
  | zero => rfl
  | succ n ih =>
    have hrest := ih t.stepDot
    have hdot := t.beam_y_stepDot
    rw [lineEnds]
    split
    next hend =>
      rw [if_pos hend] at hdot
      exact ⟨rfl, hdot, hrest⟩
    next hend =>
      rw [if_neg hend] at hdot
      rwa [hdot] at hrest

/-- A dot publishes a frame just if it ends a line and the counter comes back. -/
theorem publishesNext_eq (t : Tia) :
    t.publishesNext = (t.beam.x + 1 == lineLength && t.lineEnd.wraps) := by
  rw [publishesNext, LineEnd.wraps, lineEnd, beam_y_stepDot]
  by_cases hend : t.beam.x + 1 = lineLength
  · simp only [hend, if_true, completesFrame, nextLine]
    rw [Bool.and_comm (_ == 0)]
  · rw [beq_eq_false_iff_ne.mpr hend, Bool.false_and, Bool.false_and]

/-- Frames are counted where a line end wraps. -/
theorem framesWithin_eq_countP (n : Nat) (t : Tia) :
    t.framesWithin n = (t.lineEnds n).countP LineEnd.wraps := by
  induction n generalizing t with
  | zero => rfl
  | succ n ih =>
    rw [framesWithin, ih, lineEnds, publishesNext_eq]
    split
    next hend =>
      rw [List.countP_cons, hend, Nat.add_comm]
      cases t.lineEnd.wraps <;> rfl
    next hend => simp [hend]

/-- The frame published last takes the place of those before it. -/
theorem published_stepDots (n : Nat) (t : Tia) :
    (t.stepDots n).published
      = (LineEnd.published (t.lineEnds n)).getLast?.or t.published := by
  induction n generalizing t with
  | zero => rfl
  | succ n ih =>
    show (t.stepDot.stepDots n).published = _
    rw [ih, published_stepDot, publishesNext_eq, lineEnds]
    by_cases hend : t.beam.x + 1 = lineLength
    · cases hwraps : t.lineEnd.wraps with
      | true =>
        -- published here, and there still unless a later line end publishes
        have hfirst : LineEnd.published (t.lineEnd :: t.stepDot.lineEnds n)
            = t.stepDot.canvas.frame :: LineEnd.published (t.stepDot.lineEnds n) := by
          rw [LineEnd.published, List.filter_cons_of_pos hwraps]
          rfl
        rw [if_pos hend, hfirst, List.getLast?_cons]
        simp only [hend, beq_self_eq_true, Bool.true_and, if_true]
        cases (LineEnd.published (t.stepDot.lineEnds n)).getLast? <;> rfl
      | false =>
        have hfirst : LineEnd.published (t.lineEnd :: t.stepDot.lineEnds n)
            = LineEnd.published (t.stepDot.lineEnds n) := by
          simp [LineEnd.published, hwraps]
        simp [hend, hfirst]
    · simp [hend]

/-! ## Calls -/

/-- A call that does not reset the chip goes on with the chain. -/
theorem chain_call {t : Tia} (h : t.beam.InRange) {c : Call} (hc : c ≠ .reset) :
    LineEnd.Chain t.beam.y (t.lineEndsIn c) (t.call c).beam.y := by
  cases c with
  | write address data => rw [call, beam_write]; rfl
  | tick n =>
    rw [call, (tick_eq_stepDots_dotsIn h n).1]
    exact t.chain_lineEnds _
  | takeFrame => rfl
  | setFire player pressed => rfl
  | reset => exact absurd rfl hc

/-- As long as the chip is not reset, its line ends are a row. -/
theorem chain_run {t : Tia} (h : t.beam.InRange) {calls : List Call} (hc : Call.reset ∉ calls) :
    LineEnd.Chain t.beam.y (t.lineEndsDuring calls) (t.run calls).beam.y := by
  induction calls generalizing t with
  | nil => rfl
  | cons c calls ih =>
    have hfirst := chain_call h (List.ne_of_not_mem_cons hc).symm
    exact hfirst.append (ih (beam_inRange_call h c) (List.not_mem_of_not_mem_cons hc))

/-- Whether a frame that was published is gone after the call. -/
def Call.dropsFrame : Call → Bool
  | .takeFrame | .reset => true
  | .write .. | .tick _ | .setFire .. => false

/-- The frames that are published and not gone after calls, oldest first. -/
def untaken (t : Tia) (frames : List Frame) : List Call → List Frame
  | [] => frames
  | c :: calls =>
    let kept := if c.dropsFrame then [] else frames ++ LineEnd.published (t.lineEndsIn c)
    (t.call c).untaken kept calls

/-- A tick leaves the frame of its last line end that wrapped, or the one from before. -/
theorem published_tick {t : Tia} (h : t.beam.InRange) (n : Nat) :
    (t.tick n).tia.published
      = (LineEnd.published (t.lineEndsIn (.tick n))).getLast?.or t.published := by
  rw [(tick_eq_stepDots_dotsIn h n).1]
  exact t.published_stepDots _

/-- What is offered is the last frame of those published since the last one was taken. -/
theorem published_call {t : Tia} (h : t.beam.InRange) {frames : List Frame}
    (hf : t.published = frames.getLast?) (c : Call) :
    (t.call c).published
      = (if c.dropsFrame then [] else frames ++ LineEnd.published (t.lineEndsIn c)).getLast? := by
  cases c with
  | write address data =>
    show (t.write address data).published = (frames ++ []).getLast?
    rw [published_write, hf, List.append_nil]
  | tick n =>
    rw [call, published_tick h, hf]
    exact List.getLast?_append.symm
  | setFire player pressed =>
    show t.published = (frames ++ []).getLast?
    rw [hf, List.append_nil]
  | takeFrame => rfl
  | reset => rfl

/-- What the chip hands out is the last frame that was published and is not
gone. -/
theorem published_run {t : Tia} (h : t.beam.InRange) {frames : List Frame}
    (hf : t.published = frames.getLast?) (calls : List Call) :
    (t.run calls).published = (t.untaken frames calls).getLast? := by
  induction calls generalizing t frames with
  | nil => exact hf
  | cons c calls ih => exact ih (beam_inRange_call h c) (published_call h hf c)

/-- A tick reports a frame for each of its line ends that wrapped. -/
theorem frames_tick {t : Tia} (h : t.beam.InRange) (n : Nat) :
    (t.tick n).frames = (t.lineEndsIn (.tick n)).countP LineEnd.wraps := by
  rw [(tick_eq_stepDots_dotsIn h n).2, framesWithin_eq_countP]
  rfl

end Tia

end VideoComputer
