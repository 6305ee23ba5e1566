/-
VideoComputer.Proofs.Video.Timing — what the time of the video chip depends on.

Time passes for the chip in strokes: it sweeps along a line, ends the line, and
lets a wait go. Where the strokes begin and end depends on little of the chip:
where the beam is, whether the program waits, and whether the picture is
blanked. `Tia.timing` is that much of it, and whether a frame is there to be
taken, which time changes and which changes nothing.

Two chips with the same timing make the same strokes. So whatever is true of two
chips side by side remains true while time passes, if each single stroke keeps
it. That is said once here, and used for chips with one timing, for chips that
show the same shapes, and for chips that mirror each other.

* `KeptByStrokes.tick` — a relation that strokes keep is kept by a tick.
* `keeps_tick` — and so is a property of a single chip.
* `Alongside` — relations between what is drawn and between what was latched.
* `timing_run` — all but a few calls may be left out, and the timing is the same.
-/
import VideoComputer.Proofs.Video.Positions

namespace VideoComputer

namespace Tia

/-! ## Timing -/

/-- All of a video chip that has a part in how time passes for it, and what is to
be seen of it from outside. -/
structure Timing where
  beam : Beam
  waiting : Bool
  verticalSync : Bool
  verticalBlank : Bool
  /-- Whether a complete frame can be taken. -/
  frameReady : Bool
  deriving DecidableEq, Repr

/-- The timing of a chip. -/
def timing (t : Tia) : Timing where
  beam := t.beam
  waiting := t.waiting
  verticalSync := t.scene.registers.verticalSync
  verticalBlank := t.scene.registers.verticalBlank
  frameReady := t.frameReady

section

variable {t t' : Tia} (h : t.timing = t'.timing)

include h

theorem beam_of_timing : t.beam = t'.beam := congrArg Timing.beam h

theorem waiting_of_timing : t.waiting = t'.waiting := congrArg Timing.waiting h

theorem frameReady_of_timing : t.frameReady = t'.frameReady := congrArg Timing.frameReady h

theorem isBlanked_of_timing : t.scene.registers.isBlanked = t'.scene.registers.isBlanked := by
  have hsync : t.scene.registers.verticalSync = t'.scene.registers.verticalSync :=
    congrArg Timing.verticalSync h
  have hblank : t.scene.registers.verticalBlank = t'.scene.registers.verticalBlank :=
    congrArg Timing.verticalBlank h
  rw [VideoRegisters.isBlanked, VideoRegisters.isBlanked, hsync, hblank]

theorem beamState_of_timing : t.beamState = t'.beamState := by
  have hsync : t.scene.registers.verticalSync = t'.scene.registers.verticalSync :=
    congrArg Timing.verticalSync h
  have hblank : t.scene.registers.verticalBlank = t'.scene.registers.verticalBlank :=
    congrArg Timing.verticalBlank h
  rw [beamState, beamState, hsync, hblank, beam_of_timing h]

theorem nextLine_of_timing : t.nextLine = t'.nextLine := by
  rw [nextLine, nextLine, isBlanked_of_timing h, beam_of_timing h]

theorem completesFrame_of_timing : t.completesFrame = t'.completesFrame := by
  rw [completesFrame, completesFrame, nextLine_of_timing h, beam_of_timing h]

end

/-! ## Strokes -/

theorem timing_sweepTo (t : Tia) (stop : Nat) :
    (t.sweepTo stop).timing = { t.timing with beam := { t.timing.beam with x := stop } } := rfl

/-- The end of a line takes the beam to the next one, and may make a frame ready. -/
theorem timing_endLine (t : Tia) :
    t.endLine.timing
      = { t.timing with
          beam := ⟨0, t.nextLine⟩, frameReady := t.completesFrame || t.timing.frameReady } := by
  cases hframe : t.completesFrame <;> simp [timing, endLine, frameReady, hframe]

theorem timing_dropWait (t : Tia) : t.dropWait.timing = { t.timing with waiting := false } := rfl

/-- Whether a relation between two chips is kept while time passes for both: they
make the same strokes, and every stroke keeps it. -/
structure KeptByStrokes (R : Tia → Tia → Prop) : Prop where
  timing {t t' : Tia} (h : R t t') : t.timing = t'.timing
  sweepTo {t t' : Tia} (h : R t t') (stop : Nat) : R (t.sweepTo stop) (t'.sweepTo stop)
  endLine {t t' : Tia} (h : R t t') : R t.endLine t'.endLine
  dropWait {t t' : Tia} (h : R t t') : R t.dropWait t'.dropWait

/-- What two stretches of time have in common: they leave chips that are related,
stall the program equally long and complete as many frames. -/
structure Progress.Match (R : Tia → Tia → Prop) (p p' : Progress) : Prop where
  tia : R p.tia p'.tia
  stall_eq : p.stall = p'.stall
  frames_eq : p.frames = p'.frames

/-! ## The grant of a wait -/

section

variable {t : Tia} (frames : Nat)

/-- Without a wait there is no stall, -/
theorem releaseWait_of_idle (h : t.waiting = false) (lineEnded : Bool) :
    t.releaseWait frames lineEnded = ⟨t, 0, frames⟩ := by
  simp [releaseWait, h]

/-- with one there is none if the line has just ended, -/
theorem releaseWait_of_lineEnded (h : t.waiting = true) :
    t.releaseWait frames true = ⟨t.dropWait, 0, frames⟩ := by
  simp [releaseWait, h, dropWait]

/-- and else the rest of the line is the stall. -/
theorem releaseWait_of_waiting (h : t.waiting = true) :
    t.releaseWait frames false
      = ⟨t.dropWait.finishLine, lineLength - t.beam.x, frames + t.completesFrame.toNat⟩ := by
  simp [releaseWait, h, dropWait]

end

namespace KeptByStrokes

variable {R : Tia → Tia → Prop} {t t' : Tia}

/-- What strokes keep is kept to the end of a line, -/
theorem finishLine (hR : KeptByStrokes R) (h : R t t') : R t.finishLine t'.finishLine :=
  hR.endLine (hR.sweepTo h lineLength)

/-- over several lines, -/
theorem finishLines (hR : KeptByStrokes R) (lines : Nat) (h : R t t') (frames : Nat) :
    Progress.Match R (Tia.finishLines lines t frames) (Tia.finishLines lines t' frames) := by
  induction lines generalizing t t' frames with
  | zero => exact ⟨h, rfl, rfl⟩
  | succ lines ih =>
    rw [Tia.finishLines, Tia.finishLines, completesFrame_of_timing (hR.timing h)]
    exact ih (hR.finishLine h) _

/-- and when a wait is released. -/
theorem releaseWait (hR : KeptByStrokes R) (h : R t t') (frames : Nat) (lineEnded : Bool) :
    Progress.Match R (t.releaseWait frames lineEnded) (t'.releaseWait frames lineEnded) := by
  have htiming := hR.timing h
  cases hw : t.waiting with
  | false =>
    have hw' : t'.waiting = false := waiting_of_timing htiming ▸ hw
    rw [releaseWait_of_idle frames hw, releaseWait_of_idle frames hw']
    exact ⟨h, rfl, rfl⟩
  | true =>
    have hw' : t'.waiting = true := waiting_of_timing htiming ▸ hw
    cases lineEnded with
    | true =>
      rw [releaseWait_of_lineEnded frames hw, releaseWait_of_lineEnded frames hw']
      exact ⟨hR.dropWait h, rfl, rfl⟩
    | false =>
      rw [releaseWait_of_waiting frames hw, releaseWait_of_waiting frames hw',
        beam_of_timing htiming, completesFrame_of_timing htiming]
      exact ⟨hR.finishLine (hR.dropWait h), rfl, rfl⟩

/-- What every stroke keeps, a tick keeps, and it stalls the program equally long
and completes as many frames. -/
theorem tick (hR : KeptByStrokes R) (h : R t t') (n : Nat) :
    Progress.Match R (t.tick n) (t'.tick n) := by
  have hlines := hR.finishLines ((t.beam.x + n) / lineLength) h 0
  have hswept := hR.sweepTo hlines.tia ((t.beam.x + n) % lineLength)
  have hreleased := hR.releaseWait hswept
    (Tia.finishLines ((t.beam.x + n) / lineLength) t 0).frames
    ((t.beam.x + n) / lineLength != 0)
  rw [Tia.tick, Tia.tick, ← beam_of_timing (hR.timing h)]
  simp only [← hlines.frames_eq]
  exact hreleased

end KeptByStrokes

/-- What every stroke keeps of a single chip, a tick keeps. -/
theorem keeps_tick {P : Tia → Prop} (hsweep : ∀ t stop, P t → P (t.sweepTo stop))
    (hend : ∀ t, P t → P t.endLine) (hdrop : ∀ t, P t → P t.dropWait) {t : Tia} (h : P t)
    (n : Nat) : P (t.tick n).tia := by
  have hR : KeptByStrokes fun t t' => t = t' ∧ P t := by
    constructor
    · rintro t _ ⟨rfl, -⟩
      rfl
    · rintro t _ ⟨rfl, ht⟩ stop
      exact ⟨rfl, hsweep t stop ht⟩
    · rintro t _ ⟨rfl, ht⟩
      exact ⟨rfl, hend t ht⟩
    · rintro t _ ⟨rfl, ht⟩
      exact ⟨rfl, hdrop t ht⟩
  exact (hR.tick ⟨rfl, h⟩ n).tia.2

/-- Chips with one timing keep it. -/
theorem keptByStrokes_timing : KeptByStrokes fun t t' => t.timing = t'.timing where
  timing h := h
  sweepTo h stop := by rw [timing_sweepTo, timing_sweepTo, h]
  endLine h := by
    rw [timing_endLine, timing_endLine, nextLine_of_timing h, completesFrame_of_timing h, h]
  dropWait h := by rw [timing_dropWait, timing_dropWait, h]

/-! ## Chips side by side -/

/-- Two chips with one timing, between whose scenes there is one relation, and
between whose latches another. -/
structure Alongside (P : Scene → Scene → Prop) (K : Collisions → Collisions → Prop) (t t' : Tia) :
    Prop where
  timing : t.timing = t'.timing
  scene : P t.scene t'.scene
  latches : K t.canvas.collisions t'.canvas.collisions

section

variable {P : Scene → Scene → Prop} {K : Collisions → Collisions → Prop} {f : Dot → Dot}

/-- If corresponding dots are drawn and every dot keeps the relation between the
latches, so does a stretch of dots. -/
theorem collisions_sweep (hK : ∀ {c c'} d, K c c' → K (c.record d) (c'.record (f d)))
    {s s' : Scene} (hdots : ∀ x, s'.dotAt x = f (s.dotAt x)) {y y' : Nat} (n x : Nat)
    {c c' : Canvas} (h : K c.collisions c'.collisions) :
    K (c.sweep s y n x).collisions (c'.sweep s' y' n x).collisions := by
  induction n generalizing x c c' with
  | zero => exact h
  | succ n ih =>
    refine ih (x + 1) ?_
    show K (c.collisions.record (s.dotAt x)) (c'.collisions.record (s'.dotAt x))
    rw [hdots]
    exact hK _ h

/-- Chips whose dots correspond go on side by side. -/
theorem keptByStrokes_alongside (hdots : ∀ {s s'}, P s s' → ∀ x, s'.dotAt x = f (s.dotAt x))
    (hK : ∀ {c c'} d, K c c' → K (c.record d) (c'.record (f d))) :
    KeptByStrokes (Alongside P K) where
  timing h := h.timing
  sweepTo {t t'} h stop := by
    refine ⟨keptByStrokes_timing.sweepTo h.timing stop, h.scene, ?_⟩
    simp only [sweepTo, ← isBlanked_of_timing h.timing, ← beam_of_timing h.timing]
    split
    · exact h.latches
    · exact collisions_sweep hK (hdots h.scene) _ _ h.latches
  endLine h := ⟨keptByStrokes_timing.endLine h.timing, h.scene, h.latches⟩
  dropWait h := ⟨keptByStrokes_timing.dropWait h.timing, h.scene, h.latches⟩

end

/-! ## Calls that have a part in the timing -/

/-- What is left of a write if all is left out that has no part in the timing: the
registers of the blanks and the one that asks for a wait, with the bits that
count. -/
def Call.timedWrite? (data : UInt8) : VideoRegister → Option Call
  | .verticalSync => some (.write 0x00 (flagAt (bitAt data 1) 1))
  | .verticalBlank => some (.write 0x01 (flagAt (bitAt data 1) 1))
  | .waitForLine => some (.write 0x02 0)
  | _ => none

/-- What is left of a call: of calls that are not writes, all but those about fire
buttons. -/
def Call.timed? : Call → Option Call
  | .write address data => timedWrite? data (.decode address)
  | .setFire .. => none
  | .tick dots => some (.tick dots)
  | .takeFrame => some .takeFrame
  | .reset => some .reset

/-- Of all writes, those to three registers have to do with timing. -/
theorem timing_write (t : Tia) (address : UInt16) (data : UInt8) :
    (t.write address data).timing
      = match VideoRegister.decode address with
        | .verticalSync => { t.timing with verticalSync := bitAt data 1 }
        | .verticalBlank => { t.timing with verticalBlank := bitAt data 1 }
        | .waitForLine => { t.timing with waiting := true }
        | _ => t.timing := by
  simp only [timing, frameReady, beam_write, published_write, waiting_write, scene_write,
    Scene.registers_write]
  cases VideoRegister.decode address with
  | graphics p => cases p <;> simp [VideoRegisters.write, VideoRegisters.writeGraphics]
  | _ => simp [VideoRegisters.write]

/-- A call does to the timing what is left of it does, if anything is. -/
theorem timing_call {t t' : Tia} (h : t.timing = t'.timing) (c : Call) :
    (t.call c).timing = (c.timed?.elim t' t'.call).timing := by
  cases c with
  | write address data =>
    have hflag : bitAt (flagAt (bitAt data 1) 1) 1 = bitAt data 1 := by
      rw [bitAt_flagAt _ (by decide)]
      exact Bool.and_true _
    rw [call, timing_write, h, Call.timed?]
    cases VideoRegister.decode address with
    | verticalSync | verticalBlank =>
      simp only [Call.timedWrite?, Option.elim, call]
      rw [timing_write, hflag]
      rfl
    | waitForLine =>
      simp only [Call.timedWrite?, Option.elim, call]
      rw [timing_write]
      rfl
    | _ => rfl
  | tick n => exact (keptByStrokes_timing.tick h n).tia
  | takeFrame => exact congrArg (fun s => { s with frameReady := false }) h
  | setFire player pressed => exact h
  | reset => rfl

/-- Calls of which the same is left do the same to the timing. -/
theorem timing_call_of_timed? {t t' : Tia} (h : t.timing = t'.timing) {c c' : Call}
    (hc : c.timed? = c'.timed?) : (t.call c).timing = (t'.call c').timing := by
  rw [timing_call h c, hc]
  exact (timing_call rfl c').symm

/-! ## Runs -/

/-- What is kept by corresponding calls is kept by runs of them. -/
theorem run_forall₂ {R : Tia → Tia → Prop} {S : Call → Call → Prop}
    (hcall : ∀ {t t' c c'}, R t t' → S c c' → R (t.call c) (t'.call c')) {calls calls' : List Call}
    (hcalls : List.Forall₂ S calls calls') {t t' : Tia} (h : R t t') :
    R (t.run calls) (t'.run calls') := by
  induction hcalls generalizing t t' with
  | nil => exact h
  | cons hfirst _ ih => exact ih (hcall h hfirst)

/-- The stall that a call reports, if it is a tick. -/
def stallIn (t : Tia) : Call → List Nat
  | .tick dots => [(t.tick dots).stall]
  | .write .. | .takeFrame | .setFire .. | .reset => []

/-- The stalls that the ticks among calls report, one after the other. -/
def stalls (t : Tia) : List Call → List Nat
  | [] => []
  | c :: calls => t.stallIn c ++ (t.call c).stalls calls

/-- Two chips with the same timing stall for the same calls alike. -/
theorem stallIn_eq {t t' : Tia} (h : t.timing = t'.timing) (c : Call) :
    t.stallIn c = c.timed?.elim [] t'.stallIn := by
  cases c with
  | write address data =>
    rw [Call.timed?]
    cases VideoRegister.decode address <;> rfl
  | tick n => exact congrArg (fun stall => [stall]) (keptByStrokes_timing.tick h n).stall_eq
  | _ => rfl

/-- Calls without a part in the timing may be left out. -/
theorem timing_run {t t' : Tia} (h : t.timing = t'.timing) (calls : List Call) :
    (t.run calls).timing = (t'.run (calls.filterMap Call.timed?)).timing
      ∧ t.stalls calls = t'.stalls (calls.filterMap Call.timed?) := by
  induction calls generalizing t t' with
  | nil => exact ⟨h, rfl⟩
  | cons c calls ih =>
    have hcall := timing_call h c
    have hstall := stallIn_eq h c
    rw [List.filterMap_cons, run_cons, stalls]
    cases hc : c.timed? with
    | none =>
      rw [hc] at hcall hstall
      rw [hstall]
      exact ih hcall
    | some c' =>
      rw [hc] at hcall hstall
      rw [hstall]
      obtain ⟨htiming, hstalls⟩ := ih hcall
      exact ⟨htiming, congrArg (t'.stallIn c' ++ ·) hstalls⟩

/-- Runs of which the same is left have the same timing, and report the same
stalls. -/
theorem timing_run_of_timed? {t t' : Tia} (h : t.timing = t'.timing) {calls calls' : List Call}
    (hcalls : calls.filterMap Call.timed? = calls'.filterMap Call.timed?) :
    (t.run calls).timing = (t'.run calls').timing ∧ t.stalls calls = t'.stalls calls' := by
  obtain ⟨htiming, hstalls⟩ := timing_run h calls
  obtain ⟨htiming', hstalls'⟩ := timing_run (t := t') rfl calls'
  rw [hcalls] at htiming hstalls
  exact ⟨htiming.trans htiming'.symm, hstalls.trans hstalls'.symm⟩

end Tia

end VideoComputer
