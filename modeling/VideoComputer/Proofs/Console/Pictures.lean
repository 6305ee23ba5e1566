/-
VideoComputer.Proofs.Console.Pictures — how pictures get from the beam to whoever
looks at them.

The video chip publishes a frame where a line ends and the line counter comes
back to 0, and holds it until it is taken. A console that runs frames takes it
after every instruction, and holds it in a second place until somebody asks for a
picture. An instruction takes no more than a line, so it ends at most one line
and publishes at most one frame, and nothing is lost between the two places.

* `publishedByStep` — what an instruction publishes.
* `Relays` — the invariant between two instructions.
* `Session.untaken` — the frames that were published and not gone since.
* `frames_published_at_wraps` — both places hold the last of these.
-/
import VideoComputer.Proofs.Console.Pacing
import VideoComputer.Proofs.Video.LineEnds

namespace VideoComputer.Console

/-! ## One instruction -/

/-- The frames that the next instruction publishes, oldest first. -/
def publishedByStep (c : Console) : List Frame :=
  LineEnd.published (c.chipsAfterInstruction.tia.lineEndsIn (.tick c.instructionDots))

/-- An instruction is no longer than a line, so it ends one line at most. -/
theorem length_publishedByStep {c : Console} (h : c.chips.tia.beam.InRange) :
    c.publishedByStep.length ≤ 1 := by
  have hx : c.chipsAfterInstruction.tia.beam.x < lineLength :=
    c.beam_chipsAfterInstruction ▸ h.x_lt
  have hdots : c.dotsOfStep ≤ lineLength := c.dotsOfStep_le
  have hends : (c.chipsAfterInstruction.tia.lineEnds c.dotsOfStep).length ≤ 1 := by
    rw [Tia.length_lineEnds _ hx]
    simp only [lineLength] at *
    omega
  rw [publishedByStep, LineEnd.length_published]
  exact Nat.le_trans List.countP_le_length hends

/-- A console between two instructions of a frame: the video chip holds no frame
that the console has not got, and the console holds the last of some frames. -/
structure Relays (c : Console) (frames : List Frame) : Prop where
  inRange : c.chips.tia.beam.InRange
  collected : c.chips.tia.published = none
  picture : c.picture = frames.getLast?

namespace Relays

variable {c : Console} {frames : List Frame}

/-- An instruction with the collection behind it. -/
theorem step (h : c.Relays frames) :
    c.step.console.collectPicture.Relays (frames ++ c.publishedByStep) := by
  have hheld : c.chipsAfterInstruction.tia.published = c.chips.tia.published :=
    Bus.published_accessed c.machine.accessed_step
  have hrange : c.chipsAfterInstruction.tia.beam.InRange :=
    c.beam_chipsAfterInstruction ▸ h.inRange
  have hpublished := Tia.published_tick hrange c.instructionDots
  rw [hheld, h.collected, Option.or_none] at hpublished
  constructor
  · exact Tia.beam_inRange_tick hrange c.instructionDots
  · rfl
  · show (c.chipsAfterInstruction.tia.tick c.instructionDots).tia.published.or c.picture = _
    rw [hpublished, h.picture]
    exact List.getLast?_append.symm

theorem nextFrame (h : c.Relays frames) : c.nextFrame.Relays frames :=
  ⟨h.inRange, h.collected, h.picture⟩

theorem send (h : c.Relays frames) (event : InputEvent) : (c.send event).Relays frames :=
  ⟨h.inRange, h.collected, h.picture⟩

/-- Input reaches the ports and the fire buttons only. -/
theorem takeInput (h : c.Relays frames) : c.takeInput.Relays frames := by
  unfold Console.takeInput
  simp only
  split
  · exact ⟨h.inRange, h.collected, h.picture⟩
  · exact ⟨h.inRange, h.collected, h.picture⟩

/-- The instructions of a frame, one after the other. -/
theorem frameLoop {c' : Console} {executed : List Console} (h : c.Relays frames)
    (hloop : FrameLoop c executed c') :
    c'.Relays (frames ++ executed.flatMap publishedByStep)
      ∧ ∀ i ∈ executed, i.publishedByStep.length ≤ 1 := by
  induction hloop generalizing frames with
  | done =>
    rw [List.flatMap_nil, List.append_nil]
    exact ⟨h, fun _ hi => nomatch hi⟩
  | next _ _ ih =>
    obtain ⟨hrelays, hall⟩ := ih h.step
    rw [List.append_assoc] at hrelays
    exact ⟨hrelays, List.forall_mem_cons.mpr ⟨length_publishedByStep h.inRange, hall⟩⟩

end Relays

/-- A console that was just reset holds no picture, and neither does its chip. -/
theorem relays_nil {c : Console} {t : Tia} (h : c.chips.tia = t) (hbeam : t.beam = ⟨0, 0⟩)
    (hheld : t.published = none) (hpicture : c.picture = none) : c.Relays [] := by
  constructor
  · rw [h, hbeam]
    exact Tia.beam_inRange_powerOn
  · rw [h, hheld]
  · exact hpicture

theorem relays_powerOn (settings : Settings) : (powerOn settings).Relays [] :=
  relays_nil (Bus.tia_machineReset _) rfl rfl rfl

theorem relays_reset (c : Console) : c.reset.Relays [] :=
  relays_nil (Bus.tia_machineReset _) rfl rfl rfl

/-! ## Sessions -/

/-- Whether a picture that was published is gone after the call. -/
def Call.dropsPicture : Call → Bool
  | .takePicture | .reset | .insert _ => true
  | .step | .runFrame | .send _ => false

namespace Session

/-- The frames that are published during a call, oldest first. -/
def publishedIn (s : Session) : Call → List Frame
  | .step => s.console.publishedByStep
  | .runFrame =>
    if s.console.hasCartridge then s.console.instructionsOfFrame.flatMap publishedByStep else []
  | .reset | .insert _ | .send _ | .takePicture => []

/-- The frames that are published and not gone after calls, oldest first. -/
def untaken (s : Session) (frames : List Frame) : List Call → List Frame
  | [] => frames
  | call :: calls =>
    let kept := if call.dropsPicture then [] else frames ++ s.publishedIn call
    (s.call call).untaken kept calls

/-- The invariant of a session in which instructions are executed in frames
only. -/
structure Relays (s : Session) (frames : List Frame) : Prop where
  console : s.console.Relays frames
  executed : ∀ c ∈ s.executed, c.publishedByStep.length ≤ 1

theorem relays_fresh {c : Console} {frames : List Frame} (h : c.Relays frames) :
    (fresh c).Relays frames :=
  ⟨h, fun _ hi => nomatch hi⟩

/-- A call relays what was published during it, unless it drops the picture. -/
theorem relays_call {s : Session} {frames : List Frame} (h : s.Relays frames) {call : Call}
    (hcall : call ≠ .step) :
    (s.call call).Relays (if call.dropsPicture then [] else frames ++ s.publishedIn call) := by
  cases call with
  | runFrame =>
    show (s.call .runFrame).Relays (frames ++ s.publishedIn .runFrame)
    cases hslot : s.console.hasCartridge with
    | false =>
      simpa [publishedIn, hslot, call_runFrame_of_empty hslot] using h
    | true =>
      obtain ⟨c', hloop, hcall⟩ := call_runFrame hslot
      obtain ⟨hrelays, hall⟩ := h.console.takeInput.frameLoop hloop
      rw [hcall, publishedIn, if_pos hslot]
      exact ⟨hrelays.nextFrame, List.forall_mem_append.mpr ⟨h.executed, hall⟩⟩
  | send event =>
    show (s.call (.send event)).Relays (frames ++ [])
    rw [List.append_nil]
    exact ⟨h.console.send event, h.executed⟩
  | takePicture => exact ⟨⟨h.console.inRange, h.console.collected, rfl⟩, h.executed⟩
  | reset => exact relays_fresh (relays_reset s.console)
  | insert cartridge =>
    refine relays_fresh ?_
    rw [insert_eq]
    exact relays_reset _
  | step => exact absurd rfl hcall

/-- A run without single instructions relays every frame that nobody has taken. -/
theorem relays_run {s : Session} {frames : List Frame} (h : s.Relays frames) {calls : List Call}
    (hcalls : Call.step ∉ calls) : (s.run calls).Relays (s.untaken frames calls) := by
  induction calls generalizing s frames with
  | nil => exact h
  | cons call calls ih =>
    have hfirst := relays_call h (List.ne_of_not_mem_cons hcalls).symm
    exact ih hfirst (List.not_mem_of_not_mem_cons hcalls)

end Session

/-! ## From the beam to the picture -/

/-- As long as the video chip is not reset, its line ends are a row: each sets
the line counter to 0 if the picture is blanked and to the next of the picture's
lines otherwise. Any stretch of them publishes as many frames as lines come round
if nothing in it is blanked, and one, unless it begins at line 0, if everything
is. Whatever the chip was asked for, it hands out the last frame that was
published at a line end where the counter came back to 0, as the picture was then,
and only once; and a tick reports all of them.

A console that executes instructions in frames only publishes one frame an
instruction at most, and hands out the last one that was published since it handed
one out or was reset, if there was any. -/
theorem frames_published_at_wraps :
    (∀ past calls, Tia.Call.reset ∉ calls →
        let t := Tia.powerOn.run past
        LineEnd.Chain t.beam.y (t.lineEndsDuring calls) (t.run calls).beam.y
          ∧ ∀ e stretch, e :: stretch <:+: t.lineEndsDuring calls →
              ((∀ e' ∈ e :: stretch, e'.blanked = false) →
                (e :: stretch).countP LineEnd.wraps = (e.line + (e :: stretch).length) / lineCount)
              ∧ ((∀ e' ∈ e :: stretch, e'.blanked = true) →
                (e :: stretch).countP LineEnd.wraps = if e.line = 0 then 0 else 1))
      ∧ (∀ calls,
        let t := Tia.powerOn.run calls
        t.takeFrame.1 = (Tia.powerOn.untaken [] calls).getLast?
          ∧ ∀ n, (t.tick n).frames = (t.lineEndsIn (.tick n)).countP LineEnd.wraps)
      ∧ ∀ settings calls, Call.step ∉ calls →
        let s := Session.played settings calls
        (∀ c ∈ s.executed, c.publishedByStep.length ≤ 1)
          ∧ s.console.takePicture.1
            = ((Session.fresh (powerOn settings)).untaken [] calls).getLast? := by
  refine ⟨?_, ?_, ?_⟩
  · intro past calls hcalls t
    have hrange := (Tia.Reachable.powerOn.run past).beam_inRange
    have hchain := Tia.chain_run hrange hcalls
    refine ⟨hchain, ?_⟩
    intro e stretch hwithin
    obtain ⟨z, z', hstretch⟩ := hchain.of_stretch hwithin
    have hline := hchain.line_lt hrange.y_lt e (hwithin.subset List.mem_cons_self)
    refine ⟨fun hon => ?_, LineEnd.countP_wraps_blanked hstretch⟩
    rw [hstretch.1] at hline ⊢
    exact LineEnd.countP_wraps_unblanked hstretch hline hon
  · intro calls t
    have hrange := (Tia.Reachable.powerOn.run calls).beam_inRange
    exact ⟨Tia.published_run Tia.beam_inRange_powerOn rfl calls, Tia.frames_tick hrange⟩
  · intro settings calls hcalls s
    have hs := Session.relays_run (Session.relays_fresh (relays_powerOn settings)) hcalls
    exact ⟨hs.executed, hs.console.picture⟩

/-- The vertical blank begins before the last dot of line 3: the line's end publishes
a frame, which is there to be taken. And a console that runs two frames with a
picture taken between them hands out the last frame of the second. -/
theorem frames_published_at_wraps_blankOnLineThree :
    ((Tia.powerOn.run [.tick 911]).lineEndsDuring [.write 0x01 0x02, .tick 1]).countP LineEnd.wraps
        = 1
      ∧ (Tia.powerOn.run [.tick 911, .write 0x01 0x02, .tick 1]).takeFrame.1
        = (Tia.powerOn.untaken [] [.tick 911, .write 0x01 0x02, .tick 1]).getLast?
      ∧ let calls := [.insert idleCartridge, .runFrame, .takePicture, .runFrame]
        (Session.played .standard calls).console.takePicture.1
          = ((Session.fresh (powerOn .standard)).untaken [] calls).getLast? := by
  obtain ⟨hlines, hchip, hconsole⟩ := frames_published_at_wraps
  refine ⟨?_, (hchip _).1, (hconsole _ _ (by simp)).2⟩
  have hends : (Tia.powerOn.run [.tick 911]).lineEndsDuring [.write 0x01 0x02, .tick 1]
      = [((Tia.powerOn.run [.tick 911]).write 0x01 0x02).lineEnd] := rfl
  have hwithin : [((Tia.powerOn.run [.tick 911]).write 0x01 0x02).lineEnd]
      <:+: (Tia.powerOn.run [.tick 911]).lineEndsDuring [.write 0x01 0x02, .tick 1] :=
    hends ▸ List.infix_rfl
  have hcount := ((hlines [.tick 911] [.write 0x01 0x02, .tick 1] (by simp)).2 _ [] hwithin).2
  rw [hends]
  exact hcount (List.forall_mem_singleton.mpr rfl)

end VideoComputer.Console
