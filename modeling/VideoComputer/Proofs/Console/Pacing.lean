/-
VideoComputer.Proofs.Console.Pacing — frames neither drag on nor drift.

A frame ends with the instruction that takes it to its number of dots. What
that instruction ran over is taken from the next frame, so nothing adds up: a
console that runs frame after frame is never further than a line from where
whole frames would have taken it.

* `Session.Paced` — the invariant between two calls.
* `Session.paced_call`, `Session.paced_run` — it is kept.
* `frames_do_not_drift` — every frame ends, and frames do not drift.
-/
import VideoComputer.Proofs.Console.Lockstep

namespace VideoComputer.Console

namespace Session

/-! ## The invariant -/

/-- Since the last reset, the video chip was advanced by whole frames and by
what has passed of the current one, which is less than a line. -/
structure Paced (s : Session) : Prop where
  dots_eq : s.dots = s.frames * dotsPerFrame.toNat + s.console.frameDots.toNat
  frameDots_lt : s.console.frameDots.toNat < lineLength

/-- Behind a reset nothing has passed. -/
theorem paced_reset (c : Console) : (fresh c.reset).Paced := by
  have hbegun : c.reset.frameDots = 0 := rfl
  constructor
  · show 0 = 0 * dotsPerFrame.toNat + c.reset.frameDots.toNat
    rw [hbegun, Nat.zero_mul]
    rfl
  · show c.reset.frameDots.toNat < lineLength
    rw [hbegun]
    exact Tia.lineLength_pos

/-- A call that resets the console begins a session of its own. -/
theorem paced_call_of_resets (s : Session) {call : Call} (h : call.resets = true) :
    (s.call call).Paced := by
  cases call with
  | reset => exact paced_reset s.console
  | insert cartridge =>
    show (fresh (s.console.insert cartridge)).Paced
    rw [insert_eq]
    exact paced_reset _
  | step | runFrame | takePicture => cases h
  | send event => cases h

/-- What the loop of a frame leaves, less a frame, is less than a line, and the
next frame begins with it. -/
theorem paced_frame {s : Session} (h : s.Paced) : (s.call .runFrame).Paced := by
  cases hslot : s.console.hasCartridge with
  | false =>
    rw [call_runFrame_of_empty hslot]
    exact h
  | true =>
    obtain ⟨c', hloop, hcall⟩ := call_runFrame hslot
    have hbegun := h.frameDots_lt
    have htotal : dotsOf s.executed = s.frames * dotsPerFrame.toNat + s.console.frameDots.toNat :=
      h.dots_eq
    obtain ⟨hcount, hover⟩ := hloop.dots_eq
    have hless := hloop.frameDots_lt (by rw [frameDots_takeInput]; omega)
    rw [frameDots_takeInput] at hcount
    have hrest := frameDots_nextFrame_toNat hover
    rw [hcall]
    constructor
    · show dotsOf (s.executed ++ s.console.instructionsOfFrame)
        = (s.frames + 1) * dotsPerFrame.toNat + c'.nextFrame.frameDots.toNat
      rw [dotsOf_append, htotal, hrest, Nat.succ_mul]
      omega
    · show c'.nextFrame.frameDots.toNat < lineLength
      rw [hrest]
      omega

/-- A call that lets time pass in frames keeps the pace, -/
theorem paced_call {s : Session} (h : s.Paced) {call : Call} (hcall : call.isPaced = true) :
    (s.call call).Paced := by
  cases call with
  | runFrame => exact paced_frame h
  | send event => exact ⟨h.dots_eq, h.frameDots_lt⟩
  | takePicture => exact ⟨h.dots_eq, h.frameDots_lt⟩
  | step | reset => cases hcall
  | insert cartridge => cases hcall

/-- and so does a run of them. -/
theorem paced_run {s : Session} (h : s.Paced) {calls : List Call}
    (hcalls : ∀ call ∈ calls, call.isPaced = true) : (s.run calls).Paced := by
  induction calls generalizing s with
  | nil => exact h
  | cons call calls ih =>
    obtain ⟨hfirst, hrest⟩ := List.forall_mem_cons.mp hcalls
    exact ih (paced_call h hfirst) hrest

/-! ## Counting frames -/

/-- A reset empties the session. -/
theorem frames_call_of_resets (s : Session) {call : Call} (h : call.resets = true) :
    (s.call call).frames = 0 := by
  cases call with
  | reset => rfl
  | insert cartridge => rfl
  | step | runFrame | takePicture => cases h
  | send event => cases h

/-- A call that does not reset the console leaves the cartridge where it is, and
with one every call for a frame is answered. -/
theorem frames_call {s : Session} (hslot : s.console.hasCartridge = true) {call : Call}
    (hcall : call.isPaced = true) :
    (s.call call).console.hasCartridge = true
      ∧ (s.call call).frames = s.frames + call.isFrame.toNat := by
  cases call with
  | runFrame =>
    obtain ⟨c', hloop, hcall⟩ := call_runFrame hslot
    rw [hcall]
    refine ⟨?_, rfl⟩
    show c'.hasCartridge = true
    rw [hloop.hasCartridge_eq, hasCartridge_takeInput, hslot]
  | send event => exact ⟨hslot, rfl⟩
  | takePicture => exact ⟨hslot, rfl⟩
  | step | reset => cases hcall
  | insert cartridge => cases hcall

/-- Every call for a frame is a frame. -/
theorem frames_run {s : Session} (hslot : s.console.hasCartridge = true) {calls : List Call}
    (hcalls : ∀ call ∈ calls, call.isPaced = true) :
    (s.run calls).frames = s.frames + calls.countP Call.isFrame := by
  induction calls generalizing s with
  | nil => rfl
  | cons call calls ih =>
    obtain ⟨hfirst, hrest⟩ := List.forall_mem_cons.mp hcalls
    obtain ⟨hslot', hframes⟩ := frames_call hslot hfirst
    rw [run_cons, ih hslot' hrest, hframes, List.countP_cons]
    cases call.isFrame with
    | true => simp only [Bool.toNat_true, if_true]; omega
    | false => simp

end Session

/-! ## Frames -/

/-- Whatever the program does, a frame with a cartridge in the slot comes to its
end, after at most as many instructions as there are six dots in a frame. And
whatever was done before a reset, or before another cartridge was put in: if
time only passes in frames from then on, the video chip has been advanced by
whole frames and less than a line, whatever input is sent and whatever pictures
are taken between them. Those dots are the ones it drew, instruction by instruction,
and the beam is where they take it. -/
theorem frames_do_not_drift :
    (∀ c : Console, c.hasCartridge = true →
      ∃ c' executed notices, FrameLoop c.takeInput executed c'
        ∧ executed.length ≤ (dotsPerFrame.toNat + 5) / 6
        ∧ c.runFrame = ⟨c'.nextFrame, cyclesOf executed, notices, none⟩)
      ∧ ∀ settings past start play, start.resets = true →
          (∀ call ∈ play, call.isPaced = true) →
          let s := Session.played settings (past ++ start :: play)
          s.dots = s.frames * dotsPerFrame.toNat + s.console.frameDots.toNat
            ∧ s.console.frameDots.toNat < lineLength
            ∧ (∀ c ∈ s.executed, c.step.console.chips.tia
                = c.chipsAfterInstruction.tia.dropWait.stepDots c.dotsOfStep)
            ∧ s.console.chips.tia.beam.x = s.dots % lineLength
            ∧ (((Session.played settings past).call start).console.hasCartridge = true →
                s.frames = play.countP Call.isFrame) := by
  constructor
  · intro c hslot
    obtain ⟨c', notices, hloop, hframe⟩ := runFrame_of_hasCartridge hslot
    refine ⟨c', c.instructionsOfFrame, notices, hloop, ?_, hframe⟩
    have hlength := hloop.length_le
    omega
  · intro settings past start play hstart hplay s
    have hs : s = ((Session.played settings past).call start).run play :=
      Session.run_append _ past (start :: play)
    have hpaced := Session.paced_run
      ((Session.played settings past).paced_call_of_resets hstart) hplay
    have hlockstep : s.InLockstep := Session.inLockstep_played settings _
    refine ⟨by rw [hs]; exact hpaced.dots_eq, by rw [hs]; exact hpaced.frameDots_lt,
      fun c hc => (hlockstep.executed c hc).tia_eq, hlockstep.beam_x, ?_⟩
    rw [hs]
    intro hslot
    rw [Session.frames_run hslot hplay, Session.frames_call_of_resets _ hstart, Nat.zero_add]

/-- A cartridge on which there are only instructions that do nothing. -/
def idleCartridge : Cartridge := ⟨"idle", .replicate 2048 0xEA, .inl Array.size_replicate⟩

/-- A frame of it; and two frames with a fire button pressed and a picture taken
between them, after an instruction that was executed without a cartridge. -/
theorem frames_do_not_drift_idleCartridge :
    (∃ c' executed notices,
        FrameLoop ((powerOn .standard).insert idleCartridge).takeInput executed c'
          ∧ executed.length ≤ 9944
          ∧ ((powerOn .standard).insert idleCartridge).runFrame
              = ⟨c'.nextFrame, cyclesOf executed, notices, none⟩)
      ∧ let s := Session.played .standard
          ([.step] ++ .insert idleCartridge
            :: [.runFrame, .send (.fire .one true), .takePicture, .runFrame])
        s.frames = 2
          ∧ s.dots = s.frames * dotsPerFrame.toNat + s.console.frameDots.toNat
          ∧ s.console.frameDots.toNat < lineLength
          ∧ s.console.chips.tia.beam.x = s.dots % lineLength := by
  obtain ⟨hends, hpace⟩ := frames_do_not_drift
  refine ⟨hends _ (hasCartridge_insert _ idleCartridge), ?_⟩
  obtain ⟨hdots, hless, -, hbeam, hframes⟩ := hpace .standard [.step] (.insert idleCartridge)
    [.runFrame, .send (.fire .one true), .takePicture, .runFrame] rfl (by decide)
  exact ⟨hframes (hasCartridge_insert _ idleCartridge), hdots, hless, hbeam⟩

end VideoComputer.Console
