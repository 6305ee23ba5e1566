/-
VideoComputer.Proofs.Video.Outlines — what graphics have no part in, and what
colors have no part in.

A program counts on the time of the video chip whatever is on the screen. It
waits for the end of a line and finds itself at the left of the next one, and if
a picture were slower than another, no program could be written. So nothing of
the graphics gets into the timing: calls that draw may be put between the others
or left out.

Colors are farther away still. They decide how a dot looks and not what is there,
so they get into nothing but the picture. The `outlines` of a scene are what is
left of it if colors and sound are blotted out.

* `Scene.outlines_write` — a write does not look beyond the outlines.
* `Call.SameOutlines` — calls that differ in colors and sound at most.
* `Tia.timing_ignores_graphics` — both, for two runs.
-/
import VideoComputer.Proofs.Video.Meetings
import VideoComputer.Proofs.Video.Timing

namespace VideoComputer

/-! ## Registers and scenes without color -/

/-- Whether two bytes written to a register differ in color and sound at most. -/
def VideoRegister.SameOutlines (data data' : UInt8) : VideoRegister → Prop
  | .playerColor _ | .playfieldColor | .backgroundColor => True
  | .audioControl _ | .audioFrequency _ | .audioVolume _ => True
  | .control => ∀ n < 8, n ≠ 1 → n ≠ 2 → bitAt data n = bitAt data' n
  | _ => data = data'

theorem VideoRegister.sameOutlines_refl (data : UInt8) (r : VideoRegister) :
    r.SameOutlines data data := by
  cases r <;> simp [VideoRegister.SameOutlines]

namespace VideoRegisters

/-- The registers with color and sound blotted out. -/
def outlines (r : VideoRegisters) : VideoRegisters :=
  { r with
    playerColor := .both 0, playfieldColor := 0, backgroundColor := 0
    control := { r.control with score := false, priority := false }
    audioControl := .both 0, audioFrequency := .both 0, audioVolume := .both 0 }

/-- A write that gives the same outlines may take the place of another one. -/
theorem outlines_write (r : VideoRegisters) {register : VideoRegister} {data data' : UInt8}
    (h : register.SameOutlines data data') :
    (r.write register data).outlines = (r.outlines.write register data').outlines := by
  cases register with
  | playerColor | playfieldColor | backgroundColor => rfl
  | audioControl | audioFrequency | audioVolume => rfl
  | control =>
    have hreflect := h 0 (by decide) (by decide) (by decide)
    have hfour := h 4 (by decide) (by decide) (by decide)
    have hfive := h 5 (by decide) (by decide) (by decide)
    have hsize := twoBitsAt_congr hfour hfive
    simp only [write, outlines, PlayfieldControl.ofByte, hreflect, hsize]
  | graphics p =>
    cases h
    cases p <;> rfl
  | _ =>
    cases h
    rfl

end VideoRegisters

namespace Scene

/-- The scene with color and sound blotted out. -/
def outlines (s : Scene) : Scene := s.mapRegisters VideoRegisters.outlines

/-- What is present at a dot is a matter of the outlines. -/
theorem dotAt_outlines (s : Scene) (x : Nat) : s.outlines.dotAt x = s.dotAt x := rfl

/-- A write does not look beyond the outlines of what there was. -/
theorem outlines_write (s : Scene) (x : Nat) {r : VideoRegister} {data data' : UInt8}
    (h : r.SameOutlines data data') :
    (s.write x r data).outlines = (s.outlines.write x r data').outlines :=
  mapRegisters_write (f := VideoRegisters.outlines) ⟨fun _ => rfl, fun _ => rfl, fun _ => rfl⟩ s
    (fun registers => registers.outlines_write h) x

end Scene

namespace Tia

/-! ## Calls that differ in color -/

/-- Calls that are the same, or write bytes that differ in color and sound at most
to the same register. -/
inductive Call.SameOutlines : Call → Call → Prop
  | refl (c : Call) : SameOutlines c c
  | write (address : UInt16) {data data' : UInt8}
      (h : (VideoRegister.decode address).SameOutlines data data') :
      SameOutlines (.write address data) (.write address data')

/-- Color has no part in the timing. -/
theorem Call.SameOutlines.timed?_eq {c c' : Call} (h : c.SameOutlines c') :
    c.timed? = c'.timed? := by
  cases h with
  | refl => rfl
  | write address h =>
    rw [Call.timed?, Call.timed?]
    cases hr : VideoRegister.decode address with
    | verticalSync | verticalBlank =>
      rw [hr] at h
      cases h
      rfl
    | _ => rfl

/-- Chips with one timing, the same outlines and the same latches. -/
abbrev SameOutlines : Tia → Tia → Prop :=
  Alongside (fun s s' => s.outlines = s'.outlines) Eq

/-- Neither dots nor lines draw an outline. -/
theorem keptByStrokes_sameOutlines : KeptByStrokes SameOutlines := by
  refine keptByStrokes_alongside (f := id) ?_ ?_
  · intro s s' h x
    rw [← s'.dotAt_outlines, ← h]
    rfl
  · rintro c c' d rfl
    rfl

/-- Two calls that give the same outlines keep them the same. -/
theorem sameOutlines_call {t t' : Tia} {c c' : Call} (h : SameOutlines t t')
    (hc : c.SameOutlines c') : SameOutlines (t.call c) (t'.call c') := by
  have hwrite : ∀ address data data',
      (VideoRegister.decode address).SameOutlines data data' →
        SameOutlines (t.write address data) (t'.write address data') := by
    intro address data data' hsame
    refine ⟨?_, ?_, ?_⟩
    · exact timing_call_of_timed? h.timing (Call.SameOutlines.write address hsame).timed?_eq
    · rw [scene_write, scene_write, Scene.outlines_write _ _ hsame, h.scene,
        ← Scene.outlines_write _ _ (VideoRegister.sameOutlines_refl data' _),
        beam_of_timing h.timing]
    · rw [collisions_write, collisions_write, h.latches]
  cases hc with
  | write address hsame => exact hwrite address _ _ hsame
  | refl c =>
    cases c with
    | write address data => exact hwrite address data data (VideoRegister.sameOutlines_refl data _)
    | tick n => exact (keptByStrokes_sameOutlines.tick h n).tia
    | takeFrame => exact ⟨timing_call_of_timed? h.timing (c := .takeFrame) rfl, h.scene, h.latches⟩
    | setFire player pressed => exact ⟨h.timing, h.scene, h.latches⟩
    | reset => exact ⟨rfl, rfl, rfl⟩

/-! ## Two runs -/

/-- Two chips with the same timing are asked for whatever it is, but with the same
ticks, the same frames taken and the same writes to the registers that have a part
in the timing: every tick reports the same stall, and the beam, what it is doing,
and whether there is a frame agree. And if one chip is asked in two ways that
differ in color and sound at most, the latches and positions agree as well. As the
calls may be the beginnings of longer runs, all of this is so at every point. -/
theorem timing_ignores_graphics :
    (∀ t t' : Tia, t.timing = t'.timing →
        ∀ calls calls' : List Call,
          calls.filterMap Call.timed? = calls'.filterMap Call.timed? →
          t.stalls calls = t'.stalls calls'
            ∧ (t.run calls).beam = (t'.run calls').beam
            ∧ (t.run calls).beamState = (t'.run calls').beamState
            ∧ (t.run calls).frameReady = (t'.run calls').frameReady)
      ∧ ∀ (t : Tia) (calls calls' : List Call), List.Forall₂ Call.SameOutlines calls calls' →
          t.stalls calls = t.stalls calls'
            ∧ (t.run calls).timing = (t.run calls').timing
            ∧ (t.run calls).canvas.collisions = (t.run calls').canvas.collisions
            ∧ (t.run calls).scene.positions = (t.run calls').scene.positions := by
  constructor
  · intro t t' h calls calls' hcalls
    obtain ⟨htiming, hstalls⟩ := timing_run_of_timed? h hcalls
    exact ⟨hstalls, beam_of_timing htiming, beamState_of_timing htiming,
      frameReady_of_timing htiming⟩
  · intro t calls calls' hcalls
    have htimed : calls.filterMap Call.timed? = calls'.filterMap Call.timed? := by
      induction hcalls with
      | nil => rfl
      | cons hfirst _ ih => rw [List.filterMap_cons, List.filterMap_cons, hfirst.timed?_eq, ih]
    have hrun : SameOutlines (t.run calls) (t.run calls') :=
      run_forall₂ (R := SameOutlines) sameOutlines_call hcalls ⟨rfl, rfl, rfl⟩
    have hpositions := congrArg Scene.positions hrun.scene
    exact ⟨(timing_run_of_timed? rfl htimed).2, hrun.timing, hrun.latches, hpositions⟩

/-- A chip with a player and a playfield in place. -/
def furnished : Tia := powerOn.run [.write 0x1B 0xFF, .write 0x0D 0xF0]

/-- It is made to wait in the middle of a line as a chip at power-on is, and a player
is put somewhere meanwhile. And player and playfield meet, whatever colors they
have. -/
theorem timing_ignores_graphics_furnished :
    furnished.stalls [.tick 100, .write 0x10 0x00, .write 0x42 0x07, .tick 3] = [0, 125]
      ∧ (furnished.run [.write 0x06 0x1E, .write 0x0A 0x06, .tick 80]).canvas.collisions
        = (furnished.run [.write 0x06 0x02, .write 0x0A 0x00, .tick 80]).canvas.collisions := by
  constructor
  · have hbare := timing_ignores_graphics.1 furnished powerOn rfl
      [.tick 100, .write 0x10 0x00, .write 0x42 0x07, .tick 3]
      [.tick 100, .write 0x02 0x00, .tick 3] rfl
    rw [hbare.1]
    rfl
  · have hcontrol : (VideoRegister.decode 0x0A).SameOutlines 0x06 0x00 :=
      show ∀ n < 8, n ≠ 1 → n ≠ 2 → bitAt 0x06 n = bitAt 0x00 n by decide
    have hpainted := timing_ignores_graphics.2 furnished
      [.write 0x06 0x1E, .write 0x0A 0x06, .tick 80] [.write 0x06 0x02, .write 0x0A 0x00, .tick 80]
      (.cons (.write 0x06 trivial) (.cons (.write 0x0A hcontrol) (.cons (.refl _) .nil)))
    exact hpainted.2.2.1

end Tia

end VideoComputer
