/-
VideoComputer.Proofs.Video.Racing — the picture is the trace of the beam.

A program draws by racing the beam: whatever it has written when the beam
passes over a dot is what shows there, until the beam passes again. So there is
no picture to speak of apart from the beam's way. `Trail` is that way, with the
scene that was in force at every dot of it, and the frame is read off the
trail: each pixel has the color of the scene the beam carried when it last
passed there outside the vertical blanks.

* `Scene.colorAt` — the color of a column, by layers from front to back.
* `Tia.trailRun` — the trail that calls leave behind.
* `Tia.Shows` — the frame is what the trail says; kept by a dot, a stretch of
  dots, a call and a run.
* `Tia.Drawn` — a scene that was left alone since the beam was at the top left.
* `Tia.picture_traces_beam` — both, for every chip that exists.
-/
import VideoComputer.Proofs.Video.Stall

namespace VideoComputer

/-! ## Layers -/

/-- What can be in front of the background. -/
inductive Layer where
  /-- Playfield and ball. -/
  | field
  /-- A player and its missile. -/
  | side (p : Player)
  deriving DecidableEq, Repr

namespace Scene

/-- The layers from front to back. -/
def layers (s : Scene) : List Layer :=
  if s.registers.control.priority then [.field, .side .one, .side .two]
  else [.side .one, .side .two, .field]

/-- Whether something of a layer is present at a column. -/
def covers (s : Scene) (col : Nat) : Layer → Bool
  | .field => s.playfieldAt (blankLength + col) || s.ballAt (blankLength + col)
  | .side p => s.playerAt p (blankLength + col) || s.missileAt p (blankLength + col)

/-- The color of a layer where it is present. In score mode the playfield has
the color of the player on its half of the line; the ball alone has not. -/
def layerColor (s : Scene) (col : Nat) : Layer → UInt8
  | .field =>
    if s.registers.control.score && s.playfieldAt (blankLength + col) then
      s.registers.playerColor.get (if col < 80 then .one else .two)
    else s.registers.playfieldColor
  | .side p => s.registers.playerColor.get p

/-- The color of a column: that of the first layer present, or the background. -/
def colorAt (s : Scene) (col : Nat) : UInt8 :=
  match s.layers.find? (s.covers col) with
  | some layer => s.layerColor col layer
  | none => s.registers.backgroundColor

/-- The playfield has the color of its layer, in both modes. -/
theorem playfieldColorOf_dotAt (s : Scene) (col : Nat) :
    s.playfieldColorOf (s.dotAt (blankLength + col)) (blankLength + col)
      = s.layerColor col .field := by
  simp only [playfieldColorOf, layerColor, dotAt, Nat.add_sub_cancel_left]
  by_cases hcol : col < 80 <;> simp [hcol, PerPlayer.get]

/-- The chip resolves the layers of a dot from front to back. -/
theorem colorOf_dotAt (s : Scene) (col : Nat) :
    s.colorOf (s.dotAt (blankLength + col)) (blankLength + col) = s.colorAt col := by
  simp only [colorOf, playfieldColorOf_dotAt]
  show (if s.registers.control.priority && s.covers col .field then s.layerColor col .field
    else if s.covers col (.side .one) then s.layerColor col (.side .one)
    else if s.covers col (.side .two) then s.layerColor col (.side .two)
    else if s.covers col .field then s.layerColor col .field
    else s.registers.backgroundColor) = s.colorAt col
  unfold colorAt layers
  cases s.registers.control.priority <;> cases hfield : s.covers col .field <;>
    cases hone : s.covers col (.side .one) <;> cases htwo : s.covers col (.side .two) <;>
    simp [hfield, hone, htwo]

end Scene

/-! ## The beam's way -/

/-- A dot the beam passed over, and the scene that was in force there. -/
structure Passage where
  line : Nat
  dot : Nat
  scene : Scene
  deriving DecidableEq, Repr

/-- Whether a pixel was drawn on the way: at its dot, and not during vertical
sync or vertical blank. -/
def Passage.paints (p : Passage) (row col : Nat) : Bool :=
  p.line == row && p.dot == blankLength + col && !p.scene.registers.isBlanked

/-- The beam's way, the latest dot first. -/
abbrev Trail := List Passage

/-- The color a trail leaves at a pixel: that of the latest passage that drew
it, and black if none did. -/
def Trail.pixel (trail : Trail) (row col : Nat) : Pixel :=
  match trail.find? (·.paints row col) with
  | some p => .ofColor (p.scene.colorAt col)
  | none => .black

/-- The last dot of a trail paints over what was there. -/
theorem Trail.pixel_cons (p : Passage) (trail : Trail) (row col : Nat) :
    Trail.pixel (p :: trail) row col
      = if p.paints row col then .ofColor (p.scene.colorAt col) else trail.pixel row col := by
  unfold Trail.pixel
  rw [List.find?_cons]
  cases p.paints row col <;> rfl

namespace Tia

/-- What the beam is passing over. -/
def passage (t : Tia) : Passage := ⟨t.beam.y, t.beam.x, t.scene⟩

/-- The trail after more dots. -/
def trailDots : (dots : Nat) → Tia → Trail → Trail
  | 0, _, trail => trail
  | dots + 1, t, trail => trailDots dots t.stepDot (t.passage :: trail)

/-- For how many dots the beam moves during a call: a tick takes its stall
with it. -/
def dotsIn (t : Tia) : Call → Nat
  | .tick dots => dots + (t.tick dots).stall
  | .write .. | .takeFrame | .setFire .. | .reset => 0

/-- For how many dots the beam moves during calls. -/
def dotsDuring (t : Tia) : List Call → Nat
  | [] => 0
  | c :: calls => t.dotsIn c + (t.call c).dotsDuring calls

/-- The trail after a call. A reset leaves none. -/
def trailCall (t : Tia) (trail : Trail) : Call → Trail
  | .reset => []
  | c => t.trailDots (t.dotsIn c) trail

def trailRun (t : Tia) (trail : Trail) : List Call → Trail
  | [] => trail
  | c :: calls => (t.call c).trailRun (t.trailCall trail c) calls

theorem dotsDuring_append (t : Tia) (calls calls' : List Call) :
    t.dotsDuring (calls ++ calls') = t.dotsDuring calls + (t.run calls).dotsDuring calls' := by
  induction calls generalizing t with
  | nil => exact (Nat.zero_add _).symm
  | cons c calls ih => simp only [List.cons_append, dotsDuring, run_cons, ih, Nat.add_assoc]

/-! ## What one dot draws -/

/-- A dot draws the pixel the beam is on and no other. -/
theorem get_stepDot {t : Tia} (h : t.beam.InRange) {row col : Nat}
    (hpixel : Frame.Contains row col) :
    t.stepDot.canvas.frame.get row col
      = if t.passage.paints row col then .ofColor (t.scene.colorAt col)
        else t.canvas.frame.get row col := by
  rw [canvas_stepDot]
  unfold drawDot
  -- the beam draws exactly where and when a passage paints
  by_cases hdrawn : blankLength ≤ t.beam.x && !t.scene.registers.isBlanked
  · rw [if_pos hdrawn]
    obtain ⟨hvisible, hblank⟩ := Bool.and_eq_true_iff.mp hdrawn
    have hx := of_decide_eq_true hvisible
    obtain ⟨c, hc⟩ : ∃ c, t.beam.x = blankLength + c := ⟨t.beam.x - blankLength, by omega⟩
    have hon : Frame.Contains t.beam.y c := by
      have := h.x_lt
      have := h.y_lt
      simp only [Frame.Contains, lineLength, blankLength, lineCount] at *
      omega
    simp only [Canvas.draw, hc, Nat.add_sub_cancel_left, Scene.colorOf_dotAt,
      Frame.get_set hon hpixel]
    have hpaints : t.passage.paints row col ↔ t.beam.y = row ∧ c = col := by
      simp [Passage.paints, passage, hc, hblank]
    by_cases hsame : t.beam.y = row ∧ c = col
    · rw [if_pos hsame, if_pos (hpaints.mpr hsame), hsame.2]
    · rw [if_neg hsame, if_neg (mt hpaints.mp hsame)]
  · rw [if_neg hdrawn, if_neg]
    intro hpaints
    simp only [Passage.paints, passage, Bool.and_eq_true, beq_iff_eq] at hpaints
    obtain ⟨⟨-, hx⟩, hblank⟩ := hpaints
    exact hdrawn (by simp [hx, hblank])

/-! ## The frame is read off the trail -/

/-- The frame is what a trail says. -/
def Shows (t : Tia) (trail : Trail) : Prop :=
  ∀ row col, Frame.Contains row col → t.canvas.frame.get row col = trail.pixel row col

theorem shows_powerOn : powerOn.Shows [] :=
  fun _ _ hpixel => Frame.get_filled hpixel .black

/-- A dot is added to the trail and to the frame, -/
theorem shows_stepDot {t : Tia} (h : t.beam.InRange) {trail : Trail} (hs : t.Shows trail) :
    t.stepDot.Shows (t.passage :: trail) := by
  intro row col hpixel
  rw [get_stepDot h hpixel, Trail.pixel_cons, hs row col hpixel]
  rfl

/-- and so are several. -/
theorem shows_stepDots {t : Tia} (h : t.beam.InRange) {trail : Trail} (hs : t.Shows trail)
    (n : Nat) : (t.stepDots n).Shows (t.trailDots n trail) := by
  induction n generalizing t trail with
  | zero => exact hs
  | succ n ih => exact ih (beam_inRange_stepDot h) (shows_stepDot h hs)

/-- A write changes what will be drawn, and nothing that was. -/
@[simp] theorem frame_write (t : Tia) (address : UInt16) (data : UInt8) :
    (t.write address data).canvas.frame = t.canvas.frame := by
  rw [write]
  cases VideoRegister.decode address <;> rfl

/-- A tick is the dots of its length and of its stall, with no wait left. -/
theorem tick_eq_stepDots_dotsIn {t : Tia} (h : t.beam.InRange) (n : Nat) :
    (t.tick n).tia = (t.stepDots (t.dotsIn (.tick n))).dropWait
      ∧ (t.tick n).frames = t.framesWithin (t.dotsIn (.tick n)) := by
  rw [dotsIn, stall_tick, t.tick_eq_stepDots n h.x_lt]
  exact ⟨rfl, rfl⟩

/-- A call keeps what the trail says, by moving the beam, by a reset, or by not touching either, -/
theorem shows_call {t : Tia} (h : t.beam.InRange) {trail : Trail} (hs : t.Shows trail) (c : Call) :
    (t.call c).Shows (t.trailCall trail c) := by
  cases c with
  | write address data =>
    intro row col hpixel
    rw [call, frame_write]
    exact hs row col hpixel
  | tick n =>
    rw [call, (tick_eq_stepDots_dotsIn h n).1]
    exact shows_stepDots h hs _
  | takeFrame => exact hs
  | setFire player pressed => exact hs
  | reset => exact shows_powerOn

/-- and so does a run. -/
theorem shows_run {t : Tia} (h : t.beam.InRange) {trail : Trail} (hs : t.Shows trail)
    (calls : List Call) : (t.run calls).Shows (t.trailRun trail calls) := by
  induction calls generalizing t trail with
  | nil => exact hs
  | cons c calls ih => exact ih (beam_inRange_call h c) (shows_call h hs c)

end Tia

/-! ## A picture of one scene -/

/-- Whether every row of a frame shows the scene. -/
def Scene.Fills (s : Scene) (f : Frame) : Prop :=
  ∀ row col, Frame.Contains row col → f.get row col = .ofColor (s.colorAt col)

/-- Dots in a picture, all blanks included. -/
def pictureDots : Nat := lineCount * lineLength

/-- How many dots of the picture come before the beam. -/
def Beam.place (b : Beam) : Nat := b.y * lineLength + b.x

/-- A pixel is a dot of the picture. -/
theorem dot_lt_pictureDots {row col : Nat} (h : Frame.Contains row col) :
    row * lineLength + (blankLength + col) < pictureDots := by
  simp only [Frame.Contains, lineLength, blankLength, pictureDots, lineCount] at *
  omega

namespace Tia

/-- Whether a call leaves alone both what is drawn and what was drawn. -/
def Call.isQuiet : Call → Bool
  | .tick _ | .takeFrame | .setFire .. => true
  | .write .. | .reset => false

/-- A scene was left alone for a number of dots, of which the first was at the
top left: the beam is that far, and every dot that it passed shows it. -/
structure Drawn (s : Scene) (dots : Nat) (t : Tia) : Prop where
  scene : t.scene = s
  inRange : t.beam.InRange
  place : t.beam.place = dots % pictureDots
  shown : ∀ row col, Frame.Contains row col → row * lineLength + (blankLength + col) < dots →
    t.canvas.frame.get row col = .ofColor (s.colorAt col)

@[simp] theorem scene_stepDot (t : Tia) : t.stepDot.scene = t.scene := by
  rw [stepDot_eq]
  split <;> rfl

/-- A dot publishes the picture as it is after the dot. -/
theorem published_stepDot (t : Tia) :
    t.stepDot.published
      = if t.publishesNext then some t.stepDot.canvas.frame else t.published := by
  rw [stepDot_eq, publishesNext]
  by_cases hx : t.beam.x + 1 = lineLength
  · simp only [hx, if_pos, beq_self_eq_true, Bool.true_and]
    rfl
  · simp only [hx, if_false, beq_eq_false_iff_ne.mpr hx, Bool.false_and, Bool.false_eq_true]
    rfl

/-- Where no frame is completed, none is published. -/
theorem published_stepDots_of_none {n : Nat} {t : Tia} (h : t.framesWithin n = 0) :
    (t.stepDots n).published = t.published := by
  induction n generalizing t with
  | zero => rfl
  | succ n ih =>
    obtain ⟨hfirst, hrest⟩ := Nat.add_eq_zero_iff.mp h
    have hnext : t.publishesNext = false := by
      cases hp : t.publishesNext with
      | false => rfl
      | true => simp [hp] at hfirst
    show (t.stepDot.stepDots n).published = _
    rw [ih hrest, published_stepDot, hnext]
    rfl

section Unblanked

variable {s : Scene} {d : Nat} {t : Tia}

/-- Outside the vertical blanks the beam goes round the picture. -/
theorem place_stepDot (h : t.beam.InRange) (hon : t.scene.registers.isBlanked = false) :
    t.stepDot.beam.place = (t.beam.place + 1) % pictureDots := by
  have hx := h.x_lt
  have hy := h.y_lt
  rw [stepDot_eq]
  by_cases hend : t.beam.x + 1 = lineLength
  · simp only [if_pos hend, beam_finishLine, nextLine, hon, Bool.false_eq_true, if_false,
      Beam.place]
    simp only [lineLength, lineCount, pictureDots] at *
    omega
  · simp only [if_neg hend, beam_sweepTo, Beam.place]
    simp only [lineLength, lineCount, pictureDots] at *
    omega

/-- While nothing is blanked, the last dot of the picture publishes it. -/
theorem publishesNext_iff (h : t.beam.InRange) (hon : t.scene.registers.isBlanked = false) :
    t.publishesNext = true ↔ t.beam.place + 1 = pictureDots := by
  have hx := h.x_lt
  have hy := h.y_lt
  simp only [publishesNext, completesFrame, nextLine, hon, Bool.false_eq_true, if_false,
    Bool.and_eq_true, beq_iff_eq, bne_iff_ne, Beam.place]
  simp only [lineLength, lineCount, pictureDots] at *
  omega

namespace Drawn

theorem start (h : t.beam = ⟨0, 0⟩) : Drawn t.scene 0 t where
  scene := rfl
  inRange := by rw [h]; exact beam_inRange_powerOn
  place := by rw [h]; rfl
  shown := fun _ _ _ hlt => absurd hlt (Nat.not_lt_zero _)

/-- A dot goes on with the picture, -/
theorem stepDot (h : Drawn s d t) (hon : s.registers.isBlanked = false) :
    Drawn s (d + 1) t.stepDot where
  scene := t.scene_stepDot.trans h.scene
  inRange := beam_inRange_stepDot h.inRange
  place := by
    rw [place_stepDot h.inRange (h.scene ▸ hon), h.place, Nat.mod_add_mod]
  shown := by
    intro row col hpixel hlt
    rw [get_stepDot h.inRange hpixel, h.scene]
    by_cases hpaints : t.passage.paints row col
    · rw [if_pos hpaints]
    · rw [if_neg hpaints]
      -- the beam is elsewhere, so the pixel's dot is not the one just passed
      refine h.shown row col hpixel
        (Nat.lt_of_le_of_ne (Nat.le_of_lt_succ hlt) fun hd => hpaints ?_)
      have hplace := h.place
      rw [← hd, Nat.mod_eq_of_lt (dot_lt_pictureDots hpixel)] at hplace
      have hx := h.inRange.x_lt
      have hcol := hpixel.2
      have hbeam : t.beam.y = row ∧ t.beam.x = blankLength + col := by
        simp only [Beam.place, lineLength, blankLength] at *
        omega
      simp [Passage.paints, passage, hbeam, h.scene, hon]

/-- so do several. -/
theorem stepDots (h : Drawn s d t) (hon : s.registers.isBlanked = false) (n : Nat) :
    Drawn s (d + n) (t.stepDots n) := by
  induction n generalizing d t with
  | zero => exact h
  | succ n ih =>
    have hrest := ih (h.stepDot hon)
    rwa [Nat.add_assoc, Nat.add_comm 1 n] at hrest

/-- A frame is published whenever the number of dots is that of some pictures. -/
theorem framesWithin_eq (h : Drawn s d t) (hon : s.registers.isBlanked = false) (n : Nat) :
    d / pictureDots + t.framesWithin n = (d + n) / pictureDots := by
  induction n generalizing d t with
  | zero => rfl
  | succ n ih =>
    have hrest := ih (h.stepDot hon)
    have hnext := publishesNext_iff h.inRange (h.scene ▸ hon)
    rw [h.place] at hnext
    have hfirst : d / pictureDots + t.publishesNext.toNat = (d + 1) / pictureDots := by
      simp only [pictureDots, lineCount, lineLength] at *
      cases hp : t.publishesNext <;> simp [hp] at hnext ⊢ <;> omega
    rw [framesWithin, ← Nat.add_assoc, hfirst, hrest, Nat.add_assoc, Nat.add_comm 1 n]

/-- Once the beam has come round, the whole frame is a picture of the scene. -/
theorem fills (h : Drawn s d t) (hd : pictureDots ≤ d) : s.Fills t.canvas.frame :=
  fun row col hpixel =>
    h.shown row col hpixel (Nat.lt_of_lt_of_le (dot_lt_pictureDots hpixel) hd)

/-- Whatever was published, it is a picture of the scene. -/
theorem published_stepDots (h : Drawn s d t) (hon : s.registers.isBlanked = false) {n : Nat}
    (hframes : 0 < t.framesWithin n) : ∃ f, (t.stepDots n).published = some f ∧ s.Fills f := by
  induction n generalizing d t with
  | zero => exact absurd hframes (Nat.lt_irrefl 0)
  | succ n ih =>
    have hafter := h.stepDot hon
    -- a frame published later takes the place of one published now
    by_cases hlater : 0 < t.stepDot.framesWithin n
    · exact ih hafter hlater
    · have hnone : t.stepDot.framesWithin n = 0 := by omega
      have hnext : t.publishesNext = true := by
        rw [framesWithin, hnone] at hframes
        cases hp : t.publishesNext with
        | true => rfl
        | false => simp [hp] at hframes
      have hwhole : pictureDots ≤ d + 1 := by
        have hplace := (publishesNext_iff h.inRange (h.scene ▸ hon)).mp hnext
        have hle := Nat.mod_le d pictureDots
        rw [h.place] at hplace
        omega
      refine ⟨t.stepDot.canvas.frame, ?_, hafter.fills hwhole⟩
      show (t.stepDot.stepDots n).published = _
      rw [published_stepDots_of_none hnone, published_stepDot, if_pos hnext]

/-- A call that writes nothing goes on with the picture, -/
theorem call (h : Drawn s d t) (hon : s.registers.isBlanked = false) {c : Call}
    (hc : c.isQuiet = true) : Drawn s (d + t.dotsIn c) (t.call c) := by
  cases c with
  | write address data => cases hc
  | tick n =>
    rw [Tia.call, (tick_eq_stepDots_dotsIn h.inRange n).1]
    have hdots := h.stepDots hon (t.dotsIn (.tick n))
    exact ⟨hdots.scene, hdots.inRange, hdots.place, hdots.shown⟩
  | takeFrame => exact ⟨h.scene, h.inRange, h.place, h.shown⟩
  | setFire player pressed => exact ⟨h.scene, h.inRange, h.place, h.shown⟩
  | reset => cases hc

/-- and so does a run of them. -/
theorem run (h : Drawn s d t) (hon : s.registers.isBlanked = false) {calls : List Call}
    (hcalls : ∀ c ∈ calls, c.isQuiet = true) :
    Drawn s (d + t.dotsDuring calls) (t.run calls) := by
  induction calls generalizing d t with
  | nil => exact h
  | cons c calls ih =>
    obtain ⟨hfirst, hrest⟩ := List.forall_mem_cons.mp hcalls
    rw [dotsDuring, ← Nat.add_assoc]
    exact ih (h.call hon hfirst) hrest

end Drawn

end Unblanked

/-! ## Pictures -/

/-- Racing the beam: at every point, each pixel has the color of the scene the
beam carried when it last passed there outside the vertical blanks, and is
black if it never did since the last reset. While a scene is left alone from the
top left of the picture on, a frame is published whenever the beam has come
round, and every row of it shows that scene, whatever was drawn before. -/
theorem picture_traces_beam (calls : List Call) :
    let t := powerOn.run calls
    (∀ row col, Frame.Contains row col →
        t.canvas.frame.get row col = (powerOn.trailRun [] calls).pixel row col)
      ∧ (t.beam = ⟨0, 0⟩ → t.scene.registers.isBlanked = false →
          ∀ quiet, (∀ c ∈ quiet, c.isQuiet = true) → ∀ n,
            t.dotsDuring quiet / pictureDots + ((t.run quiet).tick n).frames
                = t.dotsDuring (quiet ++ [.tick n]) / pictureDots
              ∧ (0 < ((t.run quiet).tick n).frames →
                ∃ f, ((t.run quiet).tick n).tia.published = some f ∧ t.scene.Fills f)) := by
  intro t
  refine ⟨shows_run beam_inRange_powerOn shows_powerOn calls, ?_⟩
  intro hbeam hon quiet hquiet n
  have hdrawn := (Drawn.start hbeam).run hon hquiet
  rw [Nat.zero_add] at hdrawn
  obtain ⟨htick, hframes⟩ := tick_eq_stepDots_dotsIn hdrawn.inRange n
  constructor
  · rw [hframes, hdrawn.framesWithin_eq hon, dotsDuring_append]
    rfl
  · intro hpublished
    rw [hframes] at hpublished
    rw [htick]
    exact hdrawn.published_stepDots hon hpublished

/-- A light yellow background that was set before the beam set out shows behind the
beam on its first line, while the rest of the line is as black as before, and a
picture later on a whole frame. -/
theorem picture_traces_beam_background :
    (powerOn.run [.write 0x09 0x1E, .tick 70]).canvas.frame.get 0 1 = ⟨0xFC, 0xFC, 0x68⟩
      ∧ (powerOn.run [.write 0x09 0x1E, .tick 70]).canvas.frame.get 0 2 = ⟨0, 0, 0⟩
      ∧ ∃ f, ((powerOn.run [.write 0x09 0x1E]).tick 59736).tia.published = some f
        ∧ f.get 100 42 = ⟨0xFC, 0xFC, 0x68⟩ := by
  refine ⟨?_, ?_, ?_⟩
  · rw [(picture_traces_beam [.write 0x09 0x1E, .tick 70]).1 0 1 (by decide)]
    decide +kernel
  · rw [(picture_traces_beam [.write 0x09 0x1E, .tick 70]).1 0 2 (by decide)]
    decide +kernel
  · obtain ⟨hframes, hpublished⟩ :=
      (picture_traces_beam [.write 0x09 0x1E]).2 rfl rfl [] (by simp) 59736
    have hstall : ((powerOn.call (.write 0x09 0x1E)).tick 59736).stall = 0 := stall_tick _ _
    have hone : ((powerOn.call (.write 0x09 0x1E)).tick 59736).frames = 1 := by
      simpa [dotsDuring, dotsIn, hstall, pictureDots, lineCount, lineLength] using hframes
    obtain ⟨f, hf, hfills⟩ := hpublished (Nat.lt_of_lt_of_eq Nat.zero_lt_one hone.symm)
    refine ⟨f, hf, ?_⟩
    rw [hfills 100 42 (by decide)]
    decide +kernel

end Tia

end VideoComputer
