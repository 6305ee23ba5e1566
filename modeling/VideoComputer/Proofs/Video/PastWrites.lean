/-
VideoComputer.Proofs.Video.PastWrites — the registers of the video chip as what was
written to them.

Time changes no register, and neither does a button or a frame that is taken. So the
registers are what the writes since the last reset made of them, in their order, and
nothing else of the past has a part in them. What was written last to a register is
in it, and where one register takes over what is in another one, it has what was
written last before it took over.

* `Tia.pastWrites` — what was written since the last reset.
* `Tia.registers_run` — the registers after a run.
* `lastWritten` — what was written last to a register.
* `VideoRegisters.field_writeAll`, `VideoRegisters.copy_writeAll` — a value that one
  register holds, and a copy of it that is taken with a write to another one.
-/
import VideoComputer.Proofs.History
import VideoComputer.Proofs.Video.Positions

namespace VideoComputer

/-- A byte that is written to a register. -/
structure RegisterWrite where
  register : VideoRegister
  data : UInt8
  deriving DecidableEq, Repr

/-- The byte of a write, if it is to this register. -/
def RegisterWrite.to? (r : VideoRegister) (w : RegisterWrite) : Option UInt8 :=
  if w.register = r then some w.data else none

/-- What was written last to a register: 0, if there was no write to it. -/
def lastWritten (r : VideoRegister) (writes : List RegisterWrite) : UInt8 :=
  ((writes.filterMap (RegisterWrite.to? r)).getLast?).getD 0

namespace VideoRegisters

/-! ## One write -/

section

variable (s : VideoRegisters) (r : VideoRegister) (data : UInt8) (p : Player)

theorem graphics_write :
    (s.write r data).graphics.get p = if r = .graphics p then data else s.graphics.get p := by
  cases r with
  | graphics q => cases q <;> simp [write, writeGraphics, PerPlayer.get_set, eq_comm]
  | _ => simp [write]

/-- The graphics of a player are copied when those of the other one are written. -/
theorem delayedGraphics_write :
    (s.write r data).delayedGraphics.get p
      = if r = .graphics p.other then s.graphics.get p else s.delayedGraphics.get p := by
  cases r with
  | graphics q =>
    cases q <;> cases p <;> simp [write, writeGraphics, Player.other, PerPlayer.get, PerPlayer.set]
  | _ => simp [write]

theorem ballEnabled_write :
    (s.write r data).ballEnabled = if r = .enableBall then bitAt data 1 else s.ballEnabled := by
  cases r with
  | graphics q => cases q <;> simp [write, writeGraphics]
  | _ => simp [write]

/-- The bit of the ball is copied when the graphics of player two are written. -/
theorem delayedBallEnabled_write :
    (s.write r data).delayedBallEnabled
      = if r = .graphics .two then s.ballEnabled else s.delayedBallEnabled := by
  cases r with
  | graphics q => cases q <;> simp [write, writeGraphics]
  | _ => simp [write]

theorem delayPlayer_write :
    (s.write r data).delayPlayer.get p
      = if r = .delayPlayer p then bitAt data 0 else s.delayPlayer.get p := by
  cases r with
  | delayPlayer q => simp [write, PerPlayer.get_set, eq_comm]
  | graphics q => cases q <;> simp [write, writeGraphics]
  | _ => simp [write]

theorem delayBall_write :
    (s.write r data).delayBall = if r = .delayBall then bitAt data 0 else s.delayBall := by
  cases r with
  | graphics q => cases q <;> simp [write, writeGraphics]
  | _ => simp [write]

end

/-! ## Several writes -/

/-- The registers after several writes. -/
def writeAll (r : VideoRegisters) (writes : List RegisterWrite) : VideoRegisters :=
  writes.foldl (fun r w => r.write w.register w.data) r

section

variable {α : Type} {v w : VideoRegisters → α} {d : UInt8 → α} {r r' : VideoRegister}

/-- The last value that was stored is the value of the last write. -/
theorem getLast?_map_to? (writes : List RegisterWrite) :
    ((writes.filterMap fun w => (w.to? r).map d).getLast?).getD (d 0)
      = d (lastWritten r writes) := by
  rw [← List.map_filterMap (g := d), List.getLast?_map, Option.getD_map, lastWritten]

variable (hfield : ∀ (s : VideoRegisters) (q : VideoRegister) (data : UInt8),
  v (s.write q data) = if q = r then d data else v s)

include hfield

/-- A field with one register of its own has what was last stored, and keeps it otherwise. -/
theorem field_write (s : VideoRegisters) (w : RegisterWrite) :
    v (s.write w.register w.data) = ((w.to? r).map d).getD (v s) := by
  rw [hfield, RegisterWrite.to?]
  split <;> rfl

/-- A value that is set by writes to one register is what was written there last. -/
theorem field_writeAll (hpowerOn : v powerOn = d 0) (writes : List RegisterWrite) :
    v (powerOn.writeAll writes) = d (lastWritten r writes) := by
  rw [writeAll, seen_foldl (v := v) (field_write hfield), hpowerOn, getLast?_map_to?]

/-- If a copy of it is taken with each write to another register, the copy is what was
written last before the last of these. -/
theorem copy_writeAll
    (hcopy : ∀ (s : VideoRegisters) (q : VideoRegister) (data : UInt8),
      w (s.write q data) = if q = r' then v s else w s)
    (hpowerOn : v powerOn = d 0) (hsame : w powerOn = v powerOn)
    (writes : List RegisterWrite) :
    w (powerOn.writeAll writes)
      = d (lastWritten r (beforeLast (·.register == r') writes)) := by
  rw [writeAll, copied_foldl (v := v) (field_write hfield) ?_ _ hsame, hpowerOn,
    getLast?_map_to?]
  intro s c
  simp [hcopy]

end

end VideoRegisters

namespace Tia

/-- What a call writes to a register. -/
def Call.store? : Call → Option RegisterWrite
  | .write address data => some ⟨.decode address, data⟩
  | .tick _ | .takeFrame | .setFire .. | .reset => none

/-- Whether a call writes nothing to a register, or nothing but writes of some kind. -/
def Call.storesOnly (kind : RegisterWrite → Bool) (c : Call) : Bool := c.store?.all kind

/-- What was written since the last reset. -/
def pastWrites (calls : List Call) : List RegisterWrite :=
  (calls.rtakeWhile (· != .reset)).filterMap Call.store?

/-- One more call is one more write, or forgets them all. -/
theorem pastWrites_concat (calls : List Call) (c : Call) :
    pastWrites (calls ++ [c])
      = if c = .reset then [] else pastWrites calls ++ c.store?.toList := by
  rw [pastWrites, pastWrites, List.rtakeWhile_concat]
  cases c <;> simp [Call.store?]

/-- The registers are what the writes since the last reset have made of them. -/
theorem registers_run (calls : List Call) :
    (powerOn.run calls).scene.registers = VideoRegisters.powerOn.writeAll (pastWrites calls) := by
  induction calls using List.reverseRecOn with
  | nil => rfl
  | append_singleton calls c ih =>
    have hbeam := (Reachable.powerOn.run calls).beam_inRange
    rw [run_concat, pastWrites_concat]
    cases c with
    | write address data =>
      rw [call, scene_write, Scene.registers_write, ih]
      simp [VideoRegisters.writeAll, Call.store?]
    | reset => rfl
    | tick n | takeFrame => rw [scene_call_of_isQuiet hbeam rfl, ih]; simp [Call.store?]
    | setFire player pressed => rw [scene_call_of_isQuiet hbeam rfl, ih]; simp [Call.store?]

/-- Writes that are left out of a run are left out of what was written. -/
theorem pastWrites_filter (kind : RegisterWrite → Bool) (calls : List Call) :
    pastWrites (calls.filter (Call.storesOnly kind)) = (pastWrites calls).filter kind := by
  induction calls using List.reverseRecOn with
  | nil => rfl
  | append_singleton calls c ih =>
    rw [List.filter_append, pastWrites_concat]
    cases c with
    | write address data =>
      cases hkind : kind ⟨.decode address, data⟩ <;>
        simp [Call.storesOnly, Call.store?, hkind, ih, pastWrites_concat]
    | reset => simp [List.filter_cons, Call.storesOnly, Call.store?, pastWrites_concat]
    | tick n | takeFrame =>
      simp [List.filter_cons, Call.storesOnly, Call.store?, pastWrites_concat, ih]
    | setFire player pressed =>
      simp [List.filter_cons, Call.storesOnly, Call.store?, pastWrites_concat, ih]

end Tia

end VideoComputer
