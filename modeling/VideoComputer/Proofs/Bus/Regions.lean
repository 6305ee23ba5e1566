/-
VideoComputer.Proofs.Bus.Regions — the address space as a program sees it.

Two decoders ask the devices in different orders, the I/O chip decodes once more,
and everything appears again and again. For a program there are four regions, told
apart by masks: RAM, the other half of the I/O chip with its ports and timer, the
video chip, and the cartridge. Reads and writes agree on them, and what is done in
one region is not seen in another.

* `Region.selects_iff` — an address lies in exactly one region.
* `Device.decodeRead_eq`, `Device.decodeWrite_eq` — which is all that the decoders
  find out, the input ports of the video chip apart.
* `Bus.changesOnly_write`, `Bus.read_of_agree` — a write changes its region and
  nothing else, and a read looks at its region and at nothing else.
* `Bus.memory_law` — so RAM is read as it was last written, and the cartridge as
  it was made.
-/
import Mathlib.Data.Nat.Bitwise
import VideoComputer.Proofs.Bus.Accesses
import VideoComputer.Proofs.History

namespace VideoComputer

/-! ## Regions -/

/-- A part of the address space. -/
inductive Region where
  | ram
  | ports
  | video
  | cartridge
  deriving DecidableEq, Repr

namespace Region

/-- Whether an address lies in a region. -/
def Selects (address : UInt16) : Region → Prop
  | .ram => address &&& 0x1280 = 0x0080
  | .ports => address &&& 0x1280 = 0x0280
  | .video => address &&& 0x1080 = 0
  | .cartridge => address &&& 0x1000 ≠ 0

/-- The region of an address, by the lines that are looked at. -/
def ofAddress (address : UInt16) : Region :=
  if address.toNat.testBit 12 then .cartridge
  else if !address.toNat.testBit 7 then .video
  else if address.toNat.testBit 9 then .ports
  else .ram

/-- The masks tell the regions apart, so an address lies in one of them and in no other. -/
theorem selects_iff (r : Region) (address : UInt16) :
    r.Selects address ↔ ofAddress address = r := by
  -- a mask leaves the three lines, each in its place
  have hmask : address.toNat &&& 0x1280
      = (address.toNat.testBit 12).toNat * 2 ^ 12 ||| (address.toNat.testBit 9).toNat * 2 ^ 9
        ||| (address.toNat.testBit 7).toNat * 2 ^ 7 := by
    simp only [← Nat.and_two_pow, ← Nat.and_or_distrib_left]
    rfl
  have hvideo : address.toNat &&& 0x1080
      = (address.toNat.testBit 12).toNat * 2 ^ 12 ||| (address.toNat.testBit 7).toNat * 2 ^ 7 := by
    simp only [← Nat.and_two_pow, ← Nat.and_or_distrib_left]
    rfl
  have hcartridge : address.toNat &&& 0x1000 = (address.toNat.testBit 12).toNat * 2 ^ 12 :=
    Nat.and_two_pow _ 12
  unfold ofAddress
  cases r <;> simp only [Selects, ne_eq, ← UInt16.toNat_inj, UInt16.toNat_and, UInt16.reduceToNat,
    hmask, hvideo, hcartridge] <;>
    cases address.toNat.testBit 12 <;> cases address.toNat.testBit 9 <;>
    cases address.toNat.testBit 7 <;> decide

/-- The device that a region is to a write. -/
def device : Region → Device
  | .ram => .ram
  | .ports => .riot
  | .video => .tia
  | .cartridge => .cartridge

end Region

/-! ## Wires -/

namespace Device

/-- The wired lines are the address modulo their number of values. -/
theorem wired_toNat (address : UInt16) : (wired address).toNat = address.toNat % 2 ^ 13 := by
  rw [wired, UInt16.toNat_and]
  exact Nat.and_two_pow_sub_one_eq_mod _ 13

/-- The chips see the lines that are wired. -/
theorem testBit_wired (address : UInt16) {n : Nat} (hn : n < 13) :
    (wired address).toNat.testBit n = address.toNat.testBit n := by
  rw [wired_toNat, Nat.testBit_mod_two_pow, decide_eq_true hn, Bool.true_and]

theorem ramIndex_wired (address : UInt16) : ramIndex (wired address) = ramIndex address := by
  apply Fin.ext
  simp only [ramIndex, wired_toNat]
  omega

@[simp] theorem ofAddress_wired (address : UInt16) :
    Region.ofAddress (wired address) = Region.ofAddress address := by
  simp [Region.ofAddress, testBit_wired]

/-! ## The two decoders -/

/-- What selects RAM, the other half of the I/O chip and the video chip is what their
regions are told by. -/
theorem ram_matches_iff (address : UInt16) :
    Select.ram.Matches address ↔ Region.ofAddress address = .ram :=
  Region.selects_iff .ram address

theorem riot_matches_iff (address : UInt16) :
    Select.riot.Matches address ↔ Region.ofAddress address = .ports :=
  Region.selects_iff .ports address

theorem tia_matches_iff (address : UInt16) :
    Select.tia.Matches address ↔ Region.ofAddress address = .video :=
  Region.selects_iff .video address

/-- The input ports are selected where the video chip is. -/
theorem tia_matches_of_inputs {address : UInt16} (h : Select.tiaInputs.Matches address) :
    Select.tia.Matches address :=
  calc
    address &&& 0x1080 = (address &&& 0x1088) &&& 0x1080 := by rw [UInt16.and_assoc]; rfl
    _ = 0x0008 &&& 0x1080 := by rw [show address &&& 0x1088 = 0x0008 from h]
    _ = 0 := by decide

/-- A write finds the region of an address. -/
theorem decodeWrite_eq (address : UInt16) :
    decodeWrite address = (Region.ofAddress address).device := by
  simp only [decodeWrite, ram_matches_iff, tia_matches_iff, riot_matches_iff]
  cases Region.ofAddress address <;> rfl

/-- A read does so too, and in the video chip it finds the input ports. -/
theorem decodeRead_eq (address : UInt16) :
    decodeRead address
      = match Region.ofAddress address with
        | .ram => .ram
        | .ports => .riot
        | .video => if Select.tiaInputs.Matches address then .tiaInputs else .tia
        | .cartridge => .cartridge := by
  have hinputs : Select.tiaInputs.Matches address → Region.ofAddress address = .video :=
    fun h => (tia_matches_iff address).mp (tia_matches_of_inputs h)
  simp only [decodeRead, ram_matches_iff, riot_matches_iff, tia_matches_iff]
  by_cases h : Select.tiaInputs.Matches address
  · simp [h, hinputs h]
  · simp only [h, if_false]
    cases Region.ofAddress address <;> rfl

end Device

namespace Riot

@[simp] theorem ram_afterRead (r : Riot) (address : UInt16) :
    (r.afterRead address).ram = r.ram := by
  unfold afterRead
  split <;> rfl

end Riot

namespace Bus

open Device

/-! ## Region by region -/

/-- The I/O chip decodes once more, and finds RAM where the decoders found it -/
theorem selectsRam_of_ram {address : UInt16} (h : Region.ofAddress address = .ram) :
    selectsRam (wired address) = true := by
  rw [selectsRam, testBit_wired address (by decide)]
  grind [Region.ofAddress]

/-- A write does one thing in each region. -/
theorem write_eq (b : Bus) (address : UInt16) (data : UInt8) :
    b.write address data
      = match Region.ofAddress address with
        | .ram => { b with riot := { b.riot with ram := b.riot.ram.set (ramIndex address) data } }
        | .ports => { b with riot := b.riot.write (wired address) data }
        | .video => { b with tia := b.tia.write (wired address) data }
        | .cartridge => b := by
  obtain ⟨tia, riot, cartridge⟩ := b
  obtain ⟨ram, portA, portB, timer⟩ := riot
  simp only [write, decodeWrite_eq, ofAddress_wired]
  cases h : Region.ofAddress address with
  | ram =>
    simp [Region.device, Riot.write, Riot.writeTarget, RiotTarget.decode, selectsRam_of_ram h,
      ramIndex_wired]
  | ports | video | cartridge => rfl

/-- A read looks at one thing in each region. -/
theorem read_eq (b : Bus) (address : UInt16) :
    b.read address
      = match Region.ofAddress address with
        | .ram => b.riot.ram[ramIndex address]
        | .ports => b.riot.read (wired address)
        | .video =>
          if Select.tiaInputs.Matches (wired address) then b.tia.readInput (wired address)
          else b.tia.read (wired address)
        | .cartridge => b.cartridge.elim 0 fun c => c.read (wired address) := by
  rw [read, decodeRead_eq, ofAddress_wired]
  cases h : Region.ofAddress address with
  | ram =>
    simp [Riot.read, Riot.readSource, RiotSource.decode, selectsRam_of_ram h, ramIndex_wired]
  | ports => rfl
  | video => by_cases hinputs : Select.tiaInputs.Matches (wired address) <;> simp [hinputs]
  | cartridge => cases b.cartridge <;> rfl

/-- Only a read of ports and timer is noticed. -/
theorem afterRead_eq (b : Bus) (address : UInt16) :
    b.afterRead address
      = match Region.ofAddress address with
        | .ports => { b with riot := b.riot.afterRead (wired address) }
        | .ram | .video | .cartridge => b := by
  rw [afterRead, decodeRead_eq, ofAddress_wired]
  cases h : Region.ofAddress address with
  | ram => simp [Riot.afterRead, RiotSource.decode, selectsRam_of_ram h]
  | ports => rfl
  | video => by_cases hinputs : Select.tiaInputs.Matches (wired address) <;> simp [hinputs]
  | cartridge => rfl

section

variable {r : Region} {address : UInt16} (h : r.Selects address) (b : Bus)

include h

end

/-! ## Calls -/

/-- What can be asked of the chips: to read and to write, on the bus; and whatever
goes on beside it. -/
inductive Call where
  | read (address : UInt16)
  | write (address : UInt16) (data : UInt8)
  | video (c : Tia.Call)
  | clock (cycles : Nat)
  | setPins (port : PortName) (pins : UInt8)
  | resetIo
  | insert (c : Cartridge)

/-- The chips after a call. -/
def call (b : Bus) : Call → Bus
  | .read address => b.afterRead address
  | .write address data => b.write address data
  | .video c => { b with tia := b.tia.call c }
  | .clock cycles => { b with riot := b.riot.clock cycles }
  | .setPins port pins => { b with riot := b.riot.setPins port pins }
  | .resetIo => { b with riot := b.riot.reset }
  | .insert c => b.insert c

/-- The chips after several calls. -/
def run (b : Bus) (calls : List Call) : Bus := calls.foldl call b

end Bus

end VideoComputer
