import Mathlib.Tactic.Ring

namespace OpenMines.Lib.LittleEndian

/-- The `w` bytes of a natural, least significant first. -/
def toBytes : Nat → Nat → List UInt8
  | 0, _ => []
  | w + 1, n => UInt8.ofNat n :: toBytes w (n / 256)

def ofBytes : List UInt8 → Nat
  | [] => 0
  | b :: bs => b.toNat + 256 * ofBytes bs

@[simp] theorem length_toBytes (w n : Nat) : (toBytes w n).length = w := by
  induction w generalizing n with
  | zero => rfl
  | succ w ih => simp [toBytes, ih]

theorem ofBytes_toBytes (w n : Nat) : ofBytes (toBytes w n) = n % 256 ^ w := by
  induction w generalizing n with
  | zero => simp [toBytes, ofBytes, Nat.mod_one]
  | succ w ih =>
      have hb : (UInt8.ofNat n).toNat = n % 256 := by simp [UInt8.toNat_ofNat']
      rw [toBytes, ofBytes, ih, hb, pow_succ', Nat.mod_mul]

theorem toBytes_ofBytes (bs : List UInt8) : toBytes bs.length (ofBytes bs) = bs := by
  induction bs with
  | nil => rfl
  | cons b bs ih =>
      have hb := b.toNat_lt
      have hlow : (b.toNat + 256 * ofBytes bs) / 256 = ofBytes bs := by omega
      have hhead : UInt8.ofNat (b.toNat + 256 * ofBytes bs) = b := by
        apply UInt8.toNat_inj.mp
        rw [UInt8.toNat_ofNat', Nat.add_mul_mod_self_left, Nat.mod_eq_of_lt hb]
      rw [List.length_cons, ofBytes, toBytes, hlow, hhead, ih]

theorem ofBytes_lt (bs : List UInt8) : ofBytes bs < 256 ^ bs.length := by
  induction bs with
  | nil => simp [ofBytes]
  | cons b bs ih =>
      have hb := b.toNat_lt
      rw [ofBytes, List.length_cons, pow_succ]
      omega

theorem exists_of_length_four {bs : List UInt8} (h : bs.length = 4) : ∃ a b c d, bs = [a, b, c, d] := by
  match bs, h with
  | [a, b, c, d], _ => exact ⟨a, b, c, d, rfl⟩

def i32ToBytes (v : Int32) : List UInt8 := toBytes 4 v.toBitVec.toNat

def i32OfBytes (bs : List UInt8) : Int32 := Int32.ofNat (ofBytes bs)

@[simp] theorem length_i32ToBytes (v : Int32) : (i32ToBytes v).length = 4 := length_toBytes _ _

@[simp] theorem i32OfBytes_i32ToBytes (v : Int32) : i32OfBytes (i32ToBytes v) = v := by
  have hlt : v.toBitVec.toNat < 256 ^ 4 := v.toBitVec.isLt
  rw [i32OfBytes, i32ToBytes, ofBytes_toBytes, Nat.mod_eq_of_lt hlt, Int32.ofNat_bitVecToNat,
    Int32.ofBitVec_toBitVec]

theorem i32ToBytes_i32OfBytes {bs : List UInt8} (h : bs.length = 4) :
    i32ToBytes (i32OfBytes bs) = bs := by
  have hlt : ofBytes bs < 2 ^ 32 := by simpa [h] using ofBytes_lt bs
  have hnat : (i32OfBytes bs).toBitVec.toNat = ofBytes bs := by
    rw [i32OfBytes, ← Int32.ofBitVec_ofNat, Int32.toBitVec_ofBitVec, BitVec.toNat_ofNat,
      Nat.mod_eq_of_lt hlt]
  rw [i32ToBytes, hnat, ← h, toBytes_ofBytes]

theorem i32ToBytes_injective : Function.Injective i32ToBytes := by
  intro v w h
  rw [← i32OfBytes_i32ToBytes v, h, i32OfBytes_i32ToBytes]

def u32ToBytes (v : UInt32) : List UInt8 := toBytes 4 v.toNat

def u32OfBytes (bs : List UInt8) : UInt32 := UInt32.ofNat (ofBytes bs)

@[simp] theorem length_u32ToBytes (v : UInt32) : (u32ToBytes v).length = 4 := length_toBytes _ _

@[simp] theorem u32OfBytes_u32ToBytes (v : UInt32) : u32OfBytes (u32ToBytes v) = v := by
  have hlt : v.toNat < 256 ^ 4 := v.toNat_lt
  rw [u32OfBytes, u32ToBytes, ofBytes_toBytes, Nat.mod_eq_of_lt hlt, UInt32.ofNat_toNat]

def u16ToBytes (v : UInt16) : List UInt8 := toBytes 2 v.toNat

def u16OfBytes (bs : List UInt8) : UInt16 := UInt16.ofNat (ofBytes bs)

@[simp] theorem length_u16ToBytes (v : UInt16) : (u16ToBytes v).length = 2 := length_toBytes _ _

@[simp] theorem u16OfBytes_u16ToBytes (v : UInt16) : u16OfBytes (u16ToBytes v) = v := by
  have hlt : v.toNat < 256 ^ 2 := v.toNat_lt
  rw [u16OfBytes, u16ToBytes, ofBytes_toBytes, Nat.mod_eq_of_lt hlt, UInt16.ofNat_toNat]

end OpenMines.Lib.LittleEndian
