import ForeignCall.Value.Bytes
import ForeignCall.Value.Word
import Mathlib.Algebra.Group.Nat.Defs

namespace ForeignCall

theorem ofLittleEndian_littleEndian (width n : Nat) :
    ofLittleEndian (littleEndian width n) = n % 256 ^ width := by
  induction width generalizing n with
  | zero => simp [littleEndian, ofLittleEndian, Nat.mod_one]
  | succ width ih =>
      have h : n % 256 ^ (width + 1) = n % 256 + 256 * (n / 256 % 256 ^ width) := by
        rw [pow_succ, Nat.mul_comm, Nat.mod_mul]
      simp [littleEndian, ofLittleEndian, ih, h]

namespace Value

theorem setWidth_signExtend {width : Nat} (x : BitVec width) (h : width ≤ 64) :
    (x.signExtend 64).setWidth width = x := by
  ext i hi
  have hlt : i < 64 := Nat.lt_of_lt_of_le hi h
  simp [BitVec.getElem_signExtend, hi, hlt]

theorem ofWord_toWord (v : Value) : ofWord v.type v.toWord = v := by
  cases v with
  | i8 x => exact congrArg Value.i8 (Int8.toBitVec.inj (setWidth_signExtend x.toBitVec (by decide)))
  | i16 x =>
      exact congrArg Value.i16 (Int16.toBitVec.inj (setWidth_signExtend x.toBitVec (by decide)))
  | i32 x =>
      exact congrArg Value.i32 (Int32.toBitVec.inj (setWidth_signExtend x.toBitVec (by decide)))
  | unit | u8 | u16 | u32 | u64 | i64 | f32 | f64 => simp [ofWord, toWord, type]

theorem ofWord_f32_congr {a b : UInt64} (h : a.toUInt32 = b.toUInt32) :
    ofWord .f32 a = ofWord .f32 b := by
  rw [ofWord, ofWord, h]

theorem readExactly_littleEndian (type : NativeType) (width n : Nat) :
    readExactly type width (littleEndian width n) = .ok (n % 256 ^ width) := by
  rw [readExactly, if_pos (length_littleEndian width n), ofLittleEndian_littleEndian]

theorem ofBytes_low (type : NativeType) (word : UInt64) :
    ofBytes type (littleEndian type.size word.toNat) = .ok (ofWord type word) := by
  have h8 : UInt8.ofNat (word.toNat % 256 ^ 1) = word.toUInt8 := UInt8.ofNat_mod_size
  have h16 : UInt16.ofNat (word.toNat % 256 ^ 2) = word.toUInt16 := UInt16.ofNat_mod_size
  have h32 : UInt32.ofNat (word.toNat % 256 ^ 4) = word.toUInt32 := UInt32.ofNat_mod_size
  have h64 : UInt64.ofNat (word.toNat % 256 ^ 8) = word :=
    UInt64.ofNat_mod_size.trans UInt64.ofNat_toNat
  cases type <;>
    simp only [ofBytes, NativeType.size, readExactly_littleEndian, Except.map, ofWord, h8, h16, h32,
      h64]

end Value

end ForeignCall
