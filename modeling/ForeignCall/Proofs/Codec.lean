import ForeignCall.Proofs.Value

namespace ForeignCall

def octets (word : UInt64) : List UInt8 :=
  (List.range 8).map fun i => .ofBitVec (word.toBitVec.extractLsb' (8 * i) 8)

def NativeType.extend (type : NativeType) (low : BitVec (8 * type.size)) : UInt64 :=
  .ofBitVec (if type.isSigned then low.signExtend 64 else low.zeroExtend 64)

theorem NativeType.size_le (type : NativeType) : type.size ≤ 8 := by
  cases type <;> decide

section LittleEndian

theorem littleEndian_eq_map (width n : Nat) :
    littleEndian width n = (List.range width).map fun i => UInt8.ofNat (n / 256 ^ i) := by
  induction width generalizing n with
  | zero => rfl
  | succ width ih =>
      rw [littleEndian, ih, List.range_succ_eq_map, List.map_cons, List.map_map]
      simp [Function.comp_def, Nat.div_div_eq_div_mul, Nat.pow_succ']

theorem take_octets {width : Nat} (h : width ≤ 8) (word : UInt64) :
    (octets word).take width = littleEndian width word.toNat := by
  have hbyte (i : Nat) : UInt8.ofBitVec (word.toBitVec.extractLsb' (8 * i) 8) =
      UInt8.ofNat (word.toNat / 256 ^ i) := by
    rw [BitVec.extractLsb', Nat.shiftRight_eq_div_pow, Nat.pow_mul]
    rfl
  rw [octets, littleEndian_eq_map, ← List.map_take, List.take_range, Nat.min_eq_left h]
  simp only [hbyte]

theorem ofLittleEndian_lt (bytes : List UInt8) : ofLittleEndian bytes < 256 ^ bytes.length := by
  induction bytes with
  | nil => exact Nat.one_pos
  | cons b bytes ih =>
      have hb : b.toNat < 256 := b.toNat_lt
      rw [ofLittleEndian, List.length_cons, Nat.pow_succ]
      omega

theorem littleEndian_ofLittleEndian (bytes : List UInt8) :
    littleEndian bytes.length (ofLittleEndian bytes) = bytes := by
  induction bytes with
  | nil => rfl
  | cons b bytes ih =>
      have hb : b.toNat < 256 := b.toNat_lt
      have hrest : (b.toNat + 256 * ofLittleEndian bytes) / 256 = ofLittleEndian bytes := by omega
      rw [List.length_cons, ofLittleEndian, littleEndian, hrest, ih]
      congr 1
      apply UInt8.toNat_inj.1
      rw [UInt8.toNat_ofNat']
      omega

theorem littleEndian_mod (width n : Nat) :
    littleEndian width (n % 256 ^ width) = littleEndian width n := by
  have h := littleEndian_ofLittleEndian (littleEndian width n)
  rwa [length_littleEndian, ofLittleEndian_littleEndian] at h

theorem exists_littleEndian {width : Nat} {bytes : List UInt8} (h : bytes.length = width)
    (hwidth : width ≤ 8) : ∃ word : UInt64, bytes = littleEndian width word.toNat := by
  have hlt : ofLittleEndian bytes < 2 ^ 64 :=
    calc ofLittleEndian bytes
        < 256 ^ bytes.length := ofLittleEndian_lt bytes
      _ = 256 ^ width := by rw [h]
      _ ≤ 256 ^ 8 := Nat.pow_le_pow_right (by decide) hwidth
  refine ⟨.ofNat (ofLittleEndian bytes), ?_⟩
  rw [UInt64.toNat_ofNat_of_lt' hlt, ← h, littleEndian_ofLittleEndian]

end LittleEndian

namespace Value

variable {type : NativeType} {v : Value} {bytes : List UInt8}

theorem toBytes_ofWord (type : NativeType) (word : UInt64) :
    (ofWord type word).toBytes = littleEndian type.size word.toNat := by
  have h8 : littleEndian 1 word.toUInt8.toNat = littleEndian 1 word.toNat := littleEndian_mod 1 _
  have h16 : littleEndian 2 word.toUInt16.toNat = littleEndian 2 word.toNat := littleEndian_mod 2 _
  have h32 : littleEndian 4 word.toUInt32.toNat = littleEndian 4 word.toNat := littleEndian_mod 4 _
  cases type with
  | void => rfl
  | u8 | i8 => exact h8
  | u16 | i16 => exact h16
  | u32 | i32 | f32 => exact h32
  | u64 | i64 | f64 => rfl

theorem toWord_ofWord (type : NativeType) (word : UInt64) :
    (ofWord type word).toWord = type.extend (word.toBitVec.setWidth (8 * type.size)) := by
  cases type with
  | void => exact congrArg NativeType.void.extend (BitVec.eq_nil (word.toBitVec.setWidth 0)).symm
  | i64 => exact congrArg UInt64.ofBitVec (BitVec.signExtend_eq word.toBitVec).symm
  | u8 | u16 | u32 | u64 | i8 | i16 | i32 | f32 | f64 => rfl

theorem toBytes_eq (v : Value) : v.toBytes = littleEndian v.type.size v.toWord.toNat := by
  rw [← toBytes_ofWord, ofWord_toWord]

theorem ofBytes_of_length_ne (h : bytes.length ≠ type.size) :
    ofBytes type bytes = .error ⟨type, type.size, bytes.length⟩ := by
  have hread : readExactly type type.size bytes = .error ⟨type, type.size, bytes.length⟩ := if_neg h
  cases type <;> exact congrArg (Except.map _) hread

theorem ofBytes_eq_ok_iff : ofBytes type bytes = .ok v ↔ v.type = type ∧ v.toBytes = bytes := by
  constructor
  · intro h
    by_cases hlength : bytes.length = type.size
    · obtain ⟨word, rfl⟩ := exists_littleEndian hlength type.size_le
      rw [ofBytes_low] at h
      cases h
      exact ⟨type_ofWord type word, toBytes_ofWord type word⟩
    · rw [ofBytes_of_length_ne hlength] at h
      cases h
  · rintro ⟨rfl, rfl⟩
    rw [toBytes_eq, ofBytes_low, ofWord_toWord]

theorem exists_ofBytes_iff : (∃ v, ofBytes type bytes = .ok v) ↔ bytes.length = type.size := by
  constructor
  · rintro ⟨v, hv⟩
    obtain ⟨rfl, rfl⟩ := ofBytes_eq_ok_iff.1 hv
    exact v.length_toBytes
  · intro h
    obtain ⟨word, rfl⟩ := exists_littleEndian h type.size_le
    exact ⟨_, ofBytes_low type word⟩

theorem ofBytes_eq_error_iff {e : WidthError} : ofBytes type bytes = .error e ↔
    bytes.length ≠ type.size ∧ e = ⟨type, type.size, bytes.length⟩ := by
  constructor
  · intro h
    have hlength : bytes.length ≠ type.size := by
      intro hlength
      obtain ⟨v, hv⟩ := exists_ofBytes_iff.2 hlength
      rw [h] at hv
      cases hv
    rw [ofBytes_of_length_ne hlength] at h
    exact ⟨hlength, (Except.error.inj h).symm⟩
  · rintro ⟨hlength, rfl⟩
    exact ofBytes_of_length_ne hlength

theorem ofWord_eq_iff {a b : UInt64} : ofWord type a = ofWord type b ↔
    littleEndian type.size a.toNat = littleEndian type.size b.toNat := by
  constructor
  · intro h
    rw [← toBytes_ofWord, h, toBytes_ofWord]
  · intro h
    have hread := ofBytes_low type a
    rw [h, ofBytes_low] at hread
    exact (Except.ok.inj hread).symm

theorem ofWord_toWord_ofWord (type : NativeType) (word : UInt64) :
    ofWord type (ofWord type word).toWord = ofWord type word := by
  have h := ofWord_toWord (ofWord type word)
  rwa [type_ofWord] at h

theorem word_form_exact (v : Value) (type : NativeType) (a b : UInt64) :
    ofWord v.type v.toWord = v ∧
      (ofWord type a).toWord = type.extend (a.toBitVec.setWidth (8 * type.size)) ∧
      (ofWord .void a).toWord = 0 ∧
      (ofWord type a = ofWord type b ↔ (octets a).take type.size = (octets b).take type.size) ∧
      ofWord type (ofWord type a).toWord = ofWord type a ∧
      (ofWord type (ofWord type a).toWord).toWord = (ofWord type a).toWord := by
  refine ⟨v.ofWord_toWord, toWord_ofWord type a, rfl, ?_, ofWord_toWord_ofWord type a, ?_⟩
  · rw [take_octets type.size_le, take_octets type.size_le]
    exact ofWord_eq_iff
  · rw [ofWord_toWord_ofWord]

example : (ofWord .i8 0xdeadbeef000000fe).toWord = 0xfffffffffffffffe := by decide

theorem byte_form_exact (type : NativeType) (bytes : List UInt8) :
    ((∃ v, ofBytes type bytes = .ok v) ↔ bytes.length = type.size) ∧
      (∀ v, ofBytes type bytes = .ok v ↔ v.type = type ∧ v.toBytes = bytes) ∧
      (∀ e, ofBytes type bytes = .error e ↔
        bytes.length ≠ type.size ∧ e = ⟨type, type.size, bytes.length⟩) ∧
      ∀ v : Value, ofBytes v.type v.toBytes = .ok v :=
  ⟨exists_ofBytes_iff, fun _ => ofBytes_eq_ok_iff, fun _ => ofBytes_eq_error_iff,
    fun _ => ofBytes_eq_ok_iff.2 ⟨rfl, rfl⟩⟩

theorem forms_agree (v : Value) (type : NativeType) (word : UInt64) :
    ofBytes type ((octets word).take type.size) = .ok (ofWord type word) ∧
      v.toBytes = (octets v.toWord).take v.type.size := by
  rw [take_octets type.size_le, take_octets v.type.size_le]
  exact ⟨ofBytes_low type word, v.toBytes_eq⟩

end Value

end ForeignCall
