import VectorDb.Lib.ReflectedDivision
import VectorDb.Persistence.ByteIo

/-!
The table-driven checksum of src/persistence/byte_io.cpp as a division of the bits it
is given, in pieces or in one, and the damage it cannot miss.
-/
set_option autoImplicit false

namespace VectorDb.Persistence

open VectorDb.Lib

def kPolynomial : BitVec 32 := 0xEDB88320#32

/-- The bits of a byte string in the order the checksum takes them, lowest first. -/
def bitsOf (data : Bytes) : List Bool :=
  data.flatMap fun value => (List.range 8).map value.val.testBit

@[simp] theorem bitsOf_nil : bitsOf [] = [] := rfl

@[simp] theorem bitsOf_append (a b : Bytes) : bitsOf (a ++ b) = bitsOf a ++ bitsOf b :=
  List.flatMap_append

@[simp] theorem length_bitsOf (data : Bytes) : (bitsOf data).length = 8 * data.length := by
  induction data with
  | nil => rfl
  | cons value data ih =>
    rw [bitsOf] at ih
    rw [bitsOf, List.flatMap_cons, List.length_append, ih, List.length_map, List.length_range,
      List.length_cons]
    omega

/-- They are the bits of the bytes as one number. -/
theorem bitsOf_eq (data : Bytes) :
    bitsOf data = (List.range (8 * data.length)).map (fromLittleEndian data).testBit := by
  induction data with
  | nil => rfl
  | cons value data ih =>
    rw [bitsOf] at ih
    rw [bitsOf, List.flatMap_cons, ih]
    apply List.ext_getElem?
    intro i
    have hbit := Nat.testBit_two_pow_mul_add (i := 8) (fromLittleEndian data) value.isLt i
    rw [show 2 ^ 8 * fromLittleEndian data + value.val = fromLittleEndian (value :: data) by
      rw [fromLittleEndian]; omega] at hbit
    simp only [List.getElem?_append, List.getElem?_map, List.length_map, List.length_range,
      List.length_cons]
    by_cases hi : i < 8
    · rw [if_pos hi]
      rw [if_pos hi] at hbit
      simp [hi, hbit, show i < 8 * (data.length + 1) by omega]
    · rw [if_neg hi]
      rw [if_neg hi] at hbit
      by_cases hlast : i < 8 * (data.length + 1)
      · simp [hbit, hlast, show i - 8 < 8 * data.length by omega]
      · simp [hlast, show ¬ i - 8 < 8 * data.length by omega]

theorem crcBit_eq (value : BitVec 32) : crcBit value = shiftOut kPolynomial value := by
  have hlow : (value &&& 1#32 = 0#32) ↔ value.getLsbD 0 = false := by
    rw [BitVec.and_one_eq_setWidth_ofBool_getLsbD]
    cases value.getLsbD 0 <;> decide
  unfold crcBit shiftOut
  by_cases h : value.getLsbD 0 = true
  · rw [if_neg (by rw [hlow, h]; decide), if_pos h, kPolynomial]
  · rw [if_pos (hlow.mpr (by simpa using h)), if_neg h]

theorem crcTableEntry_eq (i : BitVec 32) : crcTableEntry i = (shiftOut kPolynomial)^[8] i := by
  simp only [crcTableEntry, crcBit_eq]
  rfl

/-- A table entry is its index divided out. -/
theorem getD_kCrcTable {x : BitVec 32} (h : x.toNat < 256) :
    kCrcTable.getD x.toNat 0#32 = (shiftOut kPolynomial)^[8] x := by
  rw [← crcTableEntry_eq, kCrcTable, List.getD_eq_getElem _ _ (by simpa using h)]
  simp

theorem getLsbD_lowByte (i : Nat) : (0xFF#32).getLsbD i = decide (i < 8) := by
  change (255 % 2 ^ 32).testBit i = _
  exact Nat.testBit_two_pow_sub_one 8 i

/-- One byte by the table is eight steps without new bits. -/
theorem crcByte_eq (crc : BitVec 32) (value : Byte) :
    crcByte crc value = (shiftOut kPolynomial)^[8] (crc ^^^ BitVec.ofNat 32 value.val) := by
  have hvalue : BitVec.ofNat 32 value.val >>> 8 = 0#32 := by
    apply BitVec.eq_of_toNat_eq
    have hlt := value.isLt
    simp only [BitVec.toNat_ushiftRight, BitVec.toNat_ofNat]
    simp
    omega
  unfold crcByte
  generalize hx : crc ^^^ BitVec.ofNat 32 value.val = x
  have hcrc : crc >>> 8 = x >>> 8 := by
    rw [← hx, BitVec.ushiftRight_xor_distrib, hvalue, BitVec.xor_zero]
  have hsplit : x = (x &&& 0xFF#32) ^^^ (x &&& ~~~ 0xFF#32) := by
    apply BitVec.eq_of_getLsbD_eq
    intro i hi
    simp only [BitVec.getLsbD_xor, BitVec.getLsbD_and, BitVec.getLsbD_not, getLsbD_lowByte, hi]
    by_cases h8 : i < 8 <;> simp [h8]
  have hhigh : (shiftOut kPolynomial)^[8] (x &&& ~~~ 0xFF#32) = x >>> 8 := by
    rw [iterate_shiftOut_of_low]
    · apply BitVec.eq_of_getLsbD_eq
      intro i hi
      simp only [BitVec.getLsbD_ushiftRight, BitVec.getLsbD_and, BitVec.getLsbD_not, getLsbD_lowByte]
      by_cases hlast : 8 + i < 32
      · simp [hlast]
      · rw [BitVec.getLsbD_of_ge x _ (by omega), Bool.false_and]
    · intro i hi
      rw [BitVec.getLsbD_and, BitVec.getLsbD_not, getLsbD_lowByte, decide_eq_true hi, Bool.not_true,
        Bool.and_false, Bool.and_false]
  have hlow : (x &&& 0xFF#32).toNat < 256 := by
    rw [BitVec.toNat_and]
    exact Nat.lt_of_le_of_lt Nat.and_le_right (by decide)
  rw [getD_kCrcTable hlow, hcrc, ← hhigh, ← iterate_shiftOut_xor, ← hsplit]

section Division

theorem bitsOf_block {block : Bytes} (h : block.length ≤ 4) :
    bitsOf block = (List.range (8 * block.length)).map
      (BitVec.ofNat 32 (fromLittleEndian block)).getLsbD := by
  rw [bitsOf_eq]
  refine List.map_congr_left fun i hi => ?_
  have hlt := List.mem_range.mp hi
  rw [BitVec.getLsbD_ofNat, decide_eq_true (show i < 32 by omega), Bool.true_and]

/-- Up to four bytes enter the register at once. -/
theorem divideBits_block {block : Bytes} (h : block.length ≤ 4) (crc : BitVec 32) :
    divideBits kPolynomial crc (bitsOf block) = (shiftOut kPolynomial)^[8 * block.length]
      (crc ^^^ BitVec.ofNat 32 (fromLittleEndian block)) := by
  rw [bitsOf_block h, divideBits_register]
  intro i hi
  have hlt : fromLittleEndian block < 2 ^ i := by
    calc fromLittleEndian block < 256 ^ block.length := fromLittleEndian_lt block
      _ = 2 ^ (8 * block.length) := (pow_mul 2 8 block.length).symm
      _ ≤ 2 ^ i := Nat.pow_le_pow_right (by decide) hi
  rw [BitVec.getLsbD_ofNat, Nat.testBit_lt_two_pow hlt, Bool.and_false]

theorem foldl_crcByte (data : Bytes) (crc : BitVec 32) :
    data.foldl crcByte crc = divideBits kPolynomial crc (bitsOf data) := by
  induction data generalizing crc with
  | nil => rfl
  | cons value data ih =>
    have hbyte : crcByte crc value = divideBits kPolynomial crc (bitsOf [value]) := by
      rw [divideBits_block (by simp), crcByte_eq, fromLittleEndian, fromLittleEndian]
      rfl
    rw [List.foldl_cons, ih, hbyte, ← divideBits_append, ← bitsOf_append, List.singleton_append]

/-- The table-driven checksum divides bit by bit. -/
theorem crc32_eq (data : Bytes) (seed : BitVec 32) :
    crc32 data seed = ~~~ divideBits kPolynomial (~~~ seed) (bitsOf data) := by
  rw [crc32, foldl_crcByte]

/-- What it divides, and by what: the polynomial of the bytes behind the inverted seed. -/
theorem registerPoly_crc32 (data : Bytes) (seed : BitVec 32) :
    registerPoly (~~~ crc32 data seed) =
      (Polynomial.X ^ (8 * data.length) * registerPoly (~~~ seed) +
        Polynomial.X ^ 32 * bitsPoly (bitsOf data)) %ₘ divisorPoly kPolynomial := by
  rw [crc32_eq, BitVec.not_not, registerPoly_divideBits _ (by decide), length_bitsOf]

/-- The inversion after one piece is undone before the next. -/
theorem crc32_append (a b : Bytes) (seed : BitVec 32) :
    crc32 (a ++ b) seed = crc32 b (crc32 a seed) := by
  simp only [crc32, List.foldl_append, BitVec.not_not]

end Division

section Damage

theorem divideBits_block_injective {a b : Bytes} (crc : BitVec 32) (ha : a.length ≤ 4)
    (hlength : a.length = b.length)
    (h : divideBits kPolynomial crc (bitsOf a) = divideBits kPolynomial crc (bitsOf b)) :
    a = b := by
  have hin : Function.Injective (shiftOut kPolynomial)^[8 * b.length] :=
    (shiftOut_injective kPolynomial (by decide)).iterate _
  rw [divideBits_block ha, divideBits_block (hlength ▸ ha), hlength] at h
  have hnumber := congrArg BitVec.toNat ((BitVec.xor_right_inj _).mp (hin h))
  have hlt : ∀ block : Bytes, block.length ≤ 4 → fromLittleEndian block < 2 ^ 32 := by
    intro block hblock
    calc fromLittleEndian block < 256 ^ block.length := fromLittleEndian_lt block
      _ ≤ 256 ^ 4 := Nat.pow_le_pow_right (by decide) hblock
  rw [BitVec.toNat_ofNat, BitVec.toNat_ofNat, Nat.mod_eq_of_lt (hlt a ha),
    Nat.mod_eq_of_lt (hlt b (hlength ▸ ha))] at hnumber
  exact fromLittleEndian_injective hlength hnumber

/-- Contents that agree before `start` and from four bytes after it. -/
def AgreeOutside (start : Nat) (a b : Bytes) : Prop :=
  ∀ i, i < start ∨ start + 4 ≤ i → a[i]? = b[i]?

/-- No damage within four consecutive bytes is missed. -/
theorem crc32_ne {a b : Bytes} {start : Nat} (seed : BitVec 32) (hlength : a.length = b.length)
    (hne : a ≠ b) (hagree : AgreeOutside start a b) : crc32 a seed ≠ crc32 b seed := by
  have hsplit : ∀ data : Bytes,
      data = data.take start ++ ((data.drop start).take 4 ++ data.drop (start + 4)) := by
    intro data
    rw [← List.drop_drop, List.take_append_drop, List.take_append_drop]
  have hbefore : a.take start = b.take start := by
    apply List.ext_getElem?
    intro i
    rw [List.getElem?_take, List.getElem?_take]
    split
    next hi => exact hagree i (.inl hi)
    next => rfl
  have hafter : a.drop (start + 4) = b.drop (start + 4) := by
    apply List.ext_getElem?
    intro i
    rw [List.getElem?_drop, List.getElem?_drop]
    exact hagree _ (.inr (by omega))
  intro heq
  rw [crc32_eq, crc32_eq, BitVec.not_inj, hsplit a, hsplit b, hbefore, hafter] at heq
  simp only [bitsOf_append, divideBits_append] at heq
  have hregister := divideBits_injective kPolynomial (by decide) _ heq
  have hmiddle := divideBits_block_injective _ (by simp) (by simp [hlength]) hregister
  exact hne (by rw [hsplit a, hsplit b, hbefore, hafter, hmiddle])

end Damage

end VectorDb.Persistence
