import VectorDb.Lib.Word

/-!
Naturals as little-endian byte strings of a fixed width, one at a time and as
arrays.
-/
set_option autoImplicit false

namespace VectorDb.Lib

/-- The lowest `width` bytes of a natural, lowest first. -/
def littleEndian : Nat → Nat → List (Fin 256)
  | 0, _ => []
  | width + 1, n => Fin.ofNat 256 n :: littleEndian width (n / 256)

def fromLittleEndian : List (Fin 256) → Nat
  | [] => 0
  | b :: bytes => b.val + 256 * fromLittleEndian bytes

@[simp] theorem length_littleEndian (width n : Nat) : (littleEndian width n).length = width := by
  induction width generalizing n with
  | zero => rfl
  | succ width ih => simp [littleEndian, ih]

theorem fromLittleEndian_littleEndian (width n : Nat) :
    fromLittleEndian (littleEndian width n) = n % 256 ^ width := by
  induction width generalizing n with
  | zero => simp [littleEndian, fromLittleEndian, Nat.mod_one]
  | succ width ih =>
    rw [littleEndian, fromLittleEndian, ih, Nat.pow_succ', Nat.mod_mul]
    rfl

theorem fromLittleEndian_of_lt {width n : Nat} (h : n < 256 ^ width) :
    fromLittleEndian (littleEndian width n) = n := by
  rw [fromLittleEndian_littleEndian, Nat.mod_eq_of_lt h]

theorem fromLittleEndian_lt (bytes : List (Fin 256)) :
    fromLittleEndian bytes < 256 ^ bytes.length := by
  induction bytes with
  | nil => simp [fromLittleEndian]
  | cons b bytes ih =>
    have hb := b.isLt
    rw [fromLittleEndian, List.length_cons, Nat.pow_succ]
    omega

/-- Strings of one length are told apart by their number. -/
theorem fromLittleEndian_injective {a b : List (Fin 256)} (hlength : a.length = b.length)
    (h : fromLittleEndian a = fromLittleEndian b) : a = b := by
  induction a generalizing b with
  | nil => exact (List.length_eq_zero_iff.mp hlength.symm).symm
  | cons x a ih =>
    cases b with
    | nil => simp at hlength
    | cons y b =>
      rw [fromLittleEndian, fromLittleEndian] at h
      have hx := x.isLt
      have hy := y.isLt
      have hhead : x = y := Fin.ext (by omega)
      have htail : a = b := ih (by simpa using hlength) (by omega)
      rw [hhead, htail]

/-- Words of `width` bytes one after the other. -/
def packWords (width : Nat) (words : List Nat) : List (Fin 256) :=
  words.flatMap (littleEndian width)

/-- The first `count` words of a byte string. -/
def unpackWords (width : Nat) : Nat → List (Fin 256) → List Nat
  | 0, _ => []
  | count + 1, bytes =>
    fromLittleEndian (bytes.take width) :: unpackWords width count (bytes.drop width)

@[simp] theorem length_packWords (width : Nat) (words : List Nat) :
    (packWords width words).length = words.length * width := by
  induction words with
  | nil => simp [packWords]
  | cons w words ih =>
    rw [packWords, List.flatMap_cons, List.length_append, length_littleEndian, List.length_cons]
    rw [packWords] at ih
    rw [ih]
    ring

@[simp] theorem length_unpackWords (width count : Nat) (bytes : List (Fin 256)) :
    (unpackWords width count bytes).length = count := by
  induction count generalizing bytes with
  | zero => rfl
  | succ count ih => simp [unpackWords, ih]

/-- An array of words that fit reads back as it was written. -/
theorem unpackWords_packWords {width : Nat} {words : List Nat} (rest : List (Fin 256))
    (h : ∀ w ∈ words, w < 256 ^ width) :
    unpackWords width words.length (packWords width words ++ rest) = words := by
  induction words with
  | nil => rfl
  | cons w words ih =>
    rw [packWords, List.flatMap_cons, List.append_assoc, List.length_cons, unpackWords,
      List.take_left' (length_littleEndian width w), List.drop_left' (length_littleEndian width w),
      fromLittleEndian_of_lt (h w (by simp))]
    exact congrArg _ (ih fun v hv => h v (by simp [hv]))

end VectorDb.Lib
