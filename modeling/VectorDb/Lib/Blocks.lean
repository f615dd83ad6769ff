import Mathlib

/-!
Counted blocks inside a flat array of naturals: a block is a count followed by
that many values, in a place of fixed width.
-/
set_option autoImplicit false

namespace VectorDb.Lib

/-- The array with `values` written from `pos` on; what falls outside is lost. -/
def writeAt (a : List Nat) (pos : Nat) : List Nat → List Nat
  | [] => a
  | v :: values => writeAt (a.set pos v) (pos + 1) values

@[simp] theorem length_writeAt (a : List Nat) (pos : Nat) (values : List Nat) :
    (writeAt a pos values).length = a.length := by
  induction values generalizing a pos with
  | nil => rfl
  | cons v values ih => simp [writeAt, ih]

theorem getElem?_writeAt_of_lt {a : List Nat} {pos j : Nat} (values : List Nat) (h : j < pos) :
    (writeAt a pos values)[j]? = a[j]? := by
  induction values generalizing a pos with
  | nil => rfl
  | cons v values ih =>
    rw [writeAt, ih (by omega), List.getElem?_set_ne (by omega)]

theorem getElem?_writeAt_of_le {a : List Nat} {pos j : Nat} (values : List Nat)
    (h : pos + values.length ≤ j) : (writeAt a pos values)[j]? = a[j]? := by
  induction values generalizing a pos with
  | nil => rfl
  | cons v values ih =>
    have hlen : pos + (values.length + 1) ≤ j := by simpa using h
    rw [writeAt, ih (by omega), List.getElem?_set_ne (by omega)]

theorem getElem?_writeAt (a : List Nat) (pos : Nat) {i : Nat} (values : List Nat)
    (hi : i < values.length) (ha : pos + i < a.length) :
    (writeAt a pos values)[pos + i]? = values[i]? := by
  induction values generalizing a pos i with
  | nil => simp at hi
  | cons v values ih =>
    cases i with
    | zero =>
      rw [writeAt, Nat.add_zero, getElem?_writeAt_of_lt values (by omega)]
      simp [show pos < a.length by omega]
    | succ i =>
      have hi' : i < values.length := by simpa using hi
      rw [writeAt, show pos + (i + 1) = pos + 1 + i by omega,
        ih (a.set pos v) (pos + 1) hi' (by simp; omega)]
      simp

theorem mem_writeAt {a : List Nat} {pos x : Nat} {values : List Nat}
    (h : x ∈ writeAt a pos values) : x ∈ a ∨ x ∈ values := by
  induction values generalizing a pos with
  | nil => exact .inl h
  | cons v values ih =>
    rcases ih h with h | h
    · rcases List.mem_or_eq_of_mem_set h with h | rfl
      · exact .inl h
      · exact .inr (by simp)
    · exact .inr (by simp [h])

/-- The count of the block at `pos` as the array has it. -/
def blockCount (a : List Nat) (pos : Nat) : Nat := a.getD pos 0

/-- The values of the block at `pos`. -/
def readBlock (a : List Nat) (pos : Nat) : List Nat :=
  (a.drop (pos + 1)).take (blockCount a pos)

def writeBlock (a : List Nat) (pos : Nat) (values : List Nat) : List Nat :=
  writeAt a pos (values.length :: values)

/-- One more value at the end of the block at `pos`. -/
def pushBlock (a : List Nat) (pos value : Nat) : List Nat :=
  (a.set (pos + blockCount a pos + 1) value).set pos (blockCount a pos + 1)

@[simp] theorem length_writeBlock (a : List Nat) (pos : Nat) (values : List Nat) :
    (writeBlock a pos values).length = a.length := length_writeAt a pos _

@[simp] theorem length_pushBlock (a : List Nat) (pos value : Nat) :
    (pushBlock a pos value).length = a.length := by simp [pushBlock]

theorem mem_of_mem_readBlock {a : List Nat} {pos x : Nat} (h : x ∈ readBlock a pos) : x ∈ a :=
  List.mem_of_mem_drop (List.mem_of_mem_take h)

theorem mem_writeBlock {a : List Nat} {pos x : Nat} {values : List Nat}
    (h : x ∈ writeBlock a pos values) : x ∈ a ∨ x = values.length ∨ x ∈ values := by
  simpa using mem_writeAt h

theorem mem_pushBlock {a : List Nat} {pos value x : Nat} (h : x ∈ pushBlock a pos value) :
    x ∈ a ∨ x = blockCount a pos + 1 ∨ x = value := by
  rcases List.mem_or_eq_of_mem_set h with h | h
  · rcases List.mem_or_eq_of_mem_set h with h | h
    · exact .inl h
    · exact .inr (.inr h)
  · exact .inr (.inl h)

theorem getElem?_readBlock (a : List Nat) (pos i : Nat) :
    (readBlock a pos)[i]? = if i < blockCount a pos then a[pos + 1 + i]? else none := by
  simp [readBlock, List.getElem?_take]

theorem length_readBlock {a : List Nat} {pos : Nat} (h : pos + blockCount a pos < a.length) :
    (readBlock a pos).length = blockCount a pos := by
  simp only [readBlock, List.length_take, List.length_drop]
  omega

/-- A block reads the same in every array that agrees on its place. -/
theorem readBlock_congr {a b : List Nat} {pos : Nat} (width : Nat) (hc : blockCount a pos < width)
    (h : ∀ j, pos ≤ j → j < pos + width → b[j]? = a[j]?) : readBlock b pos = readBlock a pos := by
  have hcount : blockCount b pos = blockCount a pos := by
    simp only [blockCount, List.getD_eq_getElem?_getD]
    rw [h pos le_rfl (by omega)]
  apply List.ext_getElem?
  intro i
  rw [getElem?_readBlock, getElem?_readBlock, hcount]
  split
  · rw [h (pos + 1 + i) (by omega) (by omega)]
  · rfl

theorem blockCount_congr {a b : List Nat} {pos : Nat} (h : b[pos]? = a[pos]?) :
    blockCount b pos = blockCount a pos := by
  simp only [blockCount, List.getD_eq_getElem?_getD, h]

section Write
variable {a : List Nat} {pos : Nat} {values : List Nat}

theorem blockCount_writeBlock (h : pos < a.length) :
    blockCount (writeBlock a pos values) pos = values.length := by
  have hcount : (writeBlock a pos values)[pos]? = some values.length :=
    getElem?_writeAt a pos (i := 0) (values.length :: values) (by simp) (by omega)
  rw [blockCount, List.getD_eq_getElem?_getD, hcount]
  rfl

theorem readBlock_writeBlock (h : pos + values.length < a.length) :
    readBlock (writeBlock a pos values) pos = values := by
  apply List.ext_getElem?
  intro i
  rw [getElem?_readBlock, blockCount_writeBlock (by omega)]
  split
  next hi =>
    have := getElem?_writeAt a pos (i := i + 1) (values.length :: values)
      (by simpa using hi) (by omega)
    rw [show pos + 1 + i = pos + (i + 1) by omega, writeBlock, this]
    simp
  next hi => exact (List.getElem?_eq_none (by omega)).symm

theorem getElem?_writeBlock_outside {j : Nat} (h : j < pos ∨ pos + values.length < j) :
    (writeBlock a pos values)[j]? = a[j]? := by
  rcases h with h | h
  · exact getElem?_writeAt_of_lt _ h
  · exact getElem?_writeAt_of_le _ (by simp; omega)

theorem getElem?_pushBlock_outside {value j : Nat}
    (h : j < pos ∨ pos + blockCount a pos + 1 < j) : (pushBlock a pos value)[j]? = a[j]? := by
  unfold pushBlock
  rw [List.getElem?_set_ne (by omega), List.getElem?_set_ne (by omega)]

theorem blockCount_pushBlock {value : Nat} (h : pos < a.length) :
    blockCount (pushBlock a pos value) pos = blockCount a pos + 1 := by
  conv_lhs => unfold blockCount
  simp [pushBlock, h]

theorem readBlock_pushBlock {value : Nat} (h : pos + blockCount a pos + 1 < a.length) :
    readBlock (pushBlock a pos value) pos = readBlock a pos ++ [value] := by
  apply List.ext_getElem?
  intro i
  rw [getElem?_readBlock, blockCount_pushBlock (by omega), List.getElem?_append,
    length_readBlock (by omega), getElem?_readBlock]
  by_cases hi : i < blockCount a pos
  · simp only [hi, if_true, show i < blockCount a pos + 1 by omega]
    unfold pushBlock
    rw [List.getElem?_set_ne (by omega), List.getElem?_set_ne (by omega)]
  · by_cases he : i = blockCount a pos
    · subst he
      unfold pushBlock
      rw [List.getElem?_set_ne (by omega)]
      simp [show pos + 1 + blockCount a pos = pos + blockCount a pos + 1 by omega, h]
    · simp [hi, show ¬ i < blockCount a pos + 1 by omega,
        show i - blockCount a pos ≠ 0 by omega]

end Write

end VectorDb.Lib
