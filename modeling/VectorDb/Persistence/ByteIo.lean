import VectorDb.Core.Error
import VectorDb.Lib.LittleEndian
import VectorDb.Lib.Throwing

/-!
src/persistence/byte_io.cpp: the fields a `ByteWriter` appends, the `ByteReader`
that takes them off again, and the checksum.
-/
set_option autoImplicit false

namespace VectorDb.Persistence

open VectorDb.Lib Throwing

/-- What `ByteWriter` appends for each kind of field. -/
def u8 (value : Nat) : Bytes := littleEndian 1 value

def u16 (value : Nat) : Bytes := littleEndian 2 value

def u32 (value : Nat) : Bytes := littleEndian 4 value

def u64 (value : Nat) : Bytes := littleEndian 8 value

/-- A float by its bit pattern. -/
def f32 (bits : Nat) : Bytes := u32 bits

def pad (count : Nat) : Bytes := List.replicate count 0

def fixedString (text : Bytes) (size : Nat) : Bytes :=
  text.take size ++ pad (size - min text.length size)

theorem length_fixedString {text : Bytes} {size : Nat} (h : text.length ≤ size) :
    (fixedString text size).length = size := by
  simp [fixedString, pad]
  omega

/-- The padding begins with a NUL, and a text has none. -/
theorem takeWhile_fixedString {text : Bytes} {size : Nat} (hsize : text.length ≤ size)
    (hnul : ∀ b ∈ text, b ≠ 0) : (fixedString text size).takeWhile (· ≠ 0) = text := by
  rw [fixedString, List.take_of_length_le hsize, List.takeWhile_append_of_pos (by simpa using hnul)]
  cases size - min text.length size <;> simp [pad, List.replicate_succ]

/-- A reader that stands at `position`, with `rest` of its data still to read. -/
structure ByteReader where
  context : String
  position : Nat
  rest : Bytes

namespace ByteReader

abbrev Read (α : Type) := Throwing Error ByteReader α

def require (count : Nat) (what : String) : Read Unit := do
  let r ← get
  if r.rest.length < count then
    throw (.corruption (r.context ++ ": truncated while reading " ++ what ++ " at offset " ++
      toString r.position ++ " — needed " ++ toString count ++ " bytes but only " ++
      toString r.rest.length ++ " remain"))

/-- Take bytes off without looking whether they are there. -/
def take (count : Nat) : Read Bytes := do
  let r ← get
  set { r with position := r.position + count, rest := r.rest.drop count }
  return r.rest.take count

def word (width : Nat) (what : String) : Read Nat := do
  require width what
  return fromLittleEndian (← take width)

def u8 : Read Nat := word 1 "u8"

def u32 : Read Nat := word 4 "u32"

def u64 : Read Nat := word 8 "u64"

def bytes (count : Nat) : Read Bytes := do
  require count "byte block"
  take count

/-- The text up to its first NUL. -/
def fixedString (size : Nat) : Read Bytes := do
  return (← bytes size).takeWhile (· ≠ 0)

def skip (count : Nat) : Read Unit := do
  require count "skipped region"
  let _ ← take count

/-- The reader `count` bytes further on, with `rest` to come. -/
def advance (r : ByteReader) (count : Nat) (rest : Bytes) : ByteReader :=
  { r with position := r.position + count, rest := rest }

section Exec
variable (context : String) (position : Nat) (rest : Bytes)

theorem exec_require (r : ByteReader) {count : Nat} (what : String) (h : count ≤ r.rest.length) :
    exec (require count what) r = (.ok (), r) := by
  simp [require, exec_bind, show ¬ r.rest.length < count by omega]

theorem exec_take (r : ByteReader) (count : Nat) :
    exec (take count) r = (.ok (r.rest.take count), r.advance count (r.rest.drop count)) := rfl

/-- A field of known bytes is read by taking these bytes off. -/
theorem exec_word_append {field : Bytes} {width : Nat} (what : String)
    (h : field.length = width) :
    exec (word width what) ⟨context, position, field ++ rest⟩ =
      (.ok (fromLittleEndian field), ⟨context, position + width, rest⟩) := by
  simp only [word, exec_bind]
  rw [exec_require _ what (by simp [h])]
  simp only [exec_take, advance]
  rw [List.take_left' h, List.drop_left' h]
  rfl

@[simp] theorem exec_u8 (value : Nat) :
    exec u8 ⟨context, position, Persistence.u8 value ++ rest⟩ =
      (.ok (value % 256), ⟨context, position + 1, rest⟩) := by
  rw [u8, Persistence.u8, exec_word_append _ _ _ _ (length_littleEndian 1 value),
    fromLittleEndian_littleEndian]
  norm_num

@[simp] theorem exec_u32 (value : Nat) :
    exec u32 ⟨context, position, Persistence.u32 value ++ rest⟩ =
      (.ok (value % 4294967296), ⟨context, position + 4, rest⟩) := by
  rw [u32, Persistence.u32, exec_word_append _ _ _ _ (length_littleEndian 4 value),
    fromLittleEndian_littleEndian]
  norm_num

@[simp] theorem exec_u64 (value : Nat) :
    exec u64 ⟨context, position, Persistence.u64 value ++ rest⟩ =
      (.ok (value % 18446744073709551616), ⟨context, position + 8, rest⟩) := by
  rw [u64, Persistence.u64, exec_word_append _ _ _ _ (length_littleEndian 8 value),
    fromLittleEndian_littleEndian]
  norm_num

theorem exec_bytes_append {block : Bytes} {count : Nat} (h : block.length = count) :
    exec (bytes count) ⟨context, position, block ++ rest⟩ =
      (.ok block, ⟨context, position + count, rest⟩) := by
  simp only [bytes, exec_bind]
  rw [exec_require _ _ (by simp [h])]
  simp only [exec_take, advance]
  rw [List.take_left' h, List.drop_left' h]

theorem exec_fixedString {text : Bytes} {size : Nat} (hsize : text.length ≤ size)
    (hnul : ∀ b ∈ text, b ≠ 0) :
    exec (fixedString size) ⟨context, position, Persistence.fixedString text size ++ rest⟩ =
      (.ok text, ⟨context, position + size, rest⟩) := by
  simp only [fixedString, exec_bind]
  rw [exec_bytes_append _ _ _ (length_fixedString hsize)]
  simp only [exec_pure, takeWhile_fixedString hsize hnul]

@[simp] theorem exec_skip (count : Nat) :
    exec (skip count) ⟨context, position, pad count ++ rest⟩ =
      (.ok (), ⟨context, position + count, rest⟩) := by
  simp only [skip, exec_bind]
  rw [exec_require _ _ (by simp [pad])]
  simp only [exec_take, advance]
  rw [List.drop_left' (by simp [pad])]
  rfl

end Exec

end ByteReader

/-- One step of the table's construction. -/
def crcBit (value : BitVec 32) : BitVec 32 :=
  if value &&& 1#32 = 0#32 then value >>> 1 else (value >>> 1) ^^^ 0xEDB88320#32

def crcTableEntry (i : BitVec 32) : BitVec 32 :=
  crcBit (crcBit (crcBit (crcBit (crcBit (crcBit (crcBit (crcBit i)))))))

def kCrcTable : List (BitVec 32) := (List.range 256).map fun i => crcTableEntry (BitVec.ofNat 32 i)

def crcByte (crc : BitVec 32) (value : Byte) : BitVec 32 :=
  kCrcTable.getD ((crc ^^^ BitVec.ofNat 32 value.val) &&& 0xFF#32).toNat 0#32 ^^^ (crc >>> 8)

def crc32 (data : Bytes) (seed : BitVec 32) : BitVec 32 := ~~~ (data.foldl crcByte (~~~ seed))

/-- A sum or product of `std::uint64_t`. -/
def wrap64 (n : Nat) : Nat := n % 18446744073709551616

/-- One check of a file's contents. -/
def check (ok : Prop) [Decidable ok] (e : Error) : Except Error Unit :=
  if ok then .ok () else .error e

theorem check_eq_ok {ok : Prop} [Decidable ok] {e : Error} {u : Unit} :
    check ok e = .ok u ↔ ok := by
  unfold check
  split
  next h => simp [h]
  next h => simp [h]

theorem check_eq_error {ok : Prop} [Decidable ok] {e d : Error} :
    check ok e = .error d ↔ ¬ ok ∧ e = d := by
  unfold check
  split
  next h => simp [h]
  next h => simp [h]

namespace ByteReader

/-- However the reader stands, what is read passed these checks, or else the file is
reported as damaged. -/
def Checks {α : Type} (x : Read α) (Q : α → Prop) : Prop :=
  Triple (fun _ => True) x (fun a _ => Q a) (fun e _ => e.isCorruption = true)

section Checks
variable {α β : Type} {Q : α → Prop} {R : β → Prop}

theorem Checks.pure {a : α} (h : Q a) : Checks (Pure.pure a) Q := Triple.pure fun _ _ => h

theorem Checks.bind {x : Read α} {f : α → Read β} (hx : Checks x Q) (hf : ∀ a, Q a → Checks (f a) R) :
    Checks (x >>= f) R := by
  intro r _
  have h := hx r trivial
  rw [exec_bind]
  cases hr : exec x r with
  | mk o t =>
    rw [hr] at h
    cases o with
    | ok a => exact hf a h t trivial
    | error e => exact h

theorem Checks.mono {x : Read α} {P : α → Prop} (hx : Checks x P) (h : ∀ a, P a → Q a) :
    Checks x Q :=
  Triple.conseq hx (fun _ h => h) (fun a _ ha => h a ha) fun _ _ h => h

theorem Checks.fromExcept {x : Except Error α} (h : ∀ e, x = .error e → e.isCorruption = true) :
    Checks (fromExcept x) fun a => x = .ok a := by
  intro r _
  rw [exec_fromExcept]
  cases x with
  | ok a => rfl
  | error e => exact h e rfl

theorem Checks.check {ok : Prop} [Decidable ok] {e : Error} (he : e.isCorruption = true) :
    Checks (Throwing.fromExcept (check ok e)) fun _ => ok :=
  Checks.mono (Checks.fromExcept fun _ hd => (check_eq_error.mp hd).2 ▸ he) fun _ h =>
    check_eq_ok.mp h

theorem Checks.require (count : Nat) (what : String) : Checks (require count what) fun _ => True := by
  intro r _
  by_cases h : r.rest.length < count
  · simp [ByteReader.require, exec_bind, h, Error.isCorruption]
  · rw [exec_require r what (by omega)]
    trivial

theorem Checks.take (count : Nat) : Checks (take count) fun bytes => bytes.length ≤ count :=
  fun r _ => List.length_take_le count r.rest

theorem Checks.word (width : Nat) (what : String) :
    Checks (word width what) fun n => n < 256 ^ width := by
  refine (Checks.require width what).bind fun _ _ => (Checks.take width).bind fun bytes hb => ?_
  exact Checks.pure ((fromLittleEndian_lt bytes).trans_le (Nat.pow_le_pow_right (by decide) hb))

theorem Checks.fixedString (size : Nat) : Checks (fixedString size) fun _ => True :=
  ((Checks.require size _).bind fun _ _ => Checks.take size).bind fun _ _ => Checks.pure trivial

theorem Checks.skip (count : Nat) : Checks (skip count) fun _ => True :=
  (Checks.require count _).bind fun _ _ => (Checks.take count).bind fun _ _ => Checks.pure trivial

end Checks

end ByteReader

end VectorDb.Persistence
