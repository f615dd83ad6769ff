import VectorDb.Persistence.ByteIo

/-!
`ByteReader` over its own members: a span, a position in it and `std::size_t` arithmetic, where
an access outside the span is a fault of its own. The calls on it, and the fields a `ByteWriter`
appends.
-/
set_option autoImplicit false

namespace VectorDb.Persistence

open VectorDb.Lib Throwing

/-- How a call fails: with its exception, or at a byte that is not in the span. -/
inductive Fault where
  | thrown (e : Error)
  | outside (index : Nat)
  deriving DecidableEq, Repr

structure SpanReader where
  data : Bytes
  context : String
  position : Nat
  size_lt : data.length < 18446744073709551616

namespace SpanReader

abbrev Read (α : Type) := Throwing Fault SpanReader α

/-- `data_.size() - position_`, which wraps where the position is past the end. -/
def remaining (r : SpanReader) : Nat :=
  if r.position ≤ r.data.length then r.data.length - r.position
  else r.data.length + 18446744073709551616 - r.position

def exhausted (r : SpanReader) : Bool := r.remaining == 0

def truncated (context : String) (position count remaining : Nat) (what : String) : Error :=
  .corruption (context ++ ": truncated while reading " ++ what ++ " at offset " ++
    toString position ++ " — needed " ++ toString count ++ " bytes but only " ++
    toString remaining ++ " remain")

def unexpected (context : String) (position count remaining : Nat) (what : String) : Error :=
  .corruption (context ++ ": " ++ what ++ " — expected exactly " ++ toString count ++
    " bytes after offset " ++ toString position ++ " but found " ++ toString remaining)

def require (count : Nat) (what : String) : Read Unit := do
  let r ← get
  if r.remaining < count then
    throw (.thrown (truncated r.context r.position count r.remaining what))

def expectRemaining (count : Nat) (what : String) : Read Unit := do
  let r ← get
  if r.remaining ≠ count then
    throw (.thrown (unexpected r.context r.position count r.remaining what))

/-- `position_ += count`. -/
def move (r : SpanReader) (count : Nat) : SpanReader :=
  { r with position := wrap64 (r.position + count) }

/-- `data_[position_++]`. -/
def next : Read Nat := do
  let r ← get
  match r.data[r.position]? with
  | some b =>
    set (r.move 1)
    return b.val
  | none => throw (.outside r.position)

def u8 : Read Nat := do
  require 1 "u8"
  next

def u16 : Read Nat := do
  require 2 "u16"
  let low ← u8
  let high ← u8
  return low ||| high <<< 8

/-- One turn of the loop of `u32` and `u64`, which looks at the shifts 0, 8, 16 and so on. -/
def shiftIn (value i : Nat) : Read Nat := do
  return value ||| (← u8) <<< (8 * i)

def u32 : Read Nat := do
  require 4 "u32"
  (List.range 4).foldlM shiftIn 0

def u64 : Read Nat := do
  require 8 "u64"
  (List.range 8).foldlM shiftIn 0

def f32 : Read Nat := u32

/-- `data_.subspan(position_, count)`, which has to lie in the span. -/
def subspan (count : Nat) : Read Bytes := do
  let r ← get
  if r.position + count ≤ r.data.length then return (r.data.drop r.position).take count
  else throw (.outside (r.position + count))

def bytes (count : Nat) : Read Bytes := do
  require count "byte block"
  let view ← subspan count
  modify fun r => r.move count
  return view

/-- The characters up to the first NUL. -/
def fixedString (size : Nat) : Read Bytes := do
  return (← bytes size).takeWhile (· ≠ 0)

def skip (count : Nat) : Read Unit := do
  require count "skipped region"
  modify fun r => r.move count

end SpanReader

/-- A call on a reader. -/
inductive Call where
  | u8 | u16 | u32 | u64 | f32
  | bytes (count : Nat)
  | fixedString (size : Nat)
  | skip (count : Nat)
  | require (count : Nat) (what : String)
  | expectRemaining (count : Nat) (what : String)
  deriving DecidableEq, Repr

/-- What a call returns. -/
inductive Value where
  | nothing
  | number (n : Nat)
  | bytes (block : Bytes)
  deriving DecidableEq, Repr

namespace Call

def run : Call → SpanReader.Read Value
  | .u8 => .number <$> SpanReader.u8
  | .u16 => .number <$> SpanReader.u16
  | .u32 => .number <$> SpanReader.u32
  | .u64 => .number <$> SpanReader.u64
  | .f32 => .number <$> SpanReader.f32
  | .bytes count => .bytes <$> SpanReader.bytes count
  | .fixedString size => .bytes <$> SpanReader.fixedString size
  | .skip count => (fun _ => .nothing) <$> SpanReader.skip count
  | .require count what => (fun _ => .nothing) <$> SpanReader.require count what
  | .expectRemaining count what => (fun _ => .nothing) <$> SpanReader.expectRemaining count what

/-- How many bytes have to be left for a call. -/
def needed : Call → Nat
  | .u8 => 1
  | .u16 => 2
  | .u32 => 4
  | .u64 => 8
  | .f32 => 4
  | .bytes count => count
  | .fixedString size => size
  | .skip count => count
  | .require count _ => count
  | .expectRemaining count _ => count

/-- How many bytes it takes off. -/
def taken : Call → Nat
  | .require _ _ => 0
  | .expectRemaining _ _ => 0
  | call => call.needed

/-- When a call throws, from the number of bytes left. -/
def Throws (left : Nat) : Call → Prop
  | .expectRemaining count _ => left ≠ count
  | call => left < call.needed

/-- One call after the other on one reader, also after a call that failed. -/
def runAll : List Call → SpanReader → List (Except Fault Value) × SpanReader
  | [], r => ([], r)
  | call :: calls, r =>
    ((exec call.run r).1 :: (runAll calls (exec call.run r).2).1,
      (runAll calls (exec call.run r).2).2)

end Call

/-- A field that a `ByteWriter` appends. -/
inductive Field where
  | u8 (value : BitVec 8)
  | u16 (value : BitVec 16)
  | u32 (value : BitVec 32)
  | u64 (value : BitVec 64)
  | f32 (bits : BitVec 32)
  | bytes (block : Bytes)
  | pad (count : Nat)
  | fixedString (text : Bytes) (size : Nat)
  deriving DecidableEq, Repr

namespace Field

def write : Field → Bytes
  | .u8 value => Persistence.u8 value.toNat
  | .u16 value => Persistence.u16 value.toNat
  | .u32 value => Persistence.u32 value.toNat
  | .u64 value => Persistence.u64 value.toNat
  | .f32 bits => Persistence.f32 bits.toNat
  | .bytes block => block
  | .pad count => Persistence.pad count
  | .fixedString text size => Persistence.fixedString text size

/-- The call that reads the field back, and what it is to return. -/
def call : Field → Call
  | .u8 _ => .u8
  | .u16 _ => .u16
  | .u32 _ => .u32
  | .u64 _ => .u64
  | .f32 _ => .f32
  | .bytes block => .bytes block.length
  | .pad count => .skip count
  | .fixedString _ size => .fixedString size

def value : Field → Value
  | .u8 value => .number value.toNat
  | .u16 value => .number value.toNat
  | .u32 value => .number value.toNat
  | .u64 value => .number value.toNat
  | .f32 bits => .number bits.toNat
  | .bytes block => .bytes block
  | .pad _ => .nothing
  | .fixedString text _ => .bytes text

/-- Text that a fixed-width string gives back. -/
def Fits : Field → Prop
  | .fixedString text size => text.length ≤ size ∧ 0 ∉ text
  | _ => True

def writeAll (fields : List Field) : Bytes := fields.flatMap write

end Field

namespace SpanReader

/-- The reader has not run past the end of its span. -/
def Inside (r : SpanReader) : Prop := r.position ≤ r.data.length

/-- The reader `count` bytes further on. -/
def ahead (r : SpanReader) (count : Nat) : SpanReader := { r with position := r.position + count }

/-- Where there are `count` bytes left the call takes them off and returns what `f` makes of
them. Where there are not it throws and stays where it is. -/
def Takes {α : Type} (x : Read α) (count : Nat) (what : String) (f : Bytes → α) : Prop :=
  ∀ r : SpanReader, r.Inside → exec x r =
    if r.remaining < count then
      (.error (.thrown (truncated r.context r.position count r.remaining what)), r)
    else (.ok (f ((r.data.drop r.position).take count)), r.ahead count)

section Reads
variable {r : SpanReader} {α β : Type}

theorem Inside.remaining_eq (h : r.Inside) : r.remaining = r.data.length - r.position :=
  if_pos h

theorem move_eq {count : Nat} (h : r.position + count ≤ r.data.length) :
    r.move count = r.ahead count := by
  have hsize := r.size_lt
  simp only [move, ahead, wrap64]
  rw [Nat.mod_eq_of_lt (by omega)]

theorem ahead_ahead (m n : Nat) : (r.ahead m).ahead n = r.ahead (m + n) := by
  simp only [ahead, Nat.add_assoc]

theorem inside_ahead {count : Nat} (h : r.Inside) (hcount : count ≤ r.remaining) :
    (r.ahead count).Inside := by
  rw [h.remaining_eq] at hcount
  simp only [Inside] at h
  simp only [Inside, ahead]
  omega

theorem exec_require (count : Nat) (what : String) : exec (require count what) r =
    if r.remaining < count then
      (.error (.thrown (truncated r.context r.position count r.remaining what)), r)
    else (.ok (), r) := by
  simp only [require, exec_bind, exec_get, exec_ite, exec_throw, exec_pure]

theorem exec_expectRemaining (count : Nat) (what : String) : exec (expectRemaining count what) r =
    if r.remaining ≠ count then
      (.error (.thrown (unexpected r.context r.position count r.remaining what)), r)
    else (.ok (), r) := by
  simp only [expectRemaining, exec_bind, exec_get, exec_ite, exec_throw, exec_pure]

theorem exec_next {b : Byte} (h : r.data[r.position]? = some b) :
    exec next r = (.ok b.val, r.ahead 1) := by
  have hlt : r.position + 1 ≤ r.data.length := (List.getElem?_eq_some_iff.mp h).1
  simp only [next, exec_bind, exec_get, h, exec_set, exec_pure, move_eq hlt]

theorem Takes.require_bind {x : Read α} {count : Nat} {what : String} {f : Bytes → α}
    (h : ∀ r : SpanReader, r.Inside → count ≤ r.remaining →
      exec x r = (.ok (f ((r.data.drop r.position).take count)), r.ahead count)) :
    Takes (require count what >>= fun _ => x) count what f := by
  intro r hr
  simp only [exec_bind, exec_require]
  by_cases hlt : r.remaining < count
  · simp only [if_pos hlt]
  · simp only [if_neg hlt]
    exact h r hr (Nat.le_of_not_lt hlt)

theorem Takes.map {x : Read α} {count : Nat} {what : String} {f : Bytes → α} (h : Takes x count what f)
    (g : α → β) : Takes (g <$> x) count what (g ∘ f) := by
  intro r hr
  simp only [exec_map, h r hr]
  by_cases hlt : r.remaining < count
  · simp only [if_pos hlt]
  · simp only [if_neg hlt, Function.comp_apply]

theorem takes_u8 : Takes u8 1 "u8" fromLittleEndian := by
  refine Takes.require_bind fun r hr hleft => ?_
  rw [hr.remaining_eq] at hleft
  have hlt : r.position < r.data.length := by omega
  have hget : r.data[r.position]? = some (r.data.get ⟨r.position, hlt⟩) :=
    List.getElem?_eq_getElem hlt
  have hdrop : r.data.drop r.position = r.data.get ⟨r.position, hlt⟩ ::
      r.data.drop (r.position + 1) := List.drop_eq_getElem_cons hlt
  rw [exec_next hget, hdrop, List.take_succ_cons, List.take_zero]
  rfl

/-- Bytes shifted in one after the other make up the little-endian number. -/
theorem exec_shiftIn {n k value : Nat} (hvalue : value < 256 ^ k) (hr : r.Inside)
    (hleft : n ≤ r.remaining) : exec ((List.range' k n).foldlM shiftIn value) r =
      (.ok (value + 256 ^ k * fromLittleEndian ((r.data.drop r.position).take n)), r.ahead n) := by
  induction n generalizing r k value with
  | zero => simp [ahead, fromLittleEndian]
  | succ n ih =>
    have hlt : r.position < r.data.length := by
      rw [hr.remaining_eq] at hleft
      omega
    have hnext : (r.ahead 1).Inside := inside_ahead hr (by omega)
    have hrest : n ≤ (r.ahead 1).remaining := by
      rw [hr.remaining_eq] at hleft
      rw [hnext.remaining_eq]
      simp only [ahead]
      omega
    obtain ⟨b, hb⟩ : ∃ b, (r.data.drop r.position) = b :: r.data.drop (r.position + 1) :=
      ⟨_, List.drop_eq_getElem_cons hlt⟩
    have hbyte : exec u8 r = (.ok b.val, r.ahead 1) := by
      rw [takes_u8 r hr, if_neg (by omega), hb]
      simp [fromLittleEndian]
    have hpow : 2 ^ (8 * k) = 256 ^ k := by rw [Nat.pow_mul]
    have hor : value ||| b.val <<< (8 * k) = value + 256 ^ k * b.val := by
      rw [Nat.or_comm, ← Nat.shiftLeft_add_eq_or_of_lt (by rw [hpow]; exact hvalue),
        Nat.shiftLeft_eq, hpow]
      ring
    have hturn : exec (shiftIn value k) r = (.ok (value + 256 ^ k * b.val), r.ahead 1) := by
      simp only [shiftIn, exec_bind, hbyte, exec_pure, hor]
    have hbound : value + 256 ^ k * b.val < 256 ^ (k + 1) := by
      have hle := Nat.mul_le_mul_left (256 ^ k) (Nat.le_of_lt_succ b.isLt)
      rw [Nat.pow_succ]
      omega
    have hdata : (r.ahead 1).data.drop (r.ahead 1).position = r.data.drop (r.position + 1) := rfl
    rw [List.range'_succ, List.foldlM_cons, exec_bind_ok hturn, ih hbound hnext hrest, hb,
      ahead_ahead, hdata, List.take_succ_cons, fromLittleEndian, Nat.add_comm 1 n, Nat.pow_succ,
      Nat.mul_add, Nat.add_assoc, Nat.mul_assoc]

theorem takes_u16 : Takes u16 2 "u16" fromLittleEndian := by
  refine Takes.require_bind fun r hr hleft => ?_
  have hloop : (do let low ← u8; let high ← u8; return low ||| high <<< 8 : Read Nat) =
      (List.range' 0 2).foldlM shiftIn 0 := by
    simp [List.range'_succ, shiftIn]
  rw [hloop, exec_shiftIn (by decide) hr hleft]
  simp

theorem takes_u32 : Takes u32 4 "u32" fromLittleEndian := by
  refine Takes.require_bind fun r hr hleft => ?_
  rw [List.range_eq_range', exec_shiftIn (by decide) hr hleft]
  simp

theorem takes_u64 : Takes u64 8 "u64" fromLittleEndian := by
  refine Takes.require_bind fun r hr hleft => ?_
  rw [List.range_eq_range', exec_shiftIn (by decide) hr hleft]
  simp

theorem takes_bytes (count : Nat) : Takes (bytes count) count "byte block" id := by
  refine Takes.require_bind fun r hr hleft => ?_
  have hroom : r.position + count ≤ r.data.length := by
    rw [hr.remaining_eq] at hleft
    simp only [Inside] at hr
    omega
  have hview : exec (subspan count) r = (.ok ((r.data.drop r.position).take count), r) := by
    simp only [subspan, exec_bind, exec_get, exec_pure, if_pos hroom]
  rw [exec_bind_ok hview]
  simp only [exec_bind, exec_modify, exec_pure, move_eq hroom, id]

theorem takes_fixedString (size : Nat) :
    Takes (fixedString size) size "byte block" (List.takeWhile (· ≠ 0)) := by
  intro r hr
  simp only [fixedString, exec_bind, takes_bytes size r hr]
  by_cases hlt : r.remaining < size
  · simp only [if_pos hlt]
  · simp only [if_neg hlt, exec_pure, id]

theorem takes_skip (count : Nat) : Takes (skip count) count "skipped region" fun _ => () := by
  refine Takes.require_bind fun r hr hleft => ?_
  have hroom : r.position + count ≤ r.data.length := by
    rw [hr.remaining_eq] at hleft
    simp only [Inside] at hr
    omega
  rw [exec_modify, move_eq hroom]

/-- A call that takes known bytes off. -/
theorem Takes.reads {x : Read α} {count : Nat} {what : String} {f : Bytes → α}
    (h : Takes x count what f) (hr : r.Inside) {field rest : Bytes}
    (hdrop : r.data.drop r.position = field ++ rest) (hlen : field.length = count) :
    exec x r = (.ok (f field), r.ahead count) := by
  have hleft : r.remaining = count + rest.length := by
    rw [hr.remaining_eq, ← List.length_drop, hdrop, List.length_append, hlen]
  rw [h r hr, if_neg (by omega), hdrop, List.take_left' hlen]

/-- What is told of the calls elsewhere, from the bytes that are still to come. -/
def view (r : SpanReader) : ByteReader := ⟨r.context, r.position, r.data.drop r.position⟩

/-- A call does what the one over the remaining bytes does. -/
def Refines (x : Read α) (y : ByteReader.Read α) : Prop :=
  ∀ r : SpanReader, r.Inside → (exec x r).1 = (exec y r.view).1.mapError Fault.thrown ∧
    (exec x r).2.view = (exec y r.view).2 ∧ (exec x r).2.Inside

theorem Takes.refines {x : Read α} {count : Nat} {what : String} {f : Bytes → α}
    (hx : Takes x count what f) {y : ByteReader.Read α}
    (hy : ∀ v : ByteReader, exec y v = if v.rest.length < count then
        (.error (truncated v.context v.position count v.rest.length what), v)
      else (.ok (f (v.rest.take count)), v.advance count (v.rest.drop count))) : Refines x y := by
  intro r hr
  have hlen : r.view.rest.length = r.remaining := by
    rw [hr.remaining_eq]
    exact List.length_drop
  rw [hx r hr, hy r.view, hlen]
  by_cases hlt : r.remaining < count
  · rw [if_pos hlt, if_pos hlt]
    exact ⟨rfl, rfl, hr⟩
  · rw [if_neg hlt, if_neg hlt]
    refine ⟨rfl, ?_, inside_ahead hr (by omega)⟩
    simp only [view, ahead, ByteReader.advance, List.drop_drop]

/-- The calls that files are read with. -/
theorem refines_byteReader :
    Refines u8 ByteReader.u8 ∧ Refines u32 ByteReader.u32 ∧ Refines u64 ByteReader.u64 ∧
      (∀ count, Refines (bytes count) (ByteReader.bytes count)) ∧
      (∀ size, Refines (fixedString size) (ByteReader.fixedString size)) ∧
      ∀ count, Refines (skip count) (ByteReader.skip count) := by
  have hrequire : ∀ (v : ByteReader) (count : Nat) (what : String),
      exec (ByteReader.require count what) v = if v.rest.length < count then
        (.error (truncated v.context v.position count v.rest.length what), v) else (.ok (), v) := by
    intro v count what
    simp only [ByteReader.require, exec_bind, exec_get, exec_ite, exec_throw, exec_pure, truncated]
  have hword : ∀ (width : Nat) (what : String) (v : ByteReader),
      exec (ByteReader.word width what) v = if v.rest.length < width then
        (.error (truncated v.context v.position width v.rest.length what), v)
      else (.ok (fromLittleEndian (v.rest.take width)), v.advance width (v.rest.drop width)) := by
    intro width what v
    simp only [ByteReader.word, exec_bind, hrequire]
    by_cases hlt : v.rest.length < width
    · simp only [if_pos hlt]
    · simp only [if_neg hlt, ByteReader.exec_take, exec_pure]
  have hbytes : ∀ (count : Nat) (v : ByteReader),
      exec (ByteReader.bytes count) v = if v.rest.length < count then
        (.error (truncated v.context v.position count v.rest.length "byte block"), v)
      else (.ok (v.rest.take count), v.advance count (v.rest.drop count)) := by
    intro count v
    simp only [ByteReader.bytes, exec_bind, hrequire]
    by_cases hlt : v.rest.length < count
    · simp only [if_pos hlt]
    · simp only [if_neg hlt, ByteReader.exec_take]
  refine ⟨takes_u8.refines (hword 1 _), takes_u32.refines (hword 4 _),
    takes_u64.refines (hword 8 _), fun count => (takes_bytes count).refines (hbytes count),
    fun size => (takes_fixedString size).refines fun v => ?_,
    fun count => (takes_skip count).refines fun v => ?_⟩
  · simp only [ByteReader.fixedString, exec_bind, hbytes]
    by_cases hlt : v.rest.length < size
    · simp only [if_pos hlt]
    · simp only [if_neg hlt, exec_pure]
  · simp only [ByteReader.skip, exec_bind, hrequire]
    by_cases hlt : v.rest.length < count
    · simp only [if_pos hlt]
    · simp only [if_neg hlt, ByteReader.exec_take, exec_pure]

end Reads

end SpanReader

namespace Call
variable {r : SpanReader}

open SpanReader

/-- A call throws a corruption error and moves nothing, or returns and takes off its bytes. -/
structure Bounded (call : Call) (r : SpanReader) : Prop where
  throws : call.Throws r.remaining →
    ∃ message, exec call.run r = (.error (.thrown (.corruption message)), r)
  returns : ¬ call.Throws r.remaining →
    call.taken ≤ r.remaining ∧ ∃ value, exec call.run r = (.ok value, r.ahead call.taken)

theorem bounded_of_takes {call : Call} {what : String} {f : Bytes → Value} (hr : r.Inside)
    (h : Takes call.run call.needed what f) (hthrows : call.Throws r.remaining ↔
      r.remaining < call.needed) (htaken : call.taken = call.needed) : call.Bounded r where
  throws hlt := ⟨_, by rw [h r hr, if_pos (hthrows.mp hlt)]; rfl⟩
  returns hge := by
    rw [hthrows] at hge
    refine ⟨by omega, f ((r.data.drop r.position).take call.needed), ?_⟩
    rw [h r hr, if_neg hge, htaken]

theorem bounded (call : Call) (hr : r.Inside) : call.Bounded r := by
  cases call with
  | u8 => exact bounded_of_takes hr (takes_u8.map _) Iff.rfl rfl
  | u16 => exact bounded_of_takes hr (takes_u16.map _) Iff.rfl rfl
  | u32 => exact bounded_of_takes hr (takes_u32.map _) Iff.rfl rfl
  | u64 => exact bounded_of_takes hr (takes_u64.map _) Iff.rfl rfl
  | f32 => exact bounded_of_takes hr (takes_u32.map _) Iff.rfl rfl
  | bytes count => exact bounded_of_takes hr ((takes_bytes count).map _) Iff.rfl rfl
  | fixedString size => exact bounded_of_takes hr ((takes_fixedString size).map _) Iff.rfl rfl
  | skip count => exact bounded_of_takes hr ((takes_skip count).map _) Iff.rfl rfl
  | require count what =>
    have hrun : exec (run (.require count what)) r = if r.remaining < count then
        (.error (.thrown (truncated r.context r.position count r.remaining what)), r)
        else (.ok .nothing, r) := by
      simp only [run, exec_map, exec_require]
      split_ifs <;> rfl
    exact ⟨fun hlt => ⟨_, hrun.trans (if_pos hlt)⟩,
      fun hge => ⟨Nat.zero_le _, .nothing, hrun.trans (if_neg hge)⟩⟩
  | expectRemaining count what =>
    have hrun : exec (run (.expectRemaining count what)) r = if r.remaining ≠ count then
        (.error (.thrown (unexpected r.context r.position count r.remaining what)), r)
        else (.ok .nothing, r) := by
      simp only [run, exec_map, exec_expectRemaining]
      split_ifs <;> rfl
    exact ⟨fun hne => ⟨_, hrun.trans (if_pos hne)⟩,
      fun heq => ⟨Nat.zero_le _, .nothing, hrun.trans (if_neg heq)⟩⟩

/-- No call, and so no sequence of calls, leaves the span or changes it. -/
theorem runAll_inside (calls : List Call) (hr : r.Inside) :
    (runAll calls r).2.Inside ∧ (runAll calls r).2.data = r.data := by
  induction calls generalizing r with
  | nil => exact ⟨hr, rfl⟩
  | cons call calls ih =>
    have hstep : (exec call.run r).2.Inside ∧ (exec call.run r).2.data = r.data := by
      by_cases hthrows : call.Throws r.remaining
      · obtain ⟨message, hrun⟩ := (bounded call hr).throws hthrows
        rw [hrun]
        exact ⟨hr, rfl⟩
      · obtain ⟨hle, value, hrun⟩ := (bounded call hr).returns hthrows
        rw [hrun]
        exact ⟨inside_ahead hr hle, rfl⟩
    obtain ⟨hinside, hdata⟩ := ih hstep.1
    exact ⟨hinside, hdata.trans hstep.2⟩

end Call

namespace Field
variable {r : SpanReader}

open SpanReader

theorem number_eq {width : Nat} (value : BitVec (8 * width)) :
    fromLittleEndian (littleEndian width value.toNat) = value.toNat := by
  refine fromLittleEndian_of_lt ?_
  rw [show 256 = 2 ^ 8 from rfl, ← Nat.pow_mul]
  exact value.isLt

/-- The call of a field takes off what was written for it. -/
theorem run_call {field : Field} (hfits : field.Fits) (hr : r.Inside) {rest : Bytes}
    (hdrop : r.data.drop r.position = field.write ++ rest) :
    exec field.call.run r = (.ok field.value, r.ahead field.write.length) := by
  have hnumber : ∀ {width : Nat} {x : Read Nat} {what : String}, Takes x width what fromLittleEndian →
      ∀ value : BitVec (8 * width), r.data.drop r.position = littleEndian width value.toNat ++ rest →
        exec (Value.number <$> x) r = (.ok (.number value.toNat),
          r.ahead (littleEndian width value.toNat).length) := by
    intro width x what hx value hfield
    have hread := (hx.map Value.number).reads hr hfield (length_littleEndian _ _)
    rw [hread, Function.comp_apply, number_eq, length_littleEndian]
  cases field with
  | u8 value => exact hnumber takes_u8 value hdrop
  | u16 value => exact hnumber takes_u16 value hdrop
  | u32 value => exact hnumber takes_u32 value hdrop
  | u64 value => exact hnumber takes_u64 value hdrop
  | f32 bits => exact hnumber takes_u32 bits hdrop
  | bytes block => exact ((takes_bytes block.length).map Value.bytes).reads hr hdrop rfl
  | pad count =>
    have hlen : (Persistence.pad count).length = count := List.length_replicate
    have hread := ((takes_skip count).map fun _ => Value.nothing).reads hr hdrop hlen
    exact hread.trans (by rw [write, hlen]; rfl)
  | fixedString text size =>
    obtain ⟨hsize, hnul⟩ := hfits
    have hlen := length_fixedString hsize
    have htext : (Persistence.fixedString text size).takeWhile (· ≠ 0) = text :=
      takeWhile_fixedString hsize fun b hb hzero => hnul (hzero ▸ hb)
    have hread := ((takes_fixedString size).map Value.bytes).reads hr hdrop hlen
    refine hread.trans ?_
    rw [Function.comp_apply, write, htext, hlen]
    rfl

/-- The fields come back in order, and nothing is left of what was written for them. -/
theorem runAll_calls {fields : List Field} (hfits : ∀ f ∈ fields, f.Fits) (hr : r.Inside)
    {rest : Bytes} (hdrop : r.data.drop r.position = writeAll fields ++ rest) :
    Call.runAll (fields.map call) r =
      (fields.map fun f => .ok f.value, r.ahead (writeAll fields).length) := by
  induction fields generalizing r with
  | nil => rfl
  | cons field fields ih =>
    rw [writeAll, List.flatMap_cons, List.append_assoc] at hdrop
    have hrun := run_call (hfits field List.mem_cons_self) hr hdrop
    have hleft : field.write.length ≤ r.remaining := by
      rw [hr.remaining_eq, ← List.length_drop, hdrop, List.length_append]
      omega
    have hnext : (r.ahead field.write.length).data.drop (r.ahead field.write.length).position =
        writeAll fields ++ rest := by
      simp only [ahead]
      rw [← List.drop_drop, hdrop, List.drop_left' rfl]
      rfl
    have hfields := ih (fun f hf => hfits f (List.mem_cons_of_mem _ hf)) (inside_ahead hr hleft) hnext
    simp only [List.map_cons, Call.runAll, hrun, hfields, ahead_ahead, writeAll, List.flatMap_cons,
      List.length_append]

end Field

open SpanReader in
/-- What a `ByteWriter` wrote is read back field by field until nothing is left. Whatever was
called before, a call stays inside the span: it throws a corruption error, and only where it has
to, or returns and takes off its bytes. -/
theorem byteReader_inverts_byteWriter :
    (∀ (fields : List Field) (context : String)
      (hsize : (Field.writeAll fields).length < 18446744073709551616),
      (∀ f ∈ fields, f.Fits) →
        let read := Call.runAll (fields.map Field.call) ⟨Field.writeAll fields, context, 0, hsize⟩
        read.1 = (fields.map fun f => .ok f.value) ∧ read.2.exhausted = true) ∧
    ∀ (data : Bytes) (context : String) (hsize : data.length < 18446744073709551616)
      (calls : List Call) (call : Call),
      let r := (Call.runAll calls ⟨data, context, 0, hsize⟩).2
      r.data = data ∧ r.position ≤ data.length ∧ r.remaining = data.length - r.position ∧
        (call.Throws r.remaining →
          ∃ message, exec call.run r = (.error (.thrown (.corruption message)), r)) ∧
        (¬ call.Throws r.remaining → call.taken ≤ r.remaining ∧
          ∃ value, exec call.run r = (.ok value, r.ahead call.taken)) := by
  refine ⟨fun fields context hsize hfits => ?_, fun data context hsize calls call => ?_⟩
  · have hread := @Field.runAll_calls ⟨Field.writeAll fields, context, 0, hsize⟩ fields hfits
      (Nat.zero_le _) [] (by simp)
    have hinside : (SpanReader.ahead ⟨Field.writeAll fields, context, 0, hsize⟩
        (Field.writeAll fields).length).Inside := by
      simp [Inside, ahead]
    simp only [hread, true_and, exhausted, hinside.remaining_eq]
    simp [ahead]
  · obtain ⟨hinside, hdata⟩ :=
      Call.runAll_inside (r := ⟨data, context, 0, hsize⟩) calls (Nat.zero_le _)
    have hbounded := Call.bounded call hinside
    refine ⟨hdata, ?_, ?_, hbounded.throws, hbounded.returns⟩
    · simpa only [Inside, hdata] using hinside
    · rw [hinside.remaining_eq, hdata]

/-- A version, a name in four bytes and a byte of padding. -/
theorem byteReader_inverts_header :
    let fields : List Field := [.u16 515, .fixedString [104, 105] 4, .pad 1]
    Field.writeAll fields = [3, 2, 104, 105, 0, 0, 0] ∧
      (Call.runAll (fields.map Field.call) ⟨Field.writeAll fields, "header", 0, by decide⟩).1 =
        [.ok (.number 515), .ok (.bytes [104, 105]), .ok .nothing] :=
  ⟨by decide, (byteReader_inverts_byteWriter.1 _ "header" (by decide) (by
    simp [Field.Fits])).1⟩

/-- A file longer than it says makes `expect_remaining` throw, with nothing too few. -/
theorem expectRemaining_too_many :
    let r : SpanReader := ⟨[7], "header", 0, by decide⟩
    r.remaining = 1 ∧ Call.needed (.expectRemaining 0 "trailing bytes") = 0 ∧
      ∃ message, (exec (Call.run (.expectRemaining 0 "trailing bytes")) r).1 =
        .error (.thrown (.corruption message)) :=
  ⟨by decide, rfl, _, rfl⟩

end VectorDb.Persistence
