import VectorDb.Core.Vector
import VectorDb.Lib.Throwing

/-!
src/core/vector_array.cpp and src/storage/vector_store.cpp: the vectors of a
database in slots, and which id lives in which slot.
-/
set_option autoImplicit false

namespace VectorDb.Storage

open VectorDb.Lib Throwing

/-- Equal-length vectors, at most as many as there are slot numbers. -/
theorem one_le_kMaxDimension : 1 ≤ kMaxDimension := by decide

@[ext] structure VectorArray where
  dimension : Dimension
  rows : List FloatVector
  dimension_pos : dimension ≠ 0
  dimension_le : dimension ≤ kMaxDimension
  count_le : rows.length ≤ kMaxVectorCount
  length_rows : ∀ row ∈ rows, row.length = dimension

namespace VectorArray

def create (dimension : Dimension) : Except Error VectorArray :=
  if hpos : dimension = 0 then
    .error (.invalidArgument "vector dimension must be at least 1")
  else if hle : kMaxDimension < dimension then
    .error (.invalidArgument ("vector dimension " ++ toString dimension ++
      " exceeds the supported maximum of " ++ toString kMaxDimension))
  else .ok ⟨dimension, [], hpos, not_lt.mp hle, Nat.zero_le _, by simp⟩

variable (a : VectorArray)

def size : Nat := a.rows.length

def row (slot : LocalId) : FloatVector := a.rows.getD slot []

def pushBack (vector : FloatVector) : Except Error VectorArray :=
  if hlen : vector.length ≠ a.dimension then
    .error (.dimensionMismatch a.dimension vector.length)
  else if hfull : kMaxVectorCount ≤ a.size then
    .error (.invalidArgument ("vector array is full: LocalId is 32-bit, so a single database " ++
      "holds at most " ++ toString kMaxVectorCount ++ " vectors"))
  else .ok { a with
    rows := a.rows ++ [vector]
    count_le := by
      rw [List.length_append, List.length_singleton]
      exact Nat.lt_of_not_le hfull
    length_rows := by
      intro row hrow
      rcases List.mem_append.mp hrow with hrow | hrow
      · exact a.length_rows row hrow
      · rw [List.mem_singleton.mp hrow]
        exact not_not.mp hlen }

def outOfRange (slot : LocalId) : Error :=
  .invalidArgument ("vector slot " ++ toString slot ++ " is out of range (size = " ++
    toString a.size ++ ")")

def assign (slot : LocalId) (vector : FloatVector) : Except Error VectorArray :=
  if a.size ≤ slot then .error (a.outOfRange slot)
  else if hlen : vector.length ≠ a.dimension then
    .error (.dimensionMismatch a.dimension vector.length)
  else .ok { a with
    rows := a.rows.set slot vector
    count_le := by simpa using a.count_le
    length_rows := by
      intro row hrow
      rcases List.mem_or_eq_of_mem_set hrow with hrow | rfl
      · exact a.length_rows row hrow
      · exact not_not.mp hlen }

theorem create_ok {dimension : Dimension} (hpos : dimension ≠ 0) (hle : dimension ≤ kMaxDimension) :
    ∃ a, create dimension = .ok a ∧ a.dimension = dimension ∧ a.rows = [] := by
  rw [create, dif_neg hpos, dif_neg (Nat.not_lt.mpr hle)]
  exact ⟨_, rfl, rfl, rfl⟩

theorem pushBack_ok {a : VectorArray} {v : FloatVector} (hlen : v.length = a.dimension)
    (hroom : a.size < kMaxVectorCount) :
    ∃ b, a.pushBack v = .ok b ∧ b.dimension = a.dimension ∧ b.rows = a.rows ++ [v] := by
  unfold pushBack
  rw [dif_neg (not_not.mpr hlen), dif_neg (Nat.not_le.mpr hroom)]
  exact ⟨_, rfl, rfl, rfl⟩

/-- Rows pushed one after the other are the rows that follow, and fit. -/
theorem foldlM_pushBack_ok {a b : VectorArray} {rows : List FloatVector}
    (h : rows.foldlM pushBack a = .ok b) :
    b.dimension = a.dimension ∧ b.rows = a.rows ++ rows := by
  induction rows generalizing a with
  | nil =>
    cases h
    exact ⟨rfl, (List.append_nil _).symm⟩
  | cons row rows ih =>
    rw [List.foldlM_cons, Except.bind_eq_ok] at h
    obtain ⟨c, hc, hrest⟩ := h
    have hpushed : c.dimension = a.dimension ∧ c.rows = a.rows ++ [row] := by
      unfold pushBack at hc
      split at hc
      · cases hc
      · split at hc
        · cases hc
        · cases hc
          exact ⟨rfl, rfl⟩
    obtain ⟨hdim, hrows⟩ := ih hrest
    exact ⟨hdim.trans hpushed.1, by rw [hrows, hpushed.2, List.append_assoc, List.singleton_append]⟩

theorem exists_foldlM_pushBack {a : VectorArray} {rows : List FloatVector}
    (hlen : ∀ row ∈ rows, row.length = a.dimension)
    (hroom : a.size + rows.length ≤ kMaxVectorCount) : ∃ b, rows.foldlM pushBack a = .ok b := by
  induction rows generalizing a with
  | nil => exact ⟨a, rfl⟩
  | cons row rows ih =>
    rw [List.length_cons] at hroom
    obtain ⟨c, hc, hdim, hrows⟩ := pushBack_ok (hlen row (by simp)) (by omega)
    have hsize : c.size = a.size + 1 := by simp [size, hrows]
    obtain ⟨b, hb⟩ := @ih c (fun r hr => hdim ▸ hlen r (by simp [hr])) (by omega)
    exact ⟨b, by rw [List.foldlM_cons, hc]; exact hb⟩

theorem assign_ok {a : VectorArray} {slot : LocalId} {v : FloatVector} (hslot : slot < a.size)
    (hlen : v.length = a.dimension) :
    ∃ b, a.assign slot v = .ok b ∧ b.dimension = a.dimension ∧ b.rows = a.rows.set slot v := by
  unfold assign
  rw [if_neg (Nat.not_le.mpr hslot), dif_neg (not_not.mpr hlen)]
  exact ⟨_, rfl, rfl, rfl⟩

theorem row_mem {a : VectorArray} {slot : LocalId} (hslot : slot < a.size) :
    a.row slot ∈ a.rows := by
  have hrow : a.row slot = a.rows[slot] := List.getD_eq_getElem _ _ hslot
  rw [hrow]
  exact List.getElem_mem _

end VectorArray

structure VectorStore where
  vectors : VectorArray
  norms : List (BitVec 32)
  live : List Bool
  localToId : List VectorId
  idToLocal : Std.ExtTreeMap VectorId LocalId compare
  liveCount : Nat
  normalizes : Bool

namespace VectorStore

/-- The constructor. -/
def create (dimension : Dimension) (normalize : Bool) : Except Error VectorStore := do
  return ⟨← VectorArray.create dimension, [], [], [], ∅, 0, normalize⟩

def slotCount (s : VectorStore) : Nat := s.vectors.size

def dimension (s : VectorStore) : Dimension := s.vectors.dimension

def find (s : VectorStore) (id : VectorId) : Option LocalId := s.idToLocal[id]?

def contains (s : VectorStore) (id : VectorId) : Bool := (s.find id).isSome

def vectorId (s : VectorStore) (slot : LocalId) : VectorId := s.localToId.getD slot 0

def vector (s : VectorStore) (slot : LocalId) : FloatVector := s.vectors.row slot

def norm (s : VectorStore) (slot : LocalId) : BitVec 32 := s.norms.getD slot 0#32

def isLive (s : VectorStore) (slot : LocalId) : Bool := s.live.getD slot false

def tombstoneCount (s : VectorStore) : Nat := s.slotCount - s.liveCount

abbrev Call (α : Type) := Throwing Error VectorStore α

def ensureCapacityForOne : Call Unit := do
  let s ← get
  if kMaxVectorCount ≤ s.slotCount then
    throw (.invalidArgument ("database is full: LocalId is 32-bit, so a store holds at most " ++
      toString kMaxVectorCount ++ " slots (including tombstones)"))

/-- The norm kept for a vector that was normalized, from the one it had. -/
def normalizedNorm (norm : BitVec 32) : BitVec 32 :=
  if Component.isZero norm then Component.zero else Component.one

section Write
variable {K : Type} (a : Arithmetic K)

/-- What a store keeps for a vector. -/
def storedForm (normalize : Bool) (vector : FloatVector) : FloatVector :=
  if normalize then (a.normalizeInPlace vector).1 else vector

def storedNorm (normalize : Bool) (vector : FloatVector) : BitVec 32 :=
  if normalize then normalizedNorm (a.normalizeInPlace vector).2 else a.l2Norm vector

/-- Normalize the vector in `slot` where the store does, and give its norm. -/
def settleRow (slot : LocalId) : Call (BitVec 32) := do
  let s ← get
  if s.normalizes then
    let normalized := a.normalizeInPlace (s.vector slot)
    set { s with vectors := ← fromExcept (s.vectors.assign slot normalized.1) }
    return normalizedNorm normalized.2
  return a.l2Norm (s.vector slot)

def insert (id : VectorId) (vector : FloatVector) : Call LocalId := do
  let s ← get
  if s.contains id then throw (.duplicateId id)
  ensureCapacityForOne
  fromExcept (validateVector vector s.dimension)
  let localId := s.slotCount
  set { s with vectors := ← fromExcept (s.vectors.pushBack vector) }
  let norm ← settleRow a localId
  modify fun s =>
    { s with
      norms := s.norms ++ [norm], live := s.live ++ [true], localToId := s.localToId ++ [id]
      idToLocal := s.idToLocal.insertIfNew id localId, liveCount := s.liveCount + 1 }
  return localId

def upsert (id : VectorId) (vector : FloatVector) : Call LocalId := do
  let s ← get
  match s.find id with
  | none => insert a id vector
  | some localId =>
    fromExcept (validateVector vector s.dimension)
    set { s with vectors := ← fromExcept (s.vectors.assign localId vector) }
    let norm ← settleRow a localId
    modify fun s => { s with norms := s.norms.set localId norm }
    return localId

def remove (id : VectorId) : Call Bool := do
  let s ← get
  match s.find id with
  | none => return false
  | some localId =>
    set { s with
      live := s.live.set localId false, idToLocal := s.idToLocal.erase id
      liveCount := s.liveCount - 1 }
    return true

/-- `clear`; the vectors are gone, their dimension stays. -/
def clear : Call Unit :=
  modify fun s =>
    { s with
      vectors := { s.vectors with rows := [], count_le := Nat.zero_le _, length_rows := nofun }
      norms := [], live := [], localToId := [], idToLocal := ∅, liveCount := 0 }

/-- `append_trusted`: a slot as a file or another store has it. -/
def appendTrusted (id : VectorId) (vector : FloatVector) (norm : BitVec 32) (live : Bool) :
    Call LocalId := do
  ensureCapacityForOne
  let s ← get
  let localId := s.slotCount
  set { s with
    vectors := ← fromExcept (s.vectors.pushBack vector)
    norms := s.norms ++ [norm], live := s.live ++ [live], localToId := s.localToId ++ [id] }
  if live then
    modify fun s =>
      { s with idToLocal := s.idToLocal.insertIfNew id localId, liveCount := s.liveCount + 1 }
  return localId

end Write

/-- The stored vector of an id. -/
def get? (s : VectorStore) (id : VectorId) : Option FloatVector := (s.find id).map s.vector

section Spec
variable {K : Type} (a : Arithmetic K) {s t : VectorStore} {id : VectorId} {v : FloatVector}

/-- The checks of `insert`, in their order. -/
def insertCheck (s : VectorStore) (id : VectorId) (v : FloatVector) : Except Error Unit :=
  if s.contains id then .error (.duplicateId id)
  else if kMaxVectorCount ≤ s.slotCount then
    .error (.invalidArgument ("database is full: LocalId is 32-bit, so a store holds at most " ++
      toString kMaxVectorCount ++ " slots (including tombstones)"))
  else validateVector v s.dimension

/-- `t` is `s` with one more slot. -/
structure Appended (s t : VectorStore) (id : VectorId) (row : FloatVector) (norm : BitVec 32)
    (alive : Bool) : Prop where
  dimension : t.dimension = s.dimension
  normalizes : t.normalizes = s.normalizes
  rows : t.vectors.rows = s.vectors.rows ++ [row]
  norms : t.norms = s.norms ++ [norm]
  live : t.live = s.live ++ [alive]
  ids : t.localToId = s.localToId ++ [id]
  idToLocal : t.idToLocal = if alive then s.idToLocal.insertIfNew id s.slotCount else s.idToLocal
  liveCount : t.liveCount = s.liveCount + if alive then 1 else 0

/-- `t` is `s` with other contents in one slot. -/
structure Assigned (s t : VectorStore) (slot : LocalId) (row : FloatVector) (norm : BitVec 32) :
    Prop where
  dimension : t.dimension = s.dimension
  normalizes : t.normalizes = s.normalizes
  rows : t.vectors.rows = s.vectors.rows.set slot row
  norms : t.norms = s.norms.set slot norm
  live : t.live = s.live
  ids : t.localToId = s.localToId
  idToLocal : t.idToLocal = s.idToLocal
  liveCount : t.liveCount = s.liveCount

theorem exec_ensureCapacityForOne (s : VectorStore) (h : s.slotCount < kMaxVectorCount) :
    exec ensureCapacityForOne s = (.ok (), s) := by
  simp [ensureCapacityForOne, exec_bind, Nat.not_le.mpr h]

/-- What `settleRow` does to the slot it is called for. -/
theorem exec_settleRow {slot : LocalId} (hslot : slot < s.slotCount) :
    ∃ vectors : VectorArray, vectors.dimension = s.dimension ∧
      vectors.rows = s.vectors.rows.set slot (storedForm a s.normalizes (s.vector slot)) ∧
      exec (settleRow a slot) s =
        (.ok (storedNorm a s.normalizes (s.vector slot)), { s with vectors := vectors }) := by
  have hlen : (s.vector slot).length = s.dimension :=
    s.vectors.length_rows _ (VectorArray.row_mem hslot)
  cases hn : s.normalizes with
  | true =>
    obtain ⟨vectors, hassign, hdim, hrows⟩ := VectorArray.assign_ok (a := s.vectors)
      (v := (a.normalizeInPlace (s.vector slot)).1) hslot (by simpa [dimension] using hlen)
    refine ⟨vectors, hdim, hrows, ?_⟩
    simp [settleRow, exec_bind, exec_map, hn, hassign, storedNorm]
  | false =>
    refine ⟨s.vectors, rfl, ?_, ?_⟩
    · have hrow : s.vector slot = s.vectors.rows[slot] := List.getD_eq_getElem _ _ hslot
      simp only [storedForm, hrow, Bool.false_eq_true, if_false]
      exact (List.set_getElem_self hslot).symm
    · cases s
      subst hn
      rfl

theorem insertCheck_ok (hc : s.insertCheck id v = .ok ()) :
    s.contains id = false ∧ validateVector v s.dimension = .ok () := by
  unfold insertCheck at hc
  split at hc
  · cases hc
  next hno =>
    split at hc
    · cases hc
    · exact ⟨by simpa using hno, hc⟩

theorem exec_insert_error {e : Error} (h : s.insertCheck id v = .error e) :
    exec (insert a id v) s = (.error e, s) := by
  unfold insertCheck at h
  split at h
  next hc =>
    cases h
    simp [insert, exec_bind, hc]
  next hc =>
    split at h
    next hfull =>
      cases h
      simp [insert, exec_bind, hc, ensureCapacityForOne, hfull]
    next hfull =>
      simp [insert, exec_bind, hc, exec_ensureCapacityForOne s (Nat.lt_of_not_le hfull), h]

theorem exec_insert_ok (h : s.insertCheck id v = .ok ()) :
    ∃ t, exec (insert a id v) s = (.ok s.slotCount, t) ∧
      Appended s t id (storedForm a s.normalizes v) (storedNorm a s.normalizes v) true := by
  unfold insertCheck at h
  split at h
  · cases h
  next hc =>
    split at h
    · cases h
    next hfull =>
      have hroom := Nat.lt_of_not_le hfull
      obtain ⟨pushed, hpush, hdim, hrows⟩ :=
        VectorArray.pushBack_ok (a := s.vectors) (validateVector_length h) hroom
      let u : VectorStore := { s with vectors := pushed }
      have hslot : s.slotCount < u.slotCount := by
        simp [u, slotCount, VectorArray.size, hrows]
      have hrow : u.vector s.slotCount = v := by
        simp [u, vector, VectorArray.row, hrows, slotCount, VectorArray.size]
      obtain ⟨vectors, hdim', hrows', hsettle⟩ := exec_settleRow a hslot
      rw [hrow] at hrows' hsettle
      refine ⟨{ u with
        vectors := vectors, norms := s.norms ++ [storedNorm a s.normalizes v]
        live := s.live ++ [true], localToId := s.localToId ++ [id]
        idToLocal := s.idToLocal.insertIfNew id s.slotCount
        liveCount := s.liveCount + 1 }, ?_, ?_⟩
      · simp only [insert, exec_bind, exec_get, hc, Bool.false_eq_true, if_false,
          exec_ensureCapacityForOne s hroom, exec_fromExcept, h, hpush, exec_set]
        rw [hsettle]
        rfl
      · refine ⟨hdim'.trans hdim, rfl, ?_, rfl, rfl, rfl, rfl, rfl⟩
        show vectors.rows = _
        rw [hrows']
        show pushed.rows.set s.vectors.rows.length _ = _
        rw [hrows]
        simp [u]

theorem exec_upsert_error {e : Error} (hc : s.contains id)
    (h : validateVector v s.dimension = .error e) : exec (upsert a id v) s = (.error e, s) := by
  obtain ⟨slot, hfind⟩ := Option.isSome_iff_exists.mp hc
  simp [upsert, exec_bind, hfind, h]

theorem exec_upsert_ok {slot : LocalId} (hfind : s.find id = some slot) (hslot : slot < s.slotCount)
    (h : validateVector v s.dimension = .ok ()) :
    ∃ t, exec (upsert a id v) s = (.ok slot, t) ∧
      Assigned s t slot (storedForm a s.normalizes v) (storedNorm a s.normalizes v) := by
  obtain ⟨pushed, hassign, hdim, hrows⟩ :=
    VectorArray.assign_ok (a := s.vectors) hslot (validateVector_length h)
  let u : VectorStore := { s with vectors := pushed }
  have hlt : slot < u.slotCount := by
    simpa [u, slotCount, VectorArray.size, hrows] using hslot
  have hrow : u.vector slot = v := by
    have hlt : slot < s.vectors.rows.length := hslot
    simp [u, vector, VectorArray.row, hrows, List.getD_eq_getElem?_getD, hlt]
  obtain ⟨vectors, hdim', hrows', hsettle⟩ := exec_settleRow a hlt
  rw [hrow] at hrows' hsettle
  refine ⟨{ u with
    vectors := vectors, norms := s.norms.set slot (storedNorm a s.normalizes v) }, ?_, ?_⟩
  · simp only [upsert, exec_bind, exec_get, hfind, exec_fromExcept, h, hassign, exec_set]
    rw [hsettle]
    rfl
  · refine ⟨hdim'.trans hdim, rfl, ?_, rfl, rfl, rfl, rfl, rfl⟩
    show vectors.rows = _
    rw [hrows']
    show pushed.rows.set slot _ = _
    rw [hrows]
    simp [u]

theorem exec_appendTrusted (id : VectorId) (norm : BitVec 32) (alive : Bool) (hlen : v.length = s.dimension)
    (hroom : s.slotCount < kMaxVectorCount) :
    ∃ t, exec (appendTrusted id v norm alive) s = (.ok s.slotCount, t) ∧
      Appended s t id v norm alive := by
  obtain ⟨pushed, hpush, hdim, hrows⟩ := VectorArray.pushBack_ok (a := s.vectors) hlen hroom
  let u : VectorStore := { s with
    vectors := pushed
    norms := s.norms ++ [norm], live := s.live ++ [alive], localToId := s.localToId ++ [id] }
  cases alive with
  | true =>
    refine ⟨{ u with
      idToLocal := s.idToLocal.insertIfNew id s.slotCount, liveCount := s.liveCount + 1 }, ?_,
      hdim, rfl, hrows, rfl, rfl, rfl, rfl, rfl⟩
    simp only [appendTrusted, exec_bind, exec_ensureCapacityForOne s hroom, exec_get,
      exec_fromExcept, hpush, exec_set]
    rfl
  | false =>
    refine ⟨u, ?_, hdim, rfl, hrows, rfl, rfl, rfl, rfl, rfl⟩
    simp only [appendTrusted, exec_bind, exec_ensureCapacityForOne s hroom, exec_get,
      exec_fromExcept, hpush, exec_set]
    rfl

end Spec

/-- The arrays have one entry for each slot, and the map is the inverse of the ids
of the live ones. -/
structure Consistent (s : VectorStore) : Prop where
  norms : s.norms.length = s.slotCount
  live : s.live.length = s.slotCount
  ids : s.localToId.length = s.slotCount
  find_iff : ∀ id l, s.find id = some l ↔
    l < s.slotCount ∧ s.isLive l = true ∧ s.vectorId l = id
  liveCount : s.liveCount = s.live.count true

/-- The live slots are counted right. -/
structure Counted (s : VectorStore) : Prop where
  live : s.live.length = s.slotCount
  liveCount : s.liveCount = s.live.count true

theorem Consistent.counted {s : VectorStore} (hs : s.Consistent) : s.Counted :=
  ⟨hs.live, hs.liveCount⟩

theorem Consistent.distinct {s : VectorStore} (hs : s.Consistent) (l : LocalId)
    (hl : l < s.slotCount) (k : LocalId) (hk : k < s.slotCount) (hlive : s.isLive l = true)
    (hlive' : s.isLive k = true) (hid : s.vectorId l = s.vectorId k) : l = k := by
  have hfind := (hs.find_iff (s.vectorId k) l).mpr ⟨hl, hlive, hid⟩
  rw [(hs.find_iff (s.vectorId k) k).mpr ⟨hk, hlive', rfl⟩] at hfind
  exact (Option.some.inj hfind).symm

theorem create_eq {dimension : Dimension} (normalize : Bool) (hpos : dimension ≠ 0)
    (hle : dimension ≤ kMaxDimension) :
    ∃ s, create dimension normalize = .ok s ∧ s.dimension = dimension ∧
      s.normalizes = normalize ∧ s.slotCount = 0 ∧ s.Consistent := by
  unfold create VectorArray.create
  rw [dif_neg hpos, dif_neg (not_lt.mpr hle)]
  refine ⟨_, rfl, rfl, rfl, rfl, rfl, rfl, rfl, fun id l => ?_, rfl⟩
  simp [find, slotCount, VectorArray.size]

theorem create_ok {s : VectorStore} {dimension : Dimension} {normalize : Bool}
    (h : create dimension normalize = .ok s) :
    s.dimension = dimension ∧ s.normalizes = normalize ∧ s.slotCount = 0 ∧ s.Consistent := by
  by_cases hpos : dimension = 0
  · rw [create, VectorArray.create, dif_pos hpos] at h
    cases h
  by_cases hle : kMaxDimension < dimension
  · rw [create, VectorArray.create, dif_neg hpos, dif_pos hle] at h
    cases h
  obtain ⟨t, ht, hempty⟩ := create_eq normalize hpos (not_lt.mp hle)
  rw [h] at ht
  cases ht
  exact hempty

theorem getD_append_singleton {α : Type} (l : List α) (x d : α) (i : Nat) :
    (l ++ [x]).getD i d = if i = l.length then x else l.getD i d := by
  simp only [List.getD_eq_getElem?_getD]
  rcases Nat.lt_trichotomy i l.length with h | h | h
  · rw [List.getElem?_append_left h, if_neg (Nat.ne_of_lt h)]
  · simp [h]
  · rw [List.getElem?_eq_none (by simpa using h), List.getElem?_eq_none h.le,
      if_neg (Nat.ne_of_gt h)]

theorem getD_set {α : Type} (l : List α) (x d : α) {i : Nat} (hi : i < l.length) (j : Nat) :
    (l.set i x).getD j d = if j = i then x else l.getD j d := by
  simp only [List.getD_eq_getElem?_getD, List.getElem?_set]
  by_cases h : j = i
  · subst h
    simp [hi]
  · simp [h, Ne.symm h]

section Contents
variable {s t : VectorStore} {id : VectorId} {row : FloatVector} {norm : BitVec 32} {alive : Bool}
variable {slot : LocalId}

namespace Appended

theorem slotCount (h : Appended s t id row norm alive) : t.slotCount = s.slotCount + 1 := by
  simp [VectorStore.slotCount, VectorArray.size, h.rows]

theorem vector (h : Appended s t id row norm alive) (l : LocalId) :
    t.vector l = if l = s.slotCount then row else s.vector l := by
  simp only [VectorStore.vector, VectorArray.row, h.rows]
  exact getD_append_singleton _ _ _ _

theorem vectorId (hs : s.Consistent) (h : Appended s t id row norm alive) (l : LocalId) :
    t.vectorId l = if l = s.slotCount then id else s.vectorId l := by
  rw [VectorStore.vectorId, h.ids, getD_append_singleton, hs.ids]
  rfl

theorem isLive (hs : s.Consistent) (h : Appended s t id row norm alive) (l : LocalId) :
    t.isLive l = if l = s.slotCount then alive else s.isLive l := by
  rw [VectorStore.isLive, h.live, getD_append_singleton, hs.live]
  rfl

theorem find (h : Appended s t id row norm alive) (hnew : alive = true → s.contains id = false)
    (i : VectorId) :
    t.find i = if alive = true ∧ i = id then some s.slotCount else s.find i := by
  simp only [VectorStore.find, h.idToLocal]
  cases alive with
  | false => simp
  | true =>
    have hnot : id ∉ s.idToLocal := by
      have hno := hnew rfl
      rw [contains, VectorStore.find, ← Std.ExtTreeMap.contains_eq_isSome_getElem?] at hno
      rw [Std.ExtTreeMap.mem_iff_contains, hno]
      exact Bool.false_ne_true
    rw [if_pos rfl, Std.ExtTreeMap.getElem?_insertIfNew]
    simp only [compare_eq_iff_eq, hnot, not_false_eq_true, and_true, true_and]
    by_cases hi : i = id
    · rw [if_pos hi.symm, if_pos hi]
    · rw [if_neg (Ne.symm hi), if_neg hi]

/-- A new slot keeps a store consistent unless it gives a live id a second slot. -/
theorem consistent (hs : s.Consistent) (h : Appended s t id row norm alive)
    (hnew : alive = true → s.contains id = false) : t.Consistent := by
  refine ⟨by simp [h.norms, hs.norms, h.slotCount], by simp [h.live, hs.live, h.slotCount],
    by simp [h.ids, hs.ids, h.slotCount], fun i l => ?_, ?_⟩
  · rw [h.find hnew, h.isLive hs, h.vectorId hs, h.slotCount]
    have hold := hs.find_iff i l
    by_cases hl : l = s.slotCount
    · have hno : s.find i ≠ some l := fun hf => (hold.mp hf).1.ne hl
      cases alive with
      | false => simp [hl ▸ hno, hl]
      | true =>
        by_cases hi : i = id
        · simp [hi, hl]
        · simp [hi, Ne.symm hi, hl ▸ hno, hl]
    · have hlt : l < s.slotCount + 1 ↔ l < s.slotCount :=
        ⟨fun h => lt_of_le_of_ne (Nat.le_of_lt_succ h) hl, Nat.lt_succ_of_lt⟩
      rw [if_neg hl, if_neg hl, hlt, ← hold]
      split
      next hi =>
        obtain ⟨ha, rfl⟩ := hi
        have hnone : s.find i = none := by simpa [contains] using hnew ha
        simp [hnone, Ne.symm hl]
      next hi => rfl
  · rw [h.liveCount, h.live, List.count_append, ← hs.liveCount]
    cases alive <;> simp

theorem get? (hs : s.Consistent) (h : Appended s t id row norm true)
    (hnew : s.contains id = false) (i : VectorId) :
    t.get? i = if i = id then some row else s.get? i := by
  rw [VectorStore.get?, h.find (fun _ => hnew)]
  by_cases hi : i = id
  · simp [hi, h.vector]
  · simp only [hi, and_false, if_false, VectorStore.get?]
    cases hf : s.find i with
    | none => rfl
    | some l =>
      have hlt := ((hs.find_iff i l).mp hf).1
      simp [h.vector, Nat.ne_of_lt hlt]

end Appended

namespace Assigned

theorem slotCount (h : Assigned s t slot row norm) : t.slotCount = s.slotCount := by
  simp [VectorStore.slotCount, VectorArray.size, h.rows]

theorem find (h : Assigned s t slot row norm) (i : VectorId) : t.find i = s.find i := by
  simp [VectorStore.find, h.idToLocal]

theorem vector (h : Assigned s t slot row norm) (hslot : slot < s.slotCount) (l : LocalId) :
    t.vector l = if l = slot then row else s.vector l := by
  simp only [VectorStore.vector, VectorArray.row, h.rows]
  exact getD_set _ _ _ hslot _

theorem vectorId (h : Assigned s t slot row norm) (l : LocalId) :
    t.vectorId l = s.vectorId l := by
  simp [VectorStore.vectorId, h.ids]

theorem consistent (hs : s.Consistent) (h : Assigned s t slot row norm) : t.Consistent := by
  refine ⟨by simp [h.norms, hs.norms, h.slotCount], by simp [h.live, hs.live, h.slotCount],
    by simp [h.ids, hs.ids, h.slotCount], fun i l => ?_, ?_⟩
  · rw [h.find, h.slotCount, VectorStore.isLive, VectorStore.vectorId, h.live, h.ids]
    exact hs.find_iff i l
  · rw [h.liveCount, h.live, hs.liveCount]

theorem get? (hs : s.Consistent) (h : Assigned s t slot row norm) (hfind : s.find id = some slot)
    (i : VectorId) : t.get? i = if i = id then some row else s.get? i := by
  obtain ⟨hslot, -, hid⟩ := (hs.find_iff id slot).mp hfind
  rw [VectorStore.get?, h.find, VectorStore.get?]
  by_cases hi : i = id
  · subst hi
    simp [hfind, h.vector hslot]
  · rw [if_neg hi]
    cases hf : s.find i with
    | none => rfl
    | some l =>
      have hne : l ≠ slot := by
        rintro rfl
        exact hi (((hs.find_iff i l).mp hf).2.2.symm.trans hid)
      simp [h.vector hslot, hne]

end Assigned

/-- `t` is `s` with the slot of one id dead. -/
structure Removed (s t : VectorStore) (id : VectorId) (slot : LocalId) : Prop where
  vectors : t.vectors = s.vectors
  normalizes : t.normalizes = s.normalizes
  norms : t.norms = s.norms
  live : t.live = s.live.set slot false
  ids : t.localToId = s.localToId
  idToLocal : t.idToLocal = s.idToLocal.erase id
  liveCount : t.liveCount = s.liveCount - 1

theorem exec_remove (hfind : s.find id = some slot) :
    ∃ t, exec (remove id) s = (.ok true, t) ∧ Removed s t id slot := by
  refine ⟨{ s with
    live := s.live.set slot false, idToLocal := s.idToLocal.erase id
    liveCount := s.liveCount - 1 }, ?_, rfl, rfl, rfl, rfl, rfl, rfl, rfl⟩
  simp [remove, exec_bind, exec_map, hfind]

namespace Removed

theorem slotCount (h : Removed s t id slot) : t.slotCount = s.slotCount := by
  simp [VectorStore.slotCount, h.vectors]

theorem find (h : Removed s t id slot) (i : VectorId) :
    t.find i = if i = id then none else s.find i := by
  simp only [VectorStore.find, h.idToLocal, Std.ExtTreeMap.getElem?_erase, compare_eq_iff_eq]
  by_cases hi : i = id
  · simp [hi]
  · simp [hi, Ne.symm hi]

theorem isLive (hs : s.Consistent) (h : Removed s t id slot) (hslot : slot < s.slotCount)
    (l : LocalId) : t.isLive l = if l = slot then false else s.isLive l := by
  rw [VectorStore.isLive, h.live]
  exact getD_set _ _ _ (hs.live ▸ hslot) _

theorem vector (h : Removed s t id slot) (l : LocalId) : t.vector l = s.vector l := by
  simp [VectorStore.vector, h.vectors]

theorem vectorId (h : Removed s t id slot) (l : LocalId) : t.vectorId l = s.vectorId l := by
  simp [VectorStore.vectorId, h.ids]

theorem liveCount_pos (hs : s.Consistent) (hfind : s.find id = some slot) : 0 < s.liveCount := by
  obtain ⟨hslot, hlive, -⟩ := (hs.find_iff id slot).mp hfind
  rw [hs.liveCount, List.count_pos_iff]
  rw [VectorStore.isLive, List.getD_eq_getElem _ _ (hs.live ▸ hslot)] at hlive
  exact hlive ▸ List.getElem_mem _

theorem consistent (hs : s.Consistent) (h : Removed s t id slot) (hfind : s.find id = some slot) :
    t.Consistent := by
  obtain ⟨hslot, hlive, hid⟩ := (hs.find_iff id slot).mp hfind
  refine ⟨by simp [h.norms, hs.norms, h.slotCount], by simp [h.live, hs.live, h.slotCount],
    by simp [h.ids, hs.ids, h.slotCount], fun i l => ?_, ?_⟩
  · have hold := hs.find_iff i l
    rw [h.find, h.slotCount, h.isLive hs hslot, VectorStore.vectorId, h.ids]
    by_cases hi : i = id
    · subst hi
      rw [if_pos rfl]
      constructor
      · intro hf
        cases hf
      · rintro ⟨hlt, hl, hv⟩
        split at hl
        · cases hl
        next hne =>
          have hf := hold.mpr ⟨hlt, hl, hv⟩
          rw [hfind] at hf
          exact absurd (Option.some.inj hf).symm hne
    · rw [if_neg hi, hold]
      constructor
      · rintro ⟨hlt, hl, hv⟩
        refine ⟨hlt, ?_, hv⟩
        rw [if_neg, hl]
        rintro rfl
        exact hi (hv.symm.trans hid)
      · rintro ⟨hlt, hl, hv⟩
        split at hl
        · cases hl
        · exact ⟨hlt, hl, hv⟩
  · rw [h.liveCount, h.live, hs.liveCount]
    have hlt : slot < s.live.length := hs.live ▸ hslot
    rw [VectorStore.isLive, List.getD_eq_getElem _ _ hlt] at hlive
    rw [List.count_set hlt]
    simp [hlive]

theorem get? (h : Removed s t id slot) (i : VectorId) :
    t.get? i = if i = id then none else s.get? i := by
  have hvector : t.vector = s.vector := funext h.vector
  rw [VectorStore.get?, h.find, VectorStore.get?, hvector]
  split <;> rfl

end Removed

end Contents

end VectorStore

end VectorDb.Storage
