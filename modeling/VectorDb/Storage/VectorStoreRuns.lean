import VectorDb.Lib.Transition
import VectorDb.Storage.VectorRoundTrip

/-!
What holds of a store after any run of its operations, those that throw included.
-/
set_option autoImplicit false

namespace VectorDb.Storage

open VectorDb.Lib VectorDb.Persistence Throwing

namespace VectorStore

/-- The operations that change a store. -/
inductive Operation where
  | insert (id : VectorId) (vector : FloatVector)
  | upsert (id : VectorId) (vector : FloatVector)
  | remove (id : VectorId)
  | clear

/-- The operation may change what the store has for `id`. -/
def Operation.Targets (id : VectorId) : Operation → Prop
  | .insert _ _ => False
  | .upsert i _ | .remove i => i = id
  | .clear => True

section Runs
variable {K : Type} (a : Arithmetic K)

def Operation.run : Operation → Call Unit
  | .insert id v => do let _ ← VectorStore.insert a id v
  | .upsert id v => do let _ ← VectorStore.upsert a id v
  | .remove id => do let _ ← VectorStore.remove id
  | .clear => VectorStore.clear

/-- All runs, from every store that can be constructed. -/
def storeRuns : Transition VectorStore where
  start s := ∃ dimension normalize, create dimension normalize = .ok s
  step s t := ∃ op : Operation, t = (exec (op.run a) s).2

/-- The norm of every slot is that of its vector. -/
def NormsCached (s : VectorStore) : Prop :=
  s.normalizes = false → ∀ l < s.slotCount, s.norm l = a.l2Norm (s.vector l)

/-- How an operation leaves the store. -/
inductive Operation.Outcome (s : VectorStore) : Operation → Except Error Unit → VectorStore → Prop
  where
  | rejected {op : Operation} {e : Error} : Outcome s op (.error e) s
  | absent {id : VectorId} : s.find id = none → Outcome s (.remove id) (.ok ()) s
  | appended {op : Operation} {id : VectorId} {v : FloatVector} {t : VectorStore} :
      s.insertCheck id v = .ok () →
      Appended s t id (storedForm a s.normalizes v) (storedNorm a s.normalizes v) true →
      Outcome s op (.ok ()) t
  | assigned {id : VectorId} {v : FloatVector} {slot : LocalId} {t : VectorStore} :
      s.find id = some slot →
      Assigned s t slot (storedForm a s.normalizes v) (storedNorm a s.normalizes v) →
      Outcome s (.upsert id v) (.ok ()) t
  | removed {id : VectorId} {slot : LocalId} {t : VectorStore} :
      s.find id = some slot → Removed s t id slot → Outcome s (.remove id) (.ok ()) t
  | cleared : Outcome s .clear (.ok ()) (exec VectorStore.clear s).2

variable {s t : VectorStore}

theorem insert_outcome (op : Operation) (id : VectorId) (v : FloatVector) :
    op.Outcome a s (exec (do let _ ← VectorStore.insert a id v) s).1 (exec (do let _ ← VectorStore.insert a id v) s).2 := by
  cases hc : s.insertCheck id v with
  | error e =>
    rw [exec_bind_error (exec_insert_error a hc)]
    exact .rejected
  | ok u =>
    obtain ⟨t, hexec, ht⟩ := exec_insert_ok a hc
    rw [exec_bind_ok hexec]
    exact .appended hc ht

theorem Operation.outcome (hs : s.Consistent) (op : Operation) :
    op.Outcome a s (exec (op.run a) s).1 (exec (op.run a) s).2 := by
  cases op with
  | insert id v => exact insert_outcome a _ id v
  | upsert id v =>
    rw [Operation.run]
    cases hfind : s.find id with
    | none =>
      have hsame : exec (VectorStore.upsert a id v) s = exec (VectorStore.insert a id v) s := by
        simp [VectorStore.upsert, exec_bind, hfind]
      have hnew := insert_outcome a (s := s) (.upsert id v) id v
      rw [exec_bind] at hnew ⊢
      rw [hsame]
      exact hnew
    | some slot =>
      have hc : s.contains id = true := by simp [contains, hfind]
      cases hv : validateVector v s.dimension with
      | error e =>
        rw [exec_bind_error (exec_upsert_error a hc hv)]
        exact .rejected
      | ok u =>
        obtain ⟨t, hexec, ht⟩ := exec_upsert_ok a hfind ((hs.find_iff id slot).mp hfind).1 hv
        rw [exec_bind_ok hexec]
        exact .assigned hfind ht
  | remove id =>
    rw [Operation.run]
    cases hfind : s.find id with
    | none =>
      have hexec : exec (VectorStore.remove id) s = (.ok false, s) := by simp [VectorStore.remove, exec_bind, hfind]
      rw [exec_bind_ok hexec]
      exact .absent hfind
    | some slot =>
      obtain ⟨t, hexec, ht⟩ := exec_remove hfind
      rw [exec_bind_ok hexec]
      exact .removed hfind ht
  | clear => exact .cleared

theorem exec_clear (s : VectorStore) :
    (exec VectorStore.clear s).1 = .ok () ∧ (exec VectorStore.clear s).2.Consistent ∧
      (exec VectorStore.clear s).2.slotCount = 0 := by
  rw [VectorStore.clear, exec_modify]
  refine ⟨rfl, ⟨rfl, rfl, rfl, fun id l => ?_, rfl⟩, rfl⟩
  simp [find, slotCount, VectorArray.size]

section Cached
variable {id : VectorId} {v : FloatVector} {slot : LocalId}

theorem NormsCached.empty (h : s.slotCount = 0) : s.NormsCached a :=
  fun _ l hl => absurd (h ▸ hl) (Nat.not_lt_zero l)

theorem NormsCached.appended (hs : s.Consistent) (hn : s.NormsCached a)
    (h : Appended s t id (storedForm a s.normalizes v) (storedNorm a s.normalizes v) true) :
    t.NormsCached a := by
  intro hoff l hl
  rw [h.normalizes] at hoff
  rw [norm, h.norms, getD_append_singleton, hs.norms, h.vector]
  by_cases hlast : l = s.slotCount
  · simp [hlast, storedNorm, storedForm, hoff]
  · rw [if_neg hlast, if_neg hlast]
    rw [h.slotCount] at hl
    exact hn hoff l (lt_of_le_of_ne (Nat.le_of_lt_succ hl) hlast)

theorem NormsCached.assigned (hs : s.Consistent) (hn : s.NormsCached a)
    (hfind : s.find id = some slot)
    (h : Assigned s t slot (storedForm a s.normalizes v) (storedNorm a s.normalizes v)) :
    t.NormsCached a := by
  have hslot := ((hs.find_iff id slot).mp hfind).1
  intro hoff l hl
  rw [h.normalizes] at hoff
  rw [norm, h.norms, getD_set _ _ _ (hs.norms ▸ hslot), h.vector hslot]
  by_cases heq : l = slot
  · simp [heq, storedNorm, storedForm, hoff]
  · rw [if_neg heq, if_neg heq]
    exact hn hoff l (h.slotCount ▸ hl)

theorem NormsCached.removed (hn : s.NormsCached a) (h : Removed s t id slot) :
    t.NormsCached a := by
  intro hoff l hl
  rw [norm, h.norms, vector, h.vectors]
  exact hn (h.normalizes ▸ hoff) l (h.slotCount ▸ hl)

end Cached

/-- What every operation keeps. -/
def Invariant (s : VectorStore) : Prop := s.Consistent ∧ s.NormsCached a

theorem Operation.invariant (hs : s.Invariant a) (op : Operation) :
    (exec (op.run a) s).2.Invariant a := by
  have hout := op.outcome a hs.1
  generalize exec (op.run a) s = r at hout ⊢
  obtain ⟨r, t⟩ := r
  cases hout with
  | rejected | absent hfind => exact hs
  | appended hc h =>
    exact ⟨h.consistent hs.1 fun _ => (insertCheck_ok hc).1, hs.2.appended a hs.1 h⟩
  | assigned hfind h => exact ⟨h.consistent hs.1, hs.2.assigned a hs.1 hfind h⟩
  | removed hfind h => exact ⟨h.consistent hs.1 hfind, hs.2.removed a h⟩
  | cleared =>
    have hclear := (exec_clear s).2
    exact ⟨hclear.1, .empty a hclear.2⟩

theorem reachable_invariant (h : (storeRuns a).Reachable s) : s.Invariant a := by
  refine h.invariant (fun s hs => ?_) fun s t hs hstep => ?_
  · obtain ⟨dimension, normalize, hcreate⟩ := hs
    obtain ⟨-, -, hempty, hc⟩ := create_ok hcreate
    exact ⟨hc, .empty a hempty⟩
  · obtain ⟨op, rfl⟩ := hstep
    exact op.invariant a hs

/-- The slot of a live id no operation aims at, and what is in it. -/
theorem Operation.keeps (hs : s.Consistent) (op : Operation) {id : VectorId} {l : LocalId}
    (hfind : s.find id = some l) (hno : ¬ op.Targets id) :
    let t := (exec (op.run a) s).2
    t.find id = some l ∧ t.vector l = s.vector l ∧ t.vectorId l = id := by
  obtain ⟨hslot, hlive, hid⟩ := (hs.find_iff id l).mp hfind
  have hout := op.outcome a hs
  generalize exec (op.run a) s = r at hout ⊢
  obtain ⟨r, t⟩ := r
  cases hout with
  | rejected | absent => exact ⟨hfind, rfl, hid⟩
  | @appended _ i v _ hc h =>
    have hnew := (insertCheck_ok hc).1
    have hne : id ≠ i := by
      intro heq
      rw [contains, ← heq, hfind] at hnew
      cases hnew
    have hnot : l ≠ s.slotCount := Nat.ne_of_lt hslot
    simp [h.find fun _ => hnew, h.vector, h.vectorId hs, hne, hnot, hfind, hid]
  | @assigned i v slot _ hi h =>
    have hlt := ((hs.find_iff i slot).mp hi).1
    have hne : l ≠ slot := by
      intro heq
      rw [heq, ((hs.find_iff i slot).mp hi).2.2] at hid
      exact hno hid
    simp [h.find, h.vector hlt, h.vectorId, hne, hfind, hid]
  | @removed i slot _ hi h =>
    have hne : id ≠ i := fun heq => hno heq.symm
    simp [h.find, h.vector, h.vectorId, hne, hfind, hid]
  | cleared => exact absurd trivial hno

theorem Operation.rejected_unchanged (hs : s.Consistent) (op : Operation) {e : Error}
    (h : (exec (op.run a) s).1 = .error e) : (exec (op.run a) s).2 = s := by
  have hout := op.outcome a hs
  generalize exec (op.run a) s = r at hout h ⊢
  obtain ⟨r, t⟩ := r
  cases hout with
  | rejected => rfl
  | absent | appended | assigned | removed | cleared => cases h

/-- The invariant in full, and what an operation leaves alone. -/
theorem store_invariant (h : (storeRuns a).Reachable s) :
    (s.norms.length = s.vectors.size ∧ s.live.length = s.vectors.size ∧
      s.localToId.length = s.vectors.size) ∧
    (∀ id l, s.find id = some l ↔ l < s.slotCount ∧ s.isLive l = true ∧ s.vectorId l = id) ∧
    (∀ l < s.slotCount, ∀ k < s.slotCount, s.isLive l = true → s.isLive k = true →
      s.vectorId l = s.vectorId k → l = k) ∧
    s.liveCount = s.live.count true ∧
    (s.normalizes = false → ∀ l < s.slotCount, s.norm l = a.l2Norm (s.vector l)) ∧
    (∀ (op : Operation) (e : Error), (exec (op.run a) s).1 = .error e →
      (exec (op.run a) s).2 = s) ∧
    (∀ (op : Operation) (id : VectorId) (l : LocalId), s.find id = some l → ¬ op.Targets id →
      let t := (exec (op.run a) s).2
      t.find id = some l ∧ t.vector l = s.vector l ∧ t.vectorId l = id) := by
  obtain ⟨hs, hn⟩ := reachable_invariant a h
  exact ⟨⟨hs.norms, hs.live, hs.ids⟩, hs.find_iff, hs.distinct, hs.liveCount, hn,
    fun op _ => op.rejected_unchanged a hs, fun op _ _ => op.keeps a hs⟩

end Runs

/-- The file of any store a run reaches reads back as that store. -/
theorem store_file_round_trip {K : Type} (a : Arithmetic K) {s : VectorStore}
    (h : (storeRuns a).Reachable s) : readVectorFile (writeVectorFile s) = .ok s :=
  readVectorFile_write (reachable_invariant a h).1

/-- An arithmetic in which everything is zero. -/
def zeroArithmetic : Arithmetic Unit where
  l2Norm _ := Component.zero
  reciprocal _ := Component.zero
  multiply _ _ := Component.zero
  withNorms _ _ _ _ _ := ()
  scoreFromRankKey _ _ := Component.zero

theorem reachable_foldl {K : Type} (a : Arithmetic K) (ops : List Operation) {s : VectorStore}
    (h : (storeRuns a).Reachable s) :
    (storeRuns a).Reachable (ops.foldl (fun s op => (exec (op.run a) s).2) s) := by
  induction ops generalizing s with
  | nil => exact h
  | cons op ops ih => exact ih (h.step ⟨op, rfl⟩)

/-- Three slots, of which one is a tombstone. -/
theorem reachable_three_slots : ∃ s, (storeRuns zeroArithmetic).Reachable s ∧
    s.live = [true, false, true] ∧ s.localToId = [3, 8, 5] ∧ s.find 3 = some 0 := by
  have hrun : (create 1 false).toOption.any fun s =>
      let t := [.insert 3 [Component.one], .insert 8 [Component.zero], .insert 5 [Component.one],
        .remove 8].foldl (fun s (op : Operation) => (exec (op.run zeroArithmetic) s).2) s
      decide (t.live = [true, false, true] ∧ t.localToId = [3, 8, 5] ∧ t.find 3 = some 0) := by
    decide +kernel
  simp only [Option.any_eq_true, Except.toOption_eq_some] at hrun
  obtain ⟨s, hcreate, hslots⟩ := hrun
  exact ⟨_, reachable_foldl zeroArithmetic _ (.start ⟨1, false, hcreate⟩),
    of_decide_eq_true hslots⟩

theorem store_invariant_three_slots :
    ∃ s, s.live = [true, false, true] ∧ s.norms.length = s.vectors.size ∧
      s.liveCount = s.live.count true ∧
      (exec ((Operation.remove 5).run zeroArithmetic) s).2.find 3 = some 0 := by
  obtain ⟨s, h, hslots, -, hfind⟩ := reachable_three_slots
  obtain ⟨hlengths, -, -, hlive, -, -, hkeeps⟩ := store_invariant zeroArithmetic h
  exact ⟨s, hslots, hlengths.1, hlive,
    (hkeeps (.remove 5) 3 0 hfind (by simp [Operation.Targets])).1⟩

theorem store_file_round_trip_three_slots :
    ∃ s, s.live = [true, false, true] ∧ s.localToId = [3, 8, 5] ∧
      readVectorFile (writeVectorFile s) = .ok s := by
  obtain ⟨s, h, hslots, hids, -⟩ := reachable_three_slots
  exact ⟨s, hslots, hids, store_file_round_trip zeroArithmetic h⟩

end VectorStore

end VectorDb.Storage
