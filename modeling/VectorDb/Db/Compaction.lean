import VectorDb.Db.DatabaseCalls

/-!
The store that `compact` builds: the live slots of the old one, in their order.
-/
set_option autoImplicit false

namespace VectorDb.Db

open VectorDb.Lib VectorDb.Storage VectorDb.Index Throwing

/-- The live ones of the first `n` slots. -/
def liveSlots (s : VectorStore) (n : Nat) : List LocalId := (List.range n).filter s.isLive

theorem liveSlots_succ (s : VectorStore) (n : Nat) :
    liveSlots s (n + 1) = liveSlots s n ++ if s.isLive n then [n] else [] := by
  rw [liveSlots, List.range_succ, List.filter_append, List.filter_singleton, liveSlots,
    Bool.cond_eq_ite]

theorem mem_liveSlots {s : VectorStore} {n l : Nat} :
    l ∈ liveSlots s n ↔ l < n ∧ s.isLive l = true := by
  simp [liveSlots]

/-- `t` holds the live ones of the first `n` slots of `s`. -/
structure Compacted (s t : VectorStore) (n : Nat) : Prop where
  consistent : t.Consistent
  dimension : t.dimension = s.dimension
  normalizes : t.normalizes = s.normalizes
  rows : t.vectors.rows = (liveSlots s n).map s.vector
  norms : t.norms = (liveSlots s n).map s.norm
  live : t.live = (liveSlots s n).map fun _ => true
  ids : t.localToId = (liveSlots s n).map s.vectorId

variable {s t : VectorStore} {n : Nat}

namespace Compacted

theorem slotCount (h : Compacted s t n) : t.slotCount = (liveSlots s n).length := by
  simp [VectorStore.slotCount, VectorArray.size, h.rows]

theorem liveCount (h : Compacted s t n) : t.liveCount = t.slotCount := by
  rw [h.consistent.liveCount, h.live, h.slotCount]
  simp

/-- Slot `k` of the new store is the `k`-th live slot of the old one. -/
theorem slot (h : Compacted s t n) {k : Nat} (hk : k < (liveSlots s n).length) :
    t.vectorId k = s.vectorId ((liveSlots s n)[k]) ∧ t.vector k = s.vector ((liveSlots s n)[k]) ∧
      t.norm k = s.norm ((liveSlots s n)[k]) ∧ t.isLive k = true := by
  simp [VectorStore.vectorId, VectorStore.vector, VectorStore.norm, VectorStore.isLive,
    VectorArray.row, h.ids, h.rows, h.norms, h.live, List.getD_eq_getElem?_getD, hk]

theorem find_iff (h : Compacted s t n) (id : VectorId) (k : LocalId) :
    t.find id = some k ↔ ∃ hk : k < (liveSlots s n).length, s.vectorId ((liveSlots s n)[k]) = id := by
  rw [h.consistent.find_iff, h.slotCount]
  constructor
  · rintro ⟨hk, -, hid⟩
    exact ⟨hk, (h.slot hk).1 ▸ hid⟩
  · rintro ⟨hk, hid⟩
    exact ⟨hk, (h.slot hk).2.2.2, (h.slot hk).1.trans hid⟩

end Compacted

theorem keepSlot_compacted (hs : s.Consistent) (hn : n < s.slotCount) (h : Compacted s t n) :
    ∃ u, exec (keepSlot s n) t = (.ok (), u) ∧ Compacted s u (n + 1) := by
  unfold keepSlot
  cases hlive : s.isLive n with
  | false =>
    refine ⟨t, rfl, ?_⟩
    have hsame : liveSlots s (n + 1) = liveSlots s n := by simp [liveSlots_succ, hlive]
    exact ⟨h.consistent, h.dimension, h.normalizes, by rw [hsame]; exact h.rows,
      by rw [hsame]; exact h.norms, by rw [hsame]; exact h.live, by rw [hsame]; exact h.ids⟩
  | true =>
    have hlen : (s.vector n).length = t.dimension :=
      (s.vectors.length_rows _ (VectorArray.row_mem hn)).trans h.dimension.symm
    have hle : t.slotCount ≤ n := by
      rw [h.slotCount]
      exact (List.length_filter_le _ _).trans_eq List.length_range
    have hroom : t.slotCount < kMaxVectorCount :=
      hle.trans_lt (hn.trans_le s.vectors.count_le)
    obtain ⟨u, hu, ha⟩ := VectorStore.exec_appendTrusted (s.vectorId n)
      (s.norm n) true hlen hroom
    have hnew : t.contains (s.vectorId n) = false := by
      rw [VectorStore.contains, Option.isSome_eq_false_iff, Option.isNone_iff_eq_none]
      by_contra hsome
      obtain ⟨k, hk⟩ := Option.ne_none_iff_exists'.mp hsome
      obtain ⟨hk, hid⟩ := (h.find_iff _ k).mp hk
      obtain ⟨hlt, hl⟩ := mem_liveSlots.mp (List.getElem_mem hk)
      have hold := (hs.find_iff (s.vectorId n) _).mpr ⟨hlt.trans hn, hl, hid⟩
      have hown := (hs.find_iff (s.vectorId n) n).mpr ⟨hn, hlive, rfl⟩
      rw [hown] at hold
      exact absurd (Option.some.inj hold) (Nat.ne_of_gt hlt)
    have hnext : liveSlots s (n + 1) = liveSlots s n ++ [n] := by simp [liveSlots_succ, hlive]
    refine ⟨u, ?_, ha.consistent h.consistent fun _ => hnew, ha.dimension.trans h.dimension,
      ha.normalizes.trans h.normalizes, ?_, ?_, ?_, ?_⟩
    · simp [exec_map, hu]
    · rw [ha.rows, h.rows, hnext, List.map_append, List.map_singleton]
    · rw [ha.norms, h.norms, hnext, List.map_append, List.map_singleton]
    · rw [ha.live, h.live, hnext, List.map_append, List.map_singleton]
    · rw [ha.ids, h.ids, hnext, List.map_append, List.map_singleton]

/-- The loop of `compact` does not throw. -/
theorem exec_keepSlots (hs : s.Consistent) {empty : VectorStore}
    (hempty : VectorStore.create s.dimension s.normalizes = .ok empty) :
    ∃ t, exec ((List.range s.slotCount).forM (keepSlot s)) empty = (.ok (), t) ∧
      Compacted s t s.slotCount := by
  obtain ⟨e, he, hdim, hnorm, hcount, hc⟩ := VectorStore.create_eq s.normalizes
    s.vectors.dimension_pos s.vectors.dimension_le
  have hee : e = empty := Except.ok.inj (he.symm.trans hempty)
  subst hee
  have hrows : e.vectors.rows = [] := List.length_eq_zero_iff.mp hcount
  have hzero : Compacted s e 0 := by
    refine ⟨hc, hdim, hnorm, by simpa [liveSlots] using hrows, ?_, ?_, ?_⟩
    · simpa [liveSlots, hcount] using hc.norms
    · simpa [liveSlots, hcount] using hc.live
    · simpa [liveSlots, hcount] using hc.ids
  exact exec_forM_range (fun n t hn ht => keepSlot_compacted hs hn ht) hzero

/-- What `get` finds is what a live slot holds. -/
theorem get?_eq_some_iff (hs : s.Consistent) (id : VectorId) (v : FloatVector) :
    s.get? id = some v ↔ ∃ l < s.slotCount, s.isLive l = true ∧ s.vectorId l = id ∧ s.vector l = v := by
  rw [VectorStore.get?, Option.map_eq_some_iff]
  constructor
  · rintro ⟨l, hl, hv⟩
    obtain ⟨hlt, hlive, hid⟩ := (hs.find_iff id l).mp hl
    exact ⟨l, hlt, hlive, hid, hv⟩
  · rintro ⟨l, hlt, hlive, hid, hv⟩
    exact ⟨l, (hs.find_iff id l).mpr ⟨hlt, hlive, hid⟩, hv⟩

/-- Compaction keeps the vector of every id. -/
theorem Compacted.get? (hs : s.Consistent) (h : Compacted s t s.slotCount) (id : VectorId) :
    t.get? id = s.get? id := by
  apply Option.ext
  intro v
  rw [get?_eq_some_iff h.consistent, get?_eq_some_iff hs]
  constructor
  · rintro ⟨k, hk, -, hid, hv⟩
    rw [h.slotCount] at hk
    obtain ⟨hlt, hlive⟩ := mem_liveSlots.mp (List.getElem_mem hk)
    exact ⟨_, hlt, hlive, (h.slot hk).1 ▸ hid, (h.slot hk).2.1 ▸ hv⟩
  · rintro ⟨l, hlt, hlive, hid, hv⟩
    obtain ⟨k, hk, rfl⟩ := List.getElem_of_mem (mem_liveSlots.mpr ⟨hlt, hlive⟩)
    exact ⟨k, h.slotCount ▸ hk, (h.slot hk).2.2.2, (h.slot hk).1.trans hid,
      (h.slot hk).2.1.trans hv⟩

theorem VectorStore.contains_eq_get? (s : VectorStore) (id : VectorId) :
    s.contains id = (s.get? id).isSome := by
  rw [VectorStore.contains, VectorStore.get?, Option.isSome_map]

section Calls
variable {K : Type} [BEq K] [LT K] [DecidableLT K] (p : Platform K) (env : Environment)
variable {h : Handle}

/-- A rebuild, or the write-out of another store, is followed by a flush. -/
def finishRebuild {α : Type} (result : α) : Call α := do
  update fun db => { db with dirty := true }
  flush env
  return result

theorem exec_rebuildIndex (hv : h.db.config.validate = .ok ()) (hs : h.db.store.Consistent) :
    ∃ built, builtIndex p h.db.config h.db.store = .ok built ∧
      exec (rebuildIndex p env) h = exec (finishRebuild env ())
        { h with db := { h.db with index := built.1, addedFor := built.2 } } := by
  obtain ⟨built, hb, -⟩ := builtIndex_ok p hv hs.counted
  refine ⟨built, hb, ?_⟩
  simp only [rebuildIndex, buildIndex, finishRebuild, exec_bind, exec_get, exec_fromExcept, hb,
    exec_update]
  rcases exec (flush env) _ with ⟨r, t⟩
  cases r <;> rfl

theorem exec_compact_none (hzero : h.db.store.tombstoneCount = 0) :
    exec (compact p env) h = (.ok 0, h) := by
  simp [compact, exec_bind, hzero]

theorem exec_compact_some (hv : h.db.config.validate = .ok ()) (hs : h.db.store.Consistent)
    (hdim : h.db.store.dimension = h.db.config.dimension)
    (hnorm : h.db.store.normalizes = h.db.config.normalize)
    (hpos : h.db.store.tombstoneCount ≠ 0) :
    ∃ t built, Compacted h.db.store t h.db.store.slotCount ∧
      builtIndex p h.db.config t = .ok built ∧
      exec (compact p env) h = exec (finishRebuild env h.db.store.tombstoneCount)
        { h with db := { h.db with store := t, index := built.1, addedFor := built.2 } } := by
  obtain ⟨e, he, -⟩ := VectorStore.create_eq h.db.store.normalizes
    h.db.store.vectors.dimension_pos h.db.store.vectors.dimension_le
  obtain ⟨t, hexec, ht⟩ := exec_keepSlots hs he
  obtain ⟨built, hb, -⟩ := builtIndex_ok p hv ht.consistent.counted
  have he' : VectorStore.create h.db.config.dimension h.db.config.normalize = .ok e := by
    rw [← hdim, ← hnorm]
    exact he
  refine ⟨t, built, ht, hb, ?_⟩
  rw [List.forM_eq_forM] at hexec
  simp [compact, buildIndex, finishRebuild, exec_bind, hpos, he', hexec, hb]

end Calls

end VectorDb.Db
