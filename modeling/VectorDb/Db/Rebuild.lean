import VectorDb.Db.CompactionAnswers
import VectorDb.Db.Lockstep
import VectorDb.Index.HnswReplay

/-!
The graph of a database that has seen inserts and removes only is the one that a rebuild makes
from the slots of its store.
-/
set_option autoImplicit false

namespace VectorDb.Db

open VectorDb.Lib VectorDb.Storage VectorDb.Index Throwing

section Replay
variable {K : Type} [BEq K] [LT K] [DecidableLT K] (p : Platform K) (metric : Metric)
variable {s t : VectorStore} {config : HnswConfig} {n : Nat}

theorem replaySlot_withLive {g r : HnswIndex} {slot : LocalId}
    (hadd : HnswIndex.add p.std (accessor p metric s) p.levelOf g slot = .ok r) :
    ∃ m, replaySlot p metric s g slot = .ok (r.withLive m) := by
  have hslot : replaySlot p metric s g slot = .ok (if s.isLive slot then r else r.remove slot) := by
    simp only [replaySlot, hadd, bind, Except.bind]
    rfl
  obtain ⟨m, -, hremove⟩ := HnswIndex.remove_eq r slot
  rw [hslot]
  by_cases hlive : s.isLive slot = true
  · exact ⟨r.liveCount, by rw [if_pos hlive]; rfl⟩
  · exact ⟨m, by rw [if_neg hlive, hremove]; rfl⟩

/-- Two stores that agree on the first slots: the graphs of these differ in their live counts
only. -/
theorem replay_agree (ha : HnswIndex.Agree (accessor p metric s) (accessor p metric t) n)
    (hm : config.m ≤ 512) (k : Nat) (hk : k ≤ n) :
    ∃ g m, (List.range k).foldlM (replaySlot p metric s) (HnswIndex.empty metric config) = .ok g ∧
      (List.range k).foldlM (replaySlot p metric t) (HnswIndex.empty metric config) =
        .ok (g.withLive m) ∧
      g.nodeCount = k ∧
      HnswIndex.Replayable (accessor p metric s) (accessor p metric t) n g := by
  induction k with
  | zero => exact ⟨_, 0, rfl, rfl, rfl, HnswIndex.empty_replayable metric hm⟩
  | succ k ih =>
    obtain ⟨g, m, hs, ht, hcount, hg⟩ := ih (by omega)
    obtain ⟨r, level, hadd, happ, hr, hother⟩ := hg.add p.std p.levelOf ha (by omega)
    rw [hcount] at hadd
    have hother := hother m
    rw [hcount] at hother
    obtain ⟨i, hi⟩ := replaySlot_withLive p metric hadd
    obtain ⟨j, hj⟩ := replaySlot_withLive p metric hother
    refine ⟨r.withLive i, j, ?_, ?_, ?_, hr.withLive i⟩
    · rw [foldlM_range_succ, hs]
      exact hi
    · rw [foldlM_range_succ, ht]
      exact hj
    · rw [← hcount]
      exact happ.nodeCount

theorem replay_eq (hvalid : config.validate = .ok ()) :
    replay p metric config s =
      (List.range s.slotCount).foldlM (replaySlot p metric s) (HnswIndex.empty metric config) := by
  simp only [replay, HnswIndex.create, hvalid, bind, Except.bind]
  rfl

theorem replay_agree_all (ha : HnswIndex.Agree (accessor p metric s) (accessor p metric t) s.slotCount)
    (hvalid : config.validate = .ok ()) {g : HnswIndex} (hg : replay p metric config s = .ok g) :
    ∃ m, (List.range s.slotCount).foldlM (replaySlot p metric t) (HnswIndex.empty metric config) =
      .ok (g.withLive m) ∧ g.nodeCount = s.slotCount := by
  have hm := ((HnswConfig.validate_eq_ok_iff config).mp hvalid).m_le
  obtain ⟨r, m, hs, ht, hcount, -⟩ := replay_agree p metric ha hm s.slotCount le_rfl
  rw [replay_eq p metric hvalid] at hg
  cases hs.symm.trans hg
  exact ⟨m, ht, hcount⟩

section Appended
variable {id : VectorId} {row : FloatVector} {norm : BitVec 32} {alive : Bool}

theorem appended_agree (hs : s.Consistent) (ha : VectorStore.Appended s t id row norm alive) :
    HnswIndex.Agree (accessor p metric s) (accessor p metric t) s.slotCount := by
  have hcount := ha.slotCount
  have hvector : ∀ i, HnswIndex.Shared (accessor p metric s) (accessor p metric t) s.slotCount i →
      t.vector i = s.vector i ∧ t.norm i = s.norm i := by
    intro i hi
    have hne : i ≠ s.slotCount := by
      rcases hi with hi | ⟨-, hi⟩
      · exact hi.ne
      · have hi : t.slotCount ≤ i := hi
        omega
    refine ⟨by rw [ha.vector, if_neg hne], ?_⟩
    rw [VectorStore.norm, ha.norms, VectorStore.getD_append_singleton, hs.norms, if_neg hne]
    rfl
  refine ⟨⟨le_rfl, by show s.slotCount ≤ t.slotCount; omega⟩, fun i j hi hj => ?_⟩
  simp only [accessor, hvector i hi, hvector j hj]

/-- What `add` makes of the graph once the store has one more slot. -/
theorem replay_appended (hs : s.Consistent) (ha : VectorStore.Appended s t id row norm alive)
    (hvalid : config.validate = .ok ()) {g r : HnswIndex} (hg : replay p metric config s = .ok g)
    (hadd : HnswIndex.add p.std (accessor p metric t) p.levelOf g g.nodeCount = .ok r) :
    ∃ m, replay p metric config t = .ok (r.withLive m) := by
  obtain ⟨m, ht, hcount⟩ := replay_agree_all p metric (appended_agree p metric hs ha) hvalid hg
  have hother : HnswIndex.add p.std (accessor p metric t) p.levelOf (g.withLive m) s.slotCount =
      .ok (r.withLive (m + 1)) := by
    rw [HnswIndex.add_withLive, ← hcount, hadd]
    rfl
  obtain ⟨i, hi⟩ := replaySlot_withLive p metric hother
  refine ⟨i, ?_⟩
  rw [replay_eq p metric hvalid, ha.slotCount, foldlM_range_succ, ht]
  exact hi

end Appended

theorem replay_removed {id : VectorId} {slot : LocalId} (hr : VectorStore.Removed s t id slot)
    (hvalid : config.validate = .ok ()) {g : HnswIndex} (hg : replay p metric config s = .ok g) :
    ∃ m, replay p metric config t = .ok (g.withLive m) := by
  have ha : HnswIndex.Agree (accessor p metric s) (accessor p metric t) s.slotCount := by
    refine ⟨⟨le_rfl, ?_⟩, fun i j _ _ => ?_⟩
    · show s.vectors.size ≤ t.vectors.size
      rw [hr.vectors]
    · simp only [accessor, VectorStore.vector, VectorStore.norm, hr.vectors, hr.norms]
  obtain ⟨m, ht, -⟩ := replay_agree_all p metric ha hvalid hg
  refine ⟨m, ?_⟩
  rw [replay_eq p metric hvalid, VectorStore.slotCount, hr.vectors]
  exact ht

end Replay

section Runs
variable {K : Type} [BEq K] [LT K] [DecidableLT K] (p : Platform K)

/-- A rebuild would install the index that is there. -/
def Database.Reproduced (db : Database) : Prop :=
  ∀ built, builtIndex p db.config db.store = .ok built → built.1 = db.index

/-- No vector is written over and no slot is reclaimed, and the database is not opened again. -/
def KeepsSlots (event : Event) (_ : Environment) (_ : State) : Prop :=
  match event with
  | .call (.upsert ..) | .call .compact | .reopen => False
  | _ => True

def State.Reproduced : State → Prop
  | .opened h => h.db.Reproduced p
  | _ => True

variable {p}

theorem Database.Reproduced.same {d e : Database} (hd : d.Reproduced p) (hconfig : e.config = d.config)
    (hstore : e.store = d.store) (hindex : e.index = d.index) : e.Reproduced p := by
  intro built hb
  rw [hconfig, hstore] at hb
  exact (hd built hb).trans hindex.symm

/-- What is left to compare is the live count, and both count the live slots. -/
theorem reproduced_of_replay {db : Database} (hdb : DatabaseSound True db) {g : HnswIndex} {m : Nat}
    (htype : db.config.indexType = .hnsw) (hindex : db.index = .hnsw g)
    (hreplay : replay p db.config.metric db.config.hnsw db.store = .ok (g.withLive m)) :
    db.Reproduced p := by
  intro built hb
  obtain ⟨_, hb', -, hstep⟩ := builtIndex_ok p hdb.valid hdb.store.consistent.counted
  cases hb.symm.trans hb'
  have hbuilt : built = (.hnsw (g.withLive m), db.store.localToId) := by
    simp only [builtIndex, htype, hreplay] at hb
    exact (Except.ok.inj hb).symm
  have hown := hdb.inStep trivial
  rw [hbuilt] at hstep
  rw [hindex] at hown
  have hlive : m = g.liveCount := hstep.1.trans hown.1.symm
  rw [hbuilt, hindex, hlive]
  rfl

theorem reproduced_bruteForce {db : Database} (hdb : DatabaseSound True db)
    (htype : db.config.indexType = .bruteForce) : db.Reproduced p := by
  intro built hb
  have hfits := hdb.index
  simp only [builtIndex, htype] at hb
  cases hb
  cases hindex : db.index with
  | bruteForce => rfl
  | hnsw g =>
    rw [hindex, htype] at hfits
    cases hfits.1

/-- The graph of a database whose index a rebuild would install. -/
theorem Database.Reproduced.replay {db : Database} (hrep : db.Reproduced p) (hdb : DatabaseSound True db)
    (htype : db.config.indexType = .hnsw) :
    ∃ g, db.index = .hnsw g ∧ replay p db.config.metric db.config.hnsw db.store = .ok g := by
  obtain ⟨built, hb, -⟩ := builtIndex_ok p hdb.valid hdb.store.consistent.counted
  have hindex := hrep built hb
  simp only [builtIndex, htype] at hb
  cases hreplay : Db.replay p db.config.metric db.config.hnsw db.store with
  | error e =>
    rw [hreplay] at hb
    cases hb
  | ok g =>
    rw [hreplay] at hb
    cases hb
    exact ⟨g, hindex.symm, rfl⟩

theorem Grown.reproduced {d e : Database} {id : VectorId} {v : FloatVector} (hg : Grown p d e id v)
    (hd : DatabaseSound True d) (hnew : d.store.contains id = false) (hrep : d.Reproduced p) :
    e.Reproduced p := by
  obtain ⟨he, hconfig⟩ := hg.sound p hd hnew
  cases htype : d.config.indexType with
  | bruteForce => exact reproduced_bruteForce he (hconfig ▸ htype)
  | hnsw =>
    obtain ⟨g, hindex, hreplay⟩ := hrep.replay hd htype
    have hadded := hg.index
    rw [hindex] at hadded
    generalize hnext : e.index = next at hadded
    generalize e.addedFor = ids at hadded
    cases hadded with
    | hnsw hadd =>
      obtain ⟨m, hm⟩ := replay_appended p d.config.metric hd.store.consistent hg.store
        (validate_hnsw hd.valid htype) hreplay hadd
      rw [← hconfig] at hm
      exact reproduced_of_replay he (hconfig ▸ htype) hnext hm

theorem reproduced_removed {db : Database} {t : VectorStore} {id : VectorId} {slot : LocalId}
    (hr : VectorStore.Removed db.store t id slot) (hdb : DatabaseSound True db)
    (hfind : db.store.find id = some slot) (hrep : db.Reproduced p) :
    ({ db with store := t, index := db.index.remove slot } : Database).Reproduced p := by
  have he := hdb.removed hr hfind
  cases htype : db.config.indexType with
  | bruteForce => exact reproduced_bruteForce he htype
  | hnsw =>
    obtain ⟨g, hindex, hreplay⟩ := hrep.replay hdb htype
    obtain ⟨m, hm⟩ := replay_removed p db.config.metric hr (validate_hnsw hdb.valid htype) hreplay
    obtain ⟨n, -, hremove⟩ := HnswIndex.remove_eq g slot
    refine reproduced_of_replay he htype (g := g.remove slot) ?_ ?_ (m := m)
    · show db.index.remove slot = .hnsw (g.remove slot)
      rw [hindex]
      rfl
    · rw [hremove]
      exact hm

theorem SameMemory.reproduced {h g : Handle} (hs : SameMemory h g) (hrep : h.db.Reproduced p) :
    g.db.Reproduced p :=
  hrep.same hs.config hs.store hs.index

variable (p) (env : Environment)

/-- What one call keeps. -/
theorem Operation.run_reproduced (op : Operation) {h : Handle} (hh : HandleSound True h)
    (hrep : h.db.Reproduced p) (hop : KeepsSlots (.call op) env (.opened h)) :
    (exec (op.run p env) h).2.db.Reproduced p := by
  have hout := op.outcome p env hh
  generalize (exec (op.run p env) h).2 = g at hout
  cases hout with
  | unchanged => exact hrep
  | read n => exact hrep
  | inserted _ hc hgrown hg =>
    exact hg.toSameMemory.reproduced
      (hgrown.reproduced hh.database (VectorStore.insertCheck_ok hc).1 hrep)
  | upserted => exact hop.elim
  | removed hfind hr hg =>
    exact hg.toSameMemory.reproduced (reproduced_removed hr hh.database hfind hrep)
  | metadataSet _ hg => exact hg.toSameMemory.reproduced hrep
  | rebuilt hb hg =>
    refine hg.toSameMemory.reproduced fun built hb' => ?_
    cases hb.symm.trans hb'
    rfl
  | compacted => exact hop.elim
  | flushed hg => exact hg.toSameMemory.reproduced hrep

theorem create_reproduced {c : DatabaseConfig} (hv : c.validate = .ok ()) :
    (State.ofCall (exec (create p env c) newDirectory)).Reproduced p := by
  have hinit := initialise_spec p env hv newDirectory ⟨.refl _, MetadataStore.holds_fresh _⟩
  rw [exec_create p env hv]
  rcases hexec : exec (initialise p env c) newDirectory with ⟨r, d⟩
  rw [hexec] at hinit
  cases r with
  | error e => trivial
  | ok db =>
    have hmade := hinit.1
    have hrep : db.Reproduced p := fun built hb => by
      rw [hmade.config, hmade.built] at hb
      rw [← Except.ok.inj hb]
    have hflushed := flush_flushedTo env ⟨d, db⟩
    dsimp only
    rcases hexec : exec (flush env) ⟨d, db⟩ with ⟨r, h⟩
    rw [hexec] at hflushed
    cases r with
    | ok u => exact hflushed.toSameMemory.reproduced hrep
    | error e => trivial

theorem State.after_reproduced {s : State} {event : Event} (hs : s.Sound True)
    (hrep : s.Reproduced p) (hok : KeepsSlots event env s) :
    (s.after p env event).Reproduced p := by
  cases s with
  | absent =>
    cases event with
    | create config sized =>
      cases hv : config.validate with
      | error e => simp [State.after, hv, State.Reproduced]
      | ok u =>
        rw [State.after_create p env sized hv]
        exact create_reproduced p env hv
    | _ => trivial
  | closed d =>
    cases event with
    | reopen => exact hok.elim
    | _ => trivial
  | opened h =>
    cases event with
    | call op => exact op.run_reproduced p env hs hrep hok
    | crash => trivial
    | close => trivial
    | _ => exact hrep

theorem reachable_reproduced {s : State} (hr : (runs p KeepsSlots).Reachable s) :
    s.Sound True ∧ s.Reproduced p := by
  refine hr.invariant (P := fun s => s.Sound True ∧ s.Reproduced p) ?_ ?_
  · rintro _ rfl
    exact ⟨trivial, trivial⟩
  · rintro s _ ⟨hs, hrep⟩ ⟨event, env, hok, rfl⟩
    refine ⟨State.after_sound p env hs event ?_, State.after_reproduced p env hs hrep hok⟩
    rintro rfl
    exact hok.elim

/-- What is left of a rebuild once the index is built changes nothing that a search reads. -/
theorem finishRebuild_search {h : Handle} {env' : Environment}
    (ha : env'.sql.Answers (h.metadata.connection.stuck .selectByVector))
    (query : FloatVector) (options : QueryOptions) :
    (exec (search p env' query options) (exec (finishRebuild env ()) h).2).1 =
      (exec (search p env' query options) h).1 := by
  obtain ⟨dirty, hdb⟩ := flush_db env { h with db := { h.db with dirty := true } }
  have hrows := flush_metadataOf env { h with db := { h.db with dirty := true } }
  have hselect := flush_stuck_select env { h with db := { h.db with dirty := true } }
  rw [exec_finishRebuild]
  rcases hflush : exec (flush env) { h with db := { h.db with dirty := true } } with ⟨r, g⟩
  rw [hflush] at hdb hrows hselect
  dsimp only at hdb hrows hselect
  have hg : (exec (search p env' query options) g).1 = (exec (search p env' query options) h).1 := by
    have hseen : g.seenMetadata = h.seenMetadata := by
      funext id
      rw [Handle.seenMetadata, Handle.seenMetadata, hrows, hdb]
      rfl
    rw [search_answers p ha, search_answers p (hselect ▸ ha), hseen, hdb]
    rfl
  cases r <;> exact hg

/-- A rebuild after any inserts and removes installs the graph that is there: the one that `add`
gives for all slots of the store. Every search then finds what it found before. -/
theorem rebuildIndex_reproduces {h : Handle} (hr : (runs p KeepsSlots).Reachable (.opened h))
    (htype : h.db.config.indexType = .hnsw) :
    ∃ graph, h.db.index = .hnsw graph ∧
      replay p h.db.config.metric h.db.config.hnsw h.db.store = .ok graph ∧
      (exec (rebuildIndex p env) h).2.db.index = .hnsw graph ∧
      (env.OnlyMisuse → h.metadata.connection.stuck .setConfigValue = false →
        (exec (rebuildIndex p env) h).1 = .ok ()) ∧
      ∀ env' : Environment, env'.sql.Answers (h.metadata.connection.stuck .selectByVector) →
        ∀ (query : FloatVector) (options : QueryOptions),
          (exec (search p env' query options) (exec (rebuildIndex p env) h).2).1 =
            (exec (search p env' query options) h).1 := by
  obtain ⟨hh, hrep⟩ := reachable_reproduced p hr
  have hh : HandleSound True h := hh
  obtain ⟨graph, hindex, hreplay⟩ := Database.Reproduced.replay hrep hh.database htype
  obtain ⟨built, hb, hexec⟩ := exec_rebuildIndex p env hh.database.valid hh.database.store.consistent
  have hbuilt : built = (.hnsw graph, h.db.store.localToId) := by
    simp only [builtIndex, htype, hreplay] at hb
    exact (Except.ok.inj hb).symm
  have hids : h.db.addedFor = h.db.store.localToId := by
    have hstep := hh.database.inStep trivial
    rw [hindex] at hstep
    exact hstep.2
  have hsame : ({ h with db := { h.db with index := built.1, addedFor := built.2 } } : Handle) = h := by
    rw [hbuilt, ← hindex, ← hids]
  rw [hsame] at hexec
  refine ⟨graph, hindex, hreplay, ?_, fun hm hfree => ?_, fun env' ha query options => ?_⟩
  · rw [hexec, (finishRebuild_flushedTo env h ()).index]
    exact hindex
  · rw [hexec, exec_finishRebuild]
    have hok : (exec (flush env) { h with db := { h.db with dirty := true } }).1 = .ok () :=
      flush_ok hm.2 (hfree ▸ hm.1.answers)
    rcases hflush : exec (flush env) { h with db := { h.db with dirty := true } } with ⟨r, g⟩
    rw [hflush] at hok
    cases r with
    | ok u => rfl
    | error e => cases hok
  · rw [hexec]
    exact finishRebuild_search p env ha query options

end Runs

/-- Four vectors, the last of them with two layers of its own, and one removed. -/
def fourInserts : List (Event × Environment) :=
  [(.create unitConfig unitConfig_sized, faultless),
    (.call (.insert 7 [Component.zero] ∅), faultless),
    (.call (.insert 5 [Component.one] ∅), faultless),
    (.call (.insert 2 [Component.one] ∅), faultless),
    (.call (.insert 9 [Component.zero] ∅), faultless), (.call (.remove 2), faultless)]

theorem rebuildIndex_reproduces_four : ∃ h : Handle,
    h.db.store.slotCount = 4 ∧ h.db.store.tombstoneCount = 1 ∧
      ∃ graph : HnswIndex, h.db.index = .hnsw graph ∧ graph.maxLevel = 2 ∧
        (exec (rebuildIndex unitPlatform misuseRefused) h).1 = .ok () ∧
        (exec (rebuildIndex unitPlatform misuseRefused) h).2.db.index = .hnsw graph := by
  obtain ⟨h, hr, htest⟩ := exists_reachable unitPlatform KeepsSlots (by simp [fourInserts, KeepsSlots])
    (show (State.afterAll unitPlatform fourInserts .absent).handle?.map (fun h =>
      decide (h.db.store.slotCount = 4 ∧ h.db.store.tombstoneCount = 1 ∧
        h.db.config.indexType = .hnsw ∧ h.metadata.connection.stuck .setConfigValue = false) &&
      match h.db.index with
      | .hnsw graph => graph.maxLevel == 2
      | .bruteForce => false) = some true by decide +kernel)
  obtain ⟨hstate, hlevel⟩ := Bool.and_eq_true_iff.mp htest
  obtain ⟨hcount, htomb, htype, hfree⟩ := of_decide_eq_true hstate
  obtain ⟨graph, hindex, -, hrebuilt, hreturns, -⟩ :=
    rebuildIndex_reproduces unitPlatform misuseRefused hr htype
  rw [hindex] at hlevel
  exact ⟨h, hcount, htomb, graph, hindex, beq_iff_eq.mp hlevel,
    hreturns onlyMisuse_misuseRefused hfree, hrebuilt⟩

end VectorDb.Db
