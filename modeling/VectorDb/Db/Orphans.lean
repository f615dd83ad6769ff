import VectorDb.Db.CompactionAnswers
import VectorDb.Db.CrashConsistency
import VectorDb.Storage.MetadataMatching

/-!
Metadata rows of ids that are not live: what `check` says of them, and what `compact` does
about them.
-/
set_option autoImplicit false

namespace VectorDb.Db

open VectorDb.Lib VectorDb.Storage VectorDb.Index Throwing

/-- The set `live` of `check`. -/
def Database.liveIds (db : Database) : Finset VectorId :=
  ((liveSlots db.store db.store.slotCount).map db.store.vectorId).toFinset

/-- The warning for the orphans that were found. -/
def warningOf : List VectorId → Option String
  | [] => none
  | first :: rest => some (toString (rest.length + 1) ++
      " metadata rows reference vectors that no longer exist (first: " ++ toString first.val ++
      "); they are inert and can be cleaned up with compact")

/-- What `check` warns of the metadata rows. -/
def orphanWarning (env : Environment) : Call (Option String) := do
  let h ← get
  return warningOf (← onDirectory (onMetadata (MetadataStore.orphanedIds env.sql h.db.liveIds)))

/-- The metadata table has rows for an id that is not live. -/
def Handle.Orphan (h : Handle) (id : VectorId) : Prop :=
  id ∈ h.metadata.connection.view.metadata ∧ h.db.store.contains id = false

section Check
variable {h : Handle} {env : Environment}

theorem mem_liveIds (hs : h.db.store.Consistent) (id : VectorId) :
    id ∈ h.db.liveIds ↔ h.db.store.contains id = true := by
  rw [Database.liveIds, List.mem_toFinset, List.mem_map, VectorStore.contains, Option.isSome_iff_exists]
  constructor
  · rintro ⟨l, hl, hid⟩
    obtain ⟨hlt, hlive⟩ := mem_liveSlots.mp hl
    exact ⟨l, (hs.find_iff id l).mpr ⟨hlt, hlive, hid⟩⟩
  · rintro ⟨l, hl⟩
    obtain ⟨hlt, hlive, hid⟩ := (hs.find_iff id l).mp hl
    exact ⟨l, mem_liveSlots.mpr ⟨hlt, hlive⟩, hid⟩

/-- `check` says nothing if and only if there is no orphan. -/
theorem orphanWarning_none_iff (hq : env.Quiet) (hs : h.db.store.Consistent) :
    (exec (orphanWarning env) h).1 = .ok none ↔ ∀ id, ¬ h.Orphan id := by
  have horphans : ∀ id, id ∈ h.metadata.connection.view.orderedIds.filter (· ∉ h.db.liveIds) ↔
      h.Orphan id := by
    intro id
    rw [List.mem_filter, MetadataStore.mem_orderedIds, Handle.Orphan]
    simp only [decide_eq_true_eq, mem_liveIds hs, Bool.not_eq_true]
  have hread : (exec (orphanWarning env) h).1 = .ok
      (warningOf (h.metadata.connection.view.orderedIds.filter (· ∉ h.db.liveIds))) := by
    simp only [orphanWarning, exec_bind, exec_get, exec_onDirectory, exec_onMetadata,
      MetadataStore.orphanedIds, MetadataStore.sql, exec_on, exec_queryStatement, hq.1.failure,
      exec_pure]
  have hnone : ∀ orphans, warningOf orphans = none ↔ orphans = [] := by
    intro orphans
    cases orphans <;> simp [warningOf]
  rw [hread, Except.ok.injEq, hnone, List.eq_nil_iff_forall_not_mem]
  exact forall_congr' fun id => not_congr (horphans id)

end Check

section Compact
variable {L : Type} [LinearOrder L] (p : Platform L) {h : Handle}

theorem setConfig_metadata (faults : Faults) (key value : String) (s : MetadataStore) :
    (exec (MetadataStore.setConfig faults key value) s).2.connection.view.metadata =
      s.connection.view.metadata := by
  simp only [MetadataStore.setConfig, MetadataStore.sql, exec_on, exec_runStatement]
  cases s.connection.failure faults (some .setConfigValue) with
  | some detail => rfl
  | none => simp [Tables.setConfigValue]

/-- No statement of `compact` is about the metadata table, and the live ids stay. -/
theorem compact_kept (hh : HandleSound False h) (env : Environment) :
    (exec (compact p env) h).2.metadata.connection.view.metadata =
        h.metadata.connection.view.metadata ∧
      ∀ id, (exec (compact p env) h).2.db.store.contains id = h.db.store.contains id := by
  by_cases hzero : h.db.store.tombstoneCount = 0
  · rw [exec_compact_none p env hzero]
    exact ⟨rfl, fun _ => rfl⟩
  · obtain ⟨t, built, ht, -, hexec⟩ := exec_compact_some p env hh.database.valid
      hh.database.store.consistent hh.database.store.dimension hh.database.store.normalizes hzero
    rw [hexec, exec_finishRebuild]
    generalize hcompacted : ({ h with db := { h.db with
      store := t, index := built.1, addedFor := built.2, dirty := true } } : Handle) = c
    have hmetadata : (exec (flush env) c).2.metadata.connection.view.metadata =
        h.metadata.connection.view.metadata := by
      have hsame : c.metadata = h.metadata := by rw [← hcompacted]
      rcases (flush_flushedTo env c).metadata with hkept | hset
      · rw [hkept, hsame]
      · rw [hset, setConfig_metadata, hsame]
    have hcontains : ∀ id, (exec (flush env) c).2.db.store.contains id = h.db.store.contains id := by
      intro id
      obtain ⟨dirty, hdb⟩ := flush_db env c
      rw [hdb, ← hcompacted, VectorStore.contains_eq_get?, VectorStore.contains_eq_get?,
        ht.get? hh.database.store.consistent]
    rcases hflush : exec (flush env) c with ⟨r, g⟩
    rw [hflush] at hmetadata hcontains
    cases r <;> exact ⟨hmetadata, hcontains⟩

theorem compact_quiet_ok (hh : HandleSound False h) {env : Environment} (hq : env.Quiet) :
    ∃ n, (exec (compact p env) h).1 = .ok n := by
  by_cases hzero : h.db.store.tombstoneCount = 0
  · rw [exec_compact_none p env hzero]
    exact ⟨0, rfl⟩
  · obtain ⟨t, built, -, -, hexec⟩ := exec_compact_some p env hh.database.valid
      hh.database.store.consistent hh.database.store.dimension hh.database.store.normalizes hzero
    rw [hexec, exec_finishRebuild]
    generalize ({ h with db := { h.db with
      store := t, index := built.1, addedFor := built.2, dirty := true } } : Handle) = c
    have hok := flush_quiet_ok hq c
    rcases hflush : exec (flush env) c with ⟨r, g⟩
    rw [hflush] at hok
    subst hok
    exact ⟨_, rfl⟩

theorem compact_orphan (hr : (runs p fun _ _ _ => True).Reachable (.opened h)) (env : Environment)
    (id : VectorId) : (exec (compact p env) h).2.Orphan id ↔ h.Orphan id := by
  obtain ⟨hmetadata, hcontains⟩ := compact_kept p (reachable_sound p hr) env
  rw [Handle.Orphan, Handle.Orphan, hmetadata, hcontains]

/-- After `compact` no row belongs to an id that is not live, and `check` does not warn, if and
only if that was so before: it leaves the orphans there were. -/
theorem compact_no_orphans_iff (hr : (runs p fun _ _ _ => True).Reachable (.opened h))
    (env : Environment) :
    ((∀ id, ¬ (exec (compact p env) h).2.Orphan id) ↔ ∀ id, ¬ h.Orphan id) ∧
      ∀ check : Environment, check.Quiet →
        ((exec (orphanWarning check) (exec (compact p env) h).2).1 = .ok none ↔
          ∀ id, ¬ h.Orphan id) := by
  have hsame : (∀ id, ¬ (exec (compact p env) h).2.Orphan id) ↔ ∀ id, ¬ h.Orphan id :=
    forall_congr' fun id => not_congr (compact_orphan p hr env id)
  have hsound := compact_sound p env (reachable_sound p hr)
  refine ⟨hsame, fun check hq => ?_⟩
  rw [orphanWarning_none_iff hq hsound.database.store.consistent, hsame]

end Compact

/-- Two vectors with metadata, of which one is removed. -/
def oneOfTwoRemoved : List (Event × Environment) :=
  [(.create unitConfig unitConfig_sized, faultless),
    (.call (.insert 0 [Component.one] oneEntry), faultless),
    (.call (.insert 1 [Component.zero] oneEntry), faultless), (.call (.remove 0), faultless)]

theorem compact_no_orphans_one_of_two : ∃ h : Handle,
    (runs unitPlatform fun _ _ _ => True).Reachable (.opened h) ∧
      h.db.store.tombstoneCount = 1 ∧ h.metadata.connection.view.metadata.keys = [1] ∧
      (∀ id, ¬ (exec (compact unitPlatform misuseRefused) h).2.Orphan id) ∧
      (exec (orphanWarning faultless) (exec (compact unitPlatform misuseRefused) h).2).1 =
        .ok none := by
  obtain ⟨h, hr, htest⟩ := exists_reachable unitPlatform
    (fun _ _ _ => True) (fun _ _ _ => trivial)
    (show (State.afterAll unitPlatform oneOfTwoRemoved .absent).handle?.map (fun h =>
      decide (h.db.store.tombstoneCount = 1 ∧ h.metadata.connection.view.metadata.keys = [1] ∧
        h.db.store.contains 1 = true)) = some true by decide +kernel)
  obtain ⟨htomb, hkeys, hlive⟩ := of_decide_eq_true htest
  have hnone : ∀ id, ¬ h.Orphan id := fun id horphan => by
    have hid := Std.ExtTreeMap.mem_keys.mpr horphan.1
    rw [hkeys, List.mem_singleton] at hid
    rw [Handle.Orphan, hid, hlive] at horphan
    cases horphan.2
  obtain ⟨hcompacted, hchecked⟩ := compact_no_orphans_iff unitPlatform hr misuseRefused
  exact ⟨h, hr, htomb, hkeys, hcompacted.mpr hnone, (hchecked faultless quiet_faultless).mpr hnone⟩

/-- A vector is inserted with metadata and the process dies before a flush. The next one finds
the row without the vector; `compact` returns and leaves it. -/
theorem compact_leaves_orphan : ∃ h : Handle,
    (runs unitPlatform fun _ _ _ => True).Reachable (.opened h) ∧
      (∃ n, (exec (compact unitPlatform faultless) h).1 = .ok n) ∧
      (exec (compact unitPlatform faultless) h).2.Orphan 0 ∧
      (exec (orphanWarning faultless) (exec (compact unitPlatform faultless) h).2).1 ≠ .ok none := by
  obtain ⟨h₀, h₁, hone⟩ := exists_unitVector oneEntry oneEntry_keys
  have hr₁ := hone.reachable unitPlatform (fun _ _ _ => True) unitConfig_sized trivial trivial
  have hh₁ : HandleSound False h₁ := reachable_sound unitPlatform hr₁
  have hh₀ : HandleSound False h₀ :=
    reachable_sound unitPlatform (hone.made unitPlatform (fun _ _ _ => True) unitConfig_sized trivial)
  obtain ⟨made, hmade, hat₀⟩ := hone.empty
  obtain ⟨grown, t, ht, -, hat₁⟩ := hone.one
  have hholds := insert_holding unitPlatform faultless hh₀ ht.1.pending hone.insert
  have hentry : insertedMetadata h₀ 0 oneEntry = oneEntry :=
    insertedMetadata_eq_iff.mpr ⟨by simp [oneEntry], oneEntry_kept⟩
  rw [hentry] at hholds
  have hview : h₁.metadataOf 0 = oneEntry := hholds.metadata.view
  have hrows : h₁.disk.tables.rows 0 ≠ ∅ := by
    intro hempty
    rw [Directory.disk, hat₁.tables.2] at hempty
    rw [Handle.metadataOf, hat₁.tables.view, hempty, MetadataStore.metadataOf_empty] at hview
    exact absurd hview.symm (by simp [oneEntry])
  have hstored : h₁.disk.files.stored 0 = none := by
    have hwritten : h₁.disk.files.stored 0 = made.store.get? 0 := by
      refine Files.stored_of_write hmade.store.consistent ?_ 0
      rw [Directory.disk, hat₁.files.vectors, hat₀.files.vectors, Files.flushed_vectors]
    rw [hwritten, VectorStore.get?, find_empty hmade.store.consistent hmade.slotCount,
      Option.map_none]
  obtain ⟨g, hg⟩ := hh₁.reopens unitPlatform
  have hr : (runs unitPlatform fun _ _ _ => True).Reachable (.opened g) := by
    refine (hr₁.step ⟨.crash, faultless, trivial, rfl⟩).step ⟨.reopen, faultless, trivial, ?_⟩
    exact hg.symm
  have hreopened := reopened unitPlatform faultless hh₁.disk
  rw [← State.after_reopen, hg] at hreopened
  cases hreopened with
  | opened _ hget hp hsame =>
    have horphan : g.Orphan 0 := by
      refine ⟨MetadataStore.mem_metadata_of_rows ?_, ?_⟩
      · rw [Connection.view, hp, Option.getD_none, hsame]
        exact hrows
      · rw [VectorStore.contains_eq_get?, hget, hstored]
        rfl
    have hleft := (compact_orphan unitPlatform hr faultless 0).mpr horphan
    have hsound := compact_sound unitPlatform faultless (reachable_sound unitPlatform hr)
    refine ⟨g, hr, ?_, hleft, fun hnone => ?_⟩
    · exact compact_quiet_ok unitPlatform (reachable_sound unitPlatform hr) quiet_faultless
    · exact (orphanWarning_none_iff quiet_faultless hsound.database.store.consistent).mp hnone 0 hleft

end VectorDb.Db
