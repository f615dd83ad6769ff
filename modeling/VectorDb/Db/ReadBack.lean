import VectorDb.Db.WriteOutcome

/-!
What `insert` took is what `get` gives back, until the next write to that id.
-/
set_option autoImplicit false

namespace VectorDb.Db

open VectorDb.Lib VectorDb.Storage VectorDb.Index Throwing

/-- `m` is what a table has for `id`. -/
def Has (id : VectorId) (m : Metadata) (t : Tables) : Prop :=
  MetadataStore.metadataOf (t.rows id) = m

/-- `w` is in memory under `id`, and `m` is what any later version of the tables holds. -/
structure Handle.Holding (id : VectorId) (w : FloatVector) (m : Metadata) (h : Handle) : Prop where
  vector : h.db.store.get? id = some w
  metadata : MetadataStore.Everywhere (Has id m) h.metadata

/-- The calls that write to `id` while it is in use; an `insert` of it is rejected then. -/
def Operation.Overwrites (id : VectorId) : Operation → Prop
  | .upsert i _ _ | .remove i | .setMetadata i _ => i = id
  | _ => False

variable {id : VectorId} {v w : FloatVector} {m : Metadata} {h h' : Handle}

theorem getVector_get?_answers {env : Environment} {h : Handle}
    (ha : env.sql.Answers (h.metadata.connection.stuck .selectByVector)) (id : VectorId) :
    (exec (getVector env id) h).1 =
      .ok ((h.db.store.get? id).map fun v => ⟨id, v, h.metadataOf id⟩) := by
  rw [getVector_answers ha, VectorStore.get?, Option.map_map]
  rfl

theorem getVector_get? {env : Environment} (hq : env.Quiet) (h : Handle) (id : VectorId) :
    (exec (getVector env id) h).1 =
      .ok ((h.db.store.get? id).map fun v => ⟨id, v, h.metadataOf id⟩) :=
  getVector_get?_answers (hq.1.answers _) id

section Frames
variable {i : VectorId} {g : Handle}

theorem Has.deleteByVector {t : Tables} (ht : Has id m t) (hi : i ≠ id) :
    Has id m (t.deleteByVector i) := by
  rw [Has, Tables.rows_deleteByVector, if_neg hi.symm]
  exact ht

theorem Has.insertValue {t : Tables} (ht : Has id m t) (hi : i ≠ id) (key : Text) (row : Row) :
    Has id m (t.insertValue i key row) := by
  rw [Has, Tables.rows_insertValue, if_neg hi.symm]
  exact ht

theorem everywhere_set (faults : Faults) {s : MetadataStore} (hs : s.Everywhere (Has id m)) (hi : i ≠ id)
    (m' : Metadata) : (exec (MetadataStore.set faults i m') s).2.Everywhere (Has id m) :=
  MetadataStore.frames_set (fun _ ht => ht.deleteByVector hi)
    (fun _ key row ht => ht.insertValue hi key row) m' s hs

theorem everywhere_remove (faults : Faults) {s : MetadataStore} (hs : s.Everywhere (Has id m)) (hi : i ≠ id) :
    (exec (MetadataStore.remove faults i) s).2.Everywhere (Has id m) :=
  MetadataStore.frames_remove (fun _ ht => ht.deleteByVector hi) s hs

/-- What is written for another id is written beside it. -/
theorem Wrote.holding {s : MetadataStore} (hg : Wrote h s g) (hw : h.db.store.get? id = some w)
    (hm : s.Everywhere (Has id m)) : g.Holding id w m :=
  ⟨by rw [hg.store]; exact hw, hg.metadata ▸ hm⟩

theorem Flushed.holding {env : Environment} (hg : Flushed env h g)
    (hw : h.db.store.get? id = some w) (hm : h.metadata.Everywhere (Has id m)) :
    g.Holding id w m := by
  refine ⟨by rw [hg.store]; exact hw, ?_⟩
  rcases hg.metadata with hsame | hset
  · rw [hsame]
    exact hm
  · rw [hset]
    exact MetadataStore.frames_setConfig (fun _ ht => ht) h.metadata hm

end Frames

section Calls
variable {K : Type} [BEq K] [LT K] [DecidableLT K] (p : Platform K) (env : Environment)

theorem Handle.Holding.contains (hh : h.Holding id w m) : h.db.store.contains id = true := by
  rw [VectorStore.contains_eq_get?, hh.vector, Option.isSome_some]

/-- What an id holds is there until a call overwrites it. -/
theorem Operation.run_holding (op : Operation) (hop : ¬ op.Overwrites id)
    (hsound : HandleSound False h) (hh : h.Holding id w m) :
    (exec (op.run p env) h).2.Holding id w m := by
  have hs := hsound.database.store.consistent
  have hout := op.outcome p env hsound
  generalize (exec (op.run p env) h).2 = g at hout ⊢
  cases hout with
  | unchanged => exact hh
  | read n => exact ⟨hh.vector, hh.metadata.committed, hh.metadata.pending⟩
  | @inserted _ i v m' db _ _ hc hgrown hg =>
    have hnew := (VectorStore.insertCheck_ok hc).1
    have hi : i ≠ id := by
      rintro rfl
      rw [hh.contains] at hnew
      cases hnew
    refine hg.holding ?_ ?_
    · show db.store.get? id = _
      rw [hgrown.store.get? hs hnew, if_neg hi.symm]
      exact hh.vector
    · unfold insertedStore
      split
      · exact hh.metadata
      · exact everywhere_set env.sql hh.metadata hi m'
  | @upserted i v m' slot s _ hfind _ ha hg =>
    refine hg.holding ?_ (everywhere_set env.sql hh.metadata hop m')
    show s.get? id = _
    rw [ha.get? hs hfind, if_neg (Ne.symm hop)]
    exact hh.vector
  | @removed i slot s _ hfind ha hg =>
    refine hg.holding ?_ (everywhere_remove env.sql hh.metadata hop)
    show s.get? id = _
    rw [ha.get?, if_neg (Ne.symm hop)]
    exact hh.vector
  | metadataSet _ hg => exact hg.holding hh.vector (everywhere_set env.sql hh.metadata hop _)
  | rebuilt _ hg => exact hg.holding hh.vector hh.metadata
  | @compacted s _ _ ha _ hg =>
    refine hg.holding ?_ hh.metadata
    show s.get? id = _
    rw [ha.get? hs]
    exact hh.vector
  | flushed hg => exact hg.holding hh.vector hh.metadata

/-- The metadata `get` gives for an id after its `insert`. -/
def insertedMetadata (h : Handle) (id : VectorId) (m : Metadata) : Metadata :=
  if m.isEmpty then h.metadataOf id else m.map fun _ value => value.stored

/-- No value is changed on its way through the table. -/
def KeptValues (m : Metadata) : Prop :=
  ∀ (key : Text) (value : MetadataValue), m[key]? = some value → value.Kept

theorem map_stored_eq_iff : m.map (fun _ value => value.stored) = m ↔ KeptValues m := by
  constructor
  · intro hm key value hvalue
    have hkey := congrArg (·[key]?) hm
    simp only [Std.ExtTreeMap.getElem?_map, hvalue, Option.map_some] at hkey
    exact Option.some.inj hkey
  · intro hkept
    rw [← MetadataStore.metadataOf_boundRows]
    exact MetadataStore.metadataOf_boundRows_of_kept hkept

theorem insertedMetadata_eq_iff : insertedMetadata h id m = m ↔
    (m.isEmpty = true → h.metadataOf id = ∅) ∧ KeptValues m := by
  unfold insertedMetadata
  cases hm : m.isEmpty with
  | true =>
    have hempty := Std.ExtTreeMap.isEmpty_iff.mp hm
    subst hempty
    simp [KeptValues]
  | false => simp [map_stored_eq_iff]

theorem finishInsert_metadata (hpending : h.metadata.connection.pending = none)
    (hexec : exec (finishInsert env id m) h = (.ok (), h')) :
    h'.metadata.Everywhere (Has id (insertedMetadata h id m)) := by
  unfold insertedMetadata
  cases hm : m.isEmpty with
  | true =>
    simp only [finishInsert, hm, Bool.not_true, Bool.false_eq_true, if_false] at hexec
    cases hexec
    refine ⟨?_, fun t ht => ?_⟩
    · rw [Has, Handle.metadataOf, Connection.view, hpending]
      rfl
    · rw [hpending] at ht
      cases ht
  | false =>
    simp only [finishInsert, hm, Bool.not_false, if_true, exec_bind, exec_onDirectory,
      exec_onMetadata, exec_update] at hexec
    have hsees := MetadataStore.set_sees env.sql id m h.metadata rfl
    have hnone := MetadataStore.set_noPending env.sql id m h.metadata hpending
    rcases hset : exec (MetadataStore.set env.sql id m) h.metadata with ⟨r, s⟩
    rw [hset] at hexec hsees hnone
    cases r with
    | error e => cases hexec
    | ok u =>
      cases hexec
      have hrows : Has id (m.map fun _ value => value.stored) s.connection.view := by
        rw [Has, hsees, Tables.rows_replaceRows, if_pos rfl, MetadataStore.metadataOf_boundRows]
      rw [Connection.view, hnone] at hrows
      exact ⟨hrows, fun t ht => by rw [hnone] at ht; cases ht⟩

/-- What an `insert` that returns leaves under its id. -/
theorem insert_holding (hh : HandleSound False h) (hpending : h.metadata.connection.pending = none)
    (hexec : exec (insert p env id v m) h = (.ok (), h')) :
    h'.Holding id (VectorStore.storedForm p.toArithmetic h.db.store.normalizes v)
      (insertedMetadata h id m) := by
  cases hc : h.db.store.insertCheck id v with
  | error e =>
    rw [exec_insert_rejected p env hc] at hexec
    cases hexec
  | ok u =>
    obtain ⟨db, hg, hfinish⟩ := exec_insert_accepted p env (m := m) hh.database.store.consistent
      hh.database.index hc
    rw [hfinish] at hexec
    have hstore := (finishInsert_wrote env { h with db := db } id m).store
    rw [hexec] at hstore
    refine ⟨?_, finishInsert_metadata env (h := { h with db := db }) hpending hexec⟩
    rw [hstore, hg.store.get? hh.database.store.consistent (VectorStore.insertCheck_ok hc).1, if_pos rfl]

end Calls

section OneVector
variable {K : Type} [BEq K] [LT K] [DecidableLT K] (p : Platform K) {c : DatabaseConfig}
  {h₀ h₁ : Handle}

/-- After a crash the vector is gone and its rows are not. -/
theorem OneVector.reopened (h : OneVector p c id v m h₀ h₁) (hsized : c.Sized) :
    ∃ db d, exec (openDatabase p faultless) h₁.disk.directory = (.ok db, d) ∧
      db.config = c ∧ db.store.slotCount = 0 ∧ (∃ u, d.metadata.Holds u) ∧
      (Handle.mk d db).metadataOf id = insertedMetadata h₀ id m := by
  have hr₀ := h.made p (fun _ _ _ => True) hsized trivial
  have hsound : HandleSound False h₀ := reachable_sound p hr₀
  obtain ⟨made, hmade, hat₀⟩ := h.empty
  obtain ⟨grown, t, ht, -, hat⟩ := h.one
  have hholds := insert_holding p faultless hsound ht.1.pending h.insert
  have hfiles := h.sound.directory.files
  have htables := h.sound.directory.tables.committed
  rw [h.config] at hfiles htables
  obtain ⟨s, next, hstore, hheld, -, hopen⟩ := reopen_spec p faultless (d := h₁.disk) h.valid
    hsized hfiles htables
  have hvectors : h₁.disk.files.vectors = some (writeVectorFile made.store) := by
    rw [Directory.disk, hat.files.vectors, hat₀.files.vectors, Files.flushed_vectors]
  have hempty : s.slotCount = 0 := by
    rcases hheld with hheld | hnone
    · rw [hvectors] at hheld
      rw [← writeVectorFile_injective hmade.store.consistent hstore.consistent
        (Option.some.inj hheld)]
      exact hmade.slotCount
    · exact hnone.2
  obtain ⟨db, d, hexec, -, hd, ho, -⟩ := (hopen.conseq (fun _ h => h) (fun _ _ h => h)
    fun _ _ hf => hf.2.2 quiet_faultless).returns (s := h₁.disk.directory)
    ⟨.refl _, MetadataStore.holds_fresh _⟩
  refine ⟨db, d, hexec, ho.config, ho.store.symm ▸ hempty, ⟨_, hd⟩, ?_⟩
  show MetadataStore.metadataOf (d.metadata.connection.view.rows id) = _
  rw [hd.view, Tables.rows, metadata_withSchemaVersion]
  exact hholds.metadata.committed

end OneVector

/-- One entry that the table keeps as it is. -/
def oneEntry : Metadata := Std.ExtTreeMap.insert ∅ [0] .null

theorem oneEntry_keys : oneEntry.keys.any List.isEmpty = false := by
  simp [oneEntry]

theorem oneEntry_kept : KeptValues oneEntry := by
  intro key value hvalue
  simp only [oneEntry, Std.ExtTreeMap.getElem?_insert] at hvalue
  split at hvalue
  · cases hvalue
    rfl
  · simp at hvalue

end VectorDb.Db
