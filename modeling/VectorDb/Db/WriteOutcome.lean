import VectorDb.Db.Operations

/-!
What can be observed of a write: nothing of one that was rejected by its checks, all of
one that returned.
-/
set_option autoImplicit false

namespace VectorDb.Db

open VectorDb.Lib VectorDb.Storage VectorDb.Index Throwing

/-- Nothing that can be asked of a database is answered differently. -/
structure Unchanged (h h' : Handle) : Prop where
  contains : ∀ id, h'.db.store.contains id = h.db.store.contains id
  getVector : ∀ env : Environment, env.Quiet → ∀ id,
    (exec (getVector env id) h').1 = (exec (getVector env id) h).1
  size : h'.db.size = h.db.size
  allIds : h'.db.allIds = h.db.allIds
  nextAutoId : h'.db.nextAutoId = h.db.nextAutoId

/-- What is read of the metadata of an id. -/
def Handle.metadataOf (h : Handle) (id : VectorId) : Metadata :=
  MetadataStore.metadataOf (h.metadata.connection.view.rows id)

/-- `get` where the reading of the tables does not fail, whatever is open. -/
theorem getVector_answers {env : Environment} {h : Handle}
    (ha : env.sql.Answers (h.metadata.connection.stuck .selectByVector)) (id : VectorId) :
    (exec (getVector env id) h).1 = .ok ((h.db.store.find id).map fun slot =>
      ⟨id, h.db.store.vector slot, h.metadataOf id⟩) := by
  cases hfind : h.db.store.find id with
  | none => simp [getVector, exec_bind, hfind]
  | some slot =>
    have hget := MetadataStore.get_sees id h.metadata ha
    rcases hexec : exec (MetadataStore.get env.sql id) h.metadata with ⟨r, s⟩
    rw [hexec] at hget
    have hr : r = .ok (h.metadataOf id) := hget
    subst hr
    simp only [getVector, exec_bind, exec_get, hfind, exec_onDirectory, exec_onMetadata, hexec,
      exec_pure, Option.map_some]

/-- `get` where nothing fails. -/
theorem getVector_eq {env : Environment} (hq : env.Quiet) (h : Handle) (id : VectorId) :
    (exec (getVector env id) h).1 = .ok ((h.db.store.find id).map fun slot =>
      ⟨id, h.db.store.vector slot, h.metadataOf id⟩) :=
  getVector_answers (hq.1.answers _) id

section Rejected
variable {K : Type} [BEq K] [LT K] [DecidableLT K] (p : Platform K) (env : Environment)

/-- The calls that write. -/
def Operation.Writes : Operation → Prop
  | .insert _ _ _ | .insertAuto _ _ | .upsert _ _ _ | .remove _ | .setMetadata _ _ => True
  | _ => False

/-- The call is an `upsert` or a `set_metadata` of an id in use. -/
def Operation.SetsLive (h : Handle) : Operation → Prop
  | .upsert id _ _ | .setMetadata id _ => h.db.store.contains id = true
  | _ => False

/-- Where the call throws, its checks have rejected it, or what it changed before it
threw cannot be seen. -/
def Operation.Harmless (h : Handle) : Operation → Prop
  | .insert id v _ => h.db.store.insertCheck id v ≠ .ok ()
  | .insertAuto v _ => h.db.store.insertCheck h.db.nextAutoId v ≠ .ok ()
  | .upsert id v _ =>
    match h.db.store.find id with
    | none => h.db.store.insertCheck id v ≠ .ok ()
    | some slot => validateVector v h.db.store.dimension ≠ .ok () ∨
        VectorStore.storedForm p.toArithmetic h.db.store.normalizes v = h.db.store.vector slot
  | .remove id => h.db.store.contains id = false
  | _ => True

theorem Unchanged.refl (h : Handle) : Unchanged h h :=
  ⟨fun _ => rfl, fun _ _ _ => rfl, rfl, rfl, rfl⟩

theorem unchanged_of_rolledBack {h h' : Handle} (hdb : h'.db = h.db)
    (hview : h'.metadata.connection.view = h.metadata.connection.view) : Unchanged h h' := by
  refine ⟨fun id => by rw [hdb], fun env hq id => ?_, by rw [hdb], by rw [hdb], by rw [hdb]⟩
  rw [getVector_eq hq, getVector_eq hq, hdb, Handle.metadataOf, hview, Handle.metadataOf]

/-- The same vector written again cannot be told from the old one. -/
theorem unchanged_of_assigned {h h' : Handle} {s : VectorStore} {slot : LocalId}
    {row : FloatVector} {norm : BitVec 32}
    (hs : VectorStore.Assigned h.db.store s slot row norm) (hslot : slot < h.db.store.slotCount)
    (hrow : row = h.db.store.vector slot) (hdb : h'.db = { h.db with store := s })
    (hview : h'.metadata.connection.view = h.metadata.connection.view) : Unchanged h h' := by
  have hstore : h'.db.store = s := by rw [hdb]
  have hlive : s.isLive = h.db.store.isLive := by
    funext l
    rw [VectorStore.isLive, hs.live]
    rfl
  have hids : s.vectorId = h.db.store.vectorId := by
    funext l
    rw [VectorStore.vectorId, hs.ids]
    rfl
  refine ⟨fun id => ?_, fun env hq id => ?_, ?_, ?_, by rw [hdb]⟩
  · rw [hstore, VectorStore.contains, hs.find, VectorStore.contains]
  · rw [getVector_eq hq, getVector_eq hq, hstore, hs.find]
    refine congrArg Except.ok (Option.map_congr fun l _ => ?_)
    rw [hs.vector hslot, Handle.metadataOf, hview, Handle.metadataOf]
    by_cases hl : l = slot
    · rw [if_pos hl, hl, hrow]
    · rw [if_neg hl]
  · rw [Database.size, hstore, hs.liveCount, Database.size]
  · rw [Database.allIds, hstore, hs.slotCount, hlive, hids, Database.allIds]

/-- A `set` that throws, where nothing was open and the transaction can be ended. -/
theorem set_thrown {f : Files} {t : Tables} {db : Database}
    (hends : MetadataStore.EndsSucceed env.sql) (id : VectorId) (m : Metadata) :
    Triple (At f t db) (onDirectory (onMetadata (MetadataStore.set env.sql id m)))
      (fun _ _ => True) (fun _ g => g.db = db ∧ g.metadata.connection.view = t) :=
  (onMetadata_at (MetadataStore.set_rolledBack hends id m)).conseq (fun _ h => h)
    (fun _ _ _ => trivial) fun _ _ h => ⟨h.2.2, h.2.1.view⟩

theorem finishUpsert_thrown {f : Files} {t : Tables} {db : Database}
    (hends : MetadataStore.EndsSucceed env.sql) (id : VectorId) (m : Metadata) :
    Triple (At f t db) (finishUpsert env id m) (fun _ _ => True)
      (fun _ g => g.db = db ∧ g.metadata.connection.view = t) :=
  Triple.bind (set_thrown env hends id m) fun _ _ _ => trivial

theorem finishSetMetadata_thrown {f : Files} {t : Tables} {db : Database}
    (hends : MetadataStore.EndsSucceed env.sql) (id : VectorId) (m : Metadata) :
    Triple (At f t db) (finishSetMetadata env id m) (fun _ _ => True)
      (fun _ g => g.db = db ∧ g.metadata.connection.view = t) :=
  Triple.bind (set_thrown env hends id m) fun _ _ _ => trivial

variable {h h' : Handle} {id : VectorId} {v : FloatVector} {m : Metadata} {e : Error}

/-- An `insert` that throws is not seen if and only if its checks rejected it. -/
theorem insert_thrown_iff (hh : HandleSound False h)
    (hthrow : exec (insert p env id v m) h = (.error e, h')) :
    Unchanged h h' ↔ h.db.store.insertCheck id v ≠ .ok () := by
  cases hc : h.db.store.insertCheck id v with
  | error d =>
    rw [exec_insert_rejected p env hc] at hthrow
    cases hthrow
    exact ⟨fun _ => nofun, fun _ => .refl h⟩
  | ok u =>
    obtain ⟨db, hg, hexec⟩ := exec_insert_accepted p env (m := m) hh.database.store.consistent
      hh.database.index hc
    rw [hexec] at hthrow
    have hstore := (finishInsert_wrote env { h with db := db } id m).store
    rw [hthrow] at hstore
    have hnew := (VectorStore.insertCheck_ok hc).1
    refine ⟨fun hsame => ?_, fun hno => absurd rfl hno⟩
    have hcontains := hsame.contains id
    rw [hstore, hnew, VectorStore.contains, hg.store.find fun _ => hnew, if_pos ⟨rfl, rfl⟩]
      at hcontains
    cases hcontains

theorem upsert_thrown_iff (hh : HandleSound False h)
    (hset : h.db.store.contains id = true →
      h.metadata.Closed ∧ MetadataStore.EndsSucceed env.sql)
    (hthrow : exec (upsert p env id v m) h = (.error e, h')) :
    Unchanged h h' ↔ (Operation.upsert id v m).Harmless p h := by
  cases hfind : h.db.store.find id with
  | none =>
    rw [exec_upsert_new p env (by simp [VectorStore.contains, hfind])] at hthrow
    simp only [Operation.Harmless, hfind]
    exact insert_thrown_iff p env hh hthrow
  | some slot =>
    have hcontains : h.db.store.contains id = true := by simp [VectorStore.contains, hfind]
    obtain ⟨hclosed, hends⟩ := hset hcontains
    have hslot := ((hh.database.store.consistent.find_iff id slot).mp hfind).1
    simp only [Operation.Harmless, hfind]
    cases hv : validateVector v h.db.store.dimension with
    | error d =>
      rw [exec_upsert_rejected p env hcontains hv] at hthrow
      cases hthrow
      exact ⟨fun _ => .inl (fun he => by cases he), fun _ => .refl h⟩
    | ok u =>
      obtain ⟨s, hs, hexec⟩ := exec_upsert_accepted p env (m := m) hh.database.store.consistent
        hfind hv
      rw [hexec] at hthrow
      have ht : h.metadata.Holds h.metadata.connection.committed := ⟨hclosed, rfl⟩
      have hthrown := finishUpsert_thrown env hends id m _ (at_of_holds ht { h.db with store := s })
      rw [hthrow] at hthrown
      constructor
      · intro hsame
        have hget := hsame.getVector faultless quiet_faultless id
        rw [getVector_eq quiet_faultless, getVector_eq quiet_faultless, hthrown.1, hs.find, hfind]
          at hget
        have hvector := (StoredVector.mk.inj (Option.some.inj (Except.ok.inj hget))).2.1
        rw [hs.vector hslot, if_pos rfl] at hvector
        exact .inr hvector
      · rintro (hno | hrow)
        · exact absurd rfl hno
        · exact unchanged_of_assigned hs hslot hrow hthrown.1 (hthrown.2.trans ht.view.symm)

theorem remove_thrown_iff
    (hthrow : exec (remove env id) h = (.error e, h')) :
    Unchanged h h' ↔ h.db.store.contains id = false := by
  cases hfind : h.db.store.find id with
  | none =>
    rw [exec_remove_absent env hfind] at hthrow
    cases hthrow
  | some slot =>
    have hcontains : h.db.store.contains id = true := by simp [VectorStore.contains, hfind]
    obtain ⟨s, hs, hexec⟩ := exec_remove_present env hfind
    rw [hexec] at hthrow
    have hstore := (finishRemove_wrote env
      { h with db := { h.db with store := s, index := h.db.index.remove slot } } id).store
    rw [hthrow] at hstore
    refine ⟨fun hsame => ?_, fun hno => ?_⟩
    · have hgone := hsame.contains id
      rw [hstore, hcontains, VectorStore.contains, hs.find, if_pos rfl] at hgone
      cases hgone
    · rw [hcontains] at hno
      cases hno

theorem setMetadata_thrown
    (hset : h.db.store.contains id = true →
      h.metadata.Closed ∧ MetadataStore.EndsSucceed env.sql)
    (hthrow : exec (setMetadata env id m) h = (.error e, h')) : Unchanged h h' := by
  cases hc : h.db.store.contains id with
  | false =>
    rw [exec_setMetadata_absent env hc] at hthrow
    cases hthrow
    exact .refl h
  | true =>
    obtain ⟨hclosed, hends⟩ := hset hc
    rw [exec_setMetadata_present env hc] at hthrow
    have ht : h.metadata.Holds h.metadata.connection.committed := ⟨hclosed, rfl⟩
    have hthrown := finishSetMetadata_thrown env hends id m _ (at_of_holds ht h.db)
    rw [hthrow] at hthrown
    exact unchanged_of_rolledBack hthrown.1 (hthrown.2.trans ht.view.symm)

/-- A write that throws has changed nothing that can be seen, if and only if it was
rejected by its checks, or set metadata only. -/
theorem thrown_write_unchanged_iff (hr : (runs p fun _ _ _ => True).Reachable (.opened h))
    {op : Operation} (hwrites : op.Writes)
    (hset : op.SetsLive h → h.metadata.Closed ∧ MetadataStore.EndsSucceed env.sql)
    (hthrow : exec (op.run p env) h = (.error e, h')) : Unchanged h h' ↔ op.Harmless p h := by
  have hh : HandleSound False h := reachable_sound p hr
  cases op with
  | insert id v m => exact insert_thrown_iff p env hh hthrow
  | insertAuto v m =>
    rw [Operation.run_insertAuto] at hthrow
    exact insert_thrown_iff p env hh hthrow
  | upsert id v m => exact upsert_thrown_iff p env hh hset hthrow
  | remove id =>
    rw [Operation.run, exec_bind] at hthrow
    rcases hexec : exec (Db.remove env id) h with ⟨r, g⟩
    rw [hexec] at hthrow
    cases r with
    | ok u => cases hthrow
    | error d =>
      cases hthrow
      exact remove_thrown_iff env hexec
  | setMetadata id m => exact ⟨fun _ => trivial, fun _ => setMetadata_thrown env hset hthrow⟩
  | _ => exact hwrites.elim

end Rejected

/-- Metadata that is rejected only once the vector is stored. -/
def emptyKey : Metadata := Std.ExtTreeMap.insert ∅ [] .null

theorem emptyKey_rejected : emptyKey.keys.any List.isEmpty = true := by
  simp [emptyKey]

theorem exec_finishInsert_emptyKey (env : Environment) (id : VectorId) (h : Handle) :
    exec (finishInsert env id emptyKey) h =
      (.error (.invalidArgument "metadata keys must not be empty"), h) := by
  have hnonempty : emptyKey.isEmpty = false := by simp [emptyKey]
  simp [finishInsert, hnonempty, exec_bind, MetadataStore.exec_set_rejected _ emptyKey_rejected]

theorem thrown_insert_is_seen :
    ¬ ∀ (env : Environment) (h h' : Handle) (op : Operation) (e : Error),
      (runs unitPlatform fun _ _ _ => True).Reachable (.opened h) → op.Writes →
      exec (op.run unitPlatform env) h = (.error e, h') → Unchanged h h' := by
  intro hclaim
  obtain ⟨h₀, h₁, hone⟩ := exists_unitVector ∅ (by simp)
  have hr := hone.made unitPlatform (fun _ _ _ => True) unitConfig_sized trivial
  have hh : HandleSound False h₀ := reachable_sound unitPlatform hr
  obtain ⟨made, hmade, hat⟩ := hone.empty
  have hstore : h₀.db.store = made.store := by rw [hat.db]
  have hcheck : h₀.db.store.insertCheck 0 [Component.one] = .ok () := by
    refine insertCheck_empty hh.database.store.consistent (hstore ▸ hmade.slotCount) ?_
    rw [hstore, hmade.store.dimension]
    decide
  obtain ⟨db, hg, hexec⟩ := exec_insert_accepted unitPlatform faultless (m := emptyKey)
    hh.database.store.consistent hh.database.index hcheck
  rw [exec_finishInsert_emptyKey] at hexec
  have hsame := hclaim faultless h₀ _ (.insert 0 [Component.one] emptyKey) _ hr trivial hexec
  have hcontains := hsame.contains 0
  have hnew := (VectorStore.insertCheck_ok hcheck).1
  rw [hnew, VectorStore.contains, hg.store.find fun _ => hnew, if_pos ⟨rfl, rfl⟩] at hcontains
  cases hcontains

/-- A vector of another length is rejected, and the one in use stays. -/
theorem thrown_write_unchanged_one_vector :
    ∃ (h h' : Handle) (e : Error), (runs unitPlatform fun _ _ _ => True).Reachable (.opened h) ∧
      exec (upsert unitPlatform faultless 0 [] ∅) h = (.error e, h') ∧ Unchanged h h' := by
  obtain ⟨h₀, h₁, hone⟩ := exists_unitVector ∅ (by simp)
  have hr := hone.reachable unitPlatform (fun _ _ _ => True) unitConfig_sized trivial trivial
  obtain ⟨grown, t, -, -, hat⟩ := hone.one
  have hh : HandleSound False h₁ := reachable_sound unitPlatform hr
  have hdimension : h₁.db.store.dimension = 1 := by
    rw [hh.database.store.dimension, hone.config]
    rfl
  have hcontains : h₁.db.store.contains 0 = true := by simp [VectorStore.contains, hone.find]
  have hreject : validateVector [] h₁.db.store.dimension =
      .error (.dimensionMismatch 1 0) := by
    rw [hdimension]
    decide
  have hthrow := exec_upsert_rejected unitPlatform faultless (m := ∅) hcontains hreject
  have hiff : Unchanged h₁ h₁ ↔ (Operation.upsert 0 [] ∅).Harmless unitPlatform h₁ :=
    thrown_write_unchanged_iff unitPlatform faultless hr trivial
      (fun _ => ⟨hat.tables.1, fun _ => ⟨rfl, rfl⟩⟩) hthrow
  refine ⟨h₁, h₁, _, hr, hthrow, hiff.mpr ?_⟩
  simp only [Operation.Harmless, hone.find, hreject]
  exact .inl fun he => by cases he

end VectorDb.Db
