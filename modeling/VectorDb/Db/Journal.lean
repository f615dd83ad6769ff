import VectorDb.Db.Orphans
import VectorDb.Db.ExactSearch
import VectorDb.Db.ReadBack
import VectorDb.Storage.VectorLoad

/-!
What the calls of all processes so far have made of a database, where processes may die between
two calls: the vectors and the counter fall back to what was saved last, the metadata do not.
-/
set_option autoImplicit false

namespace VectorDb.Db

open VectorDb.Lib VectorDb.Storage Throwing

/-- The vectors as they were given, the next automatic id, and how many slots are unused. -/
structure Contents where
  vectors : VectorId → Option FloatVector
  next : VectorId
  tombstones : Nat

structure Journal where
  live : Contents
  saved : Contents
  metadata : VectorId → Metadata

def Contents.empty : Contents := ⟨fun _ => none, 0, 0⟩

def Contents.put (c : Contents) (id : VectorId) (v : FloatVector) : Contents :=
  { c with vectors := Function.update c.vectors id (some v) }

def Contents.insert (c : Contents) (id : VectorId) (v : FloatVector) : Contents :=
  { c.put id v with next := advance c.next id }

def Contents.remove (c : Contents) (id : VectorId) : Contents :=
  ⟨Function.update c.vectors id none, c.next, c.tombstones + 1⟩

def Journal.empty : Journal := ⟨.empty, .empty, fun _ => ∅⟩

def Journal.setMetadata (j : Journal) (id : VectorId) (m : Metadata) : Journal :=
  { j with metadata := Function.update j.metadata id m }

/-- Metadata that are empty leave the rows of an earlier vector in place. -/
def Journal.insert (j : Journal) (id : VectorId) (v : FloatVector) (m : Metadata) : Journal :=
  let j := { j with live := j.live.insert id v }
  if m.isEmpty then j else j.setMetadata id m

def Journal.flush (j : Journal) : Journal := { j with saved := j.live }

/-- What a call that returns makes of a journal. -/
def Journal.after (j : Journal) : Operation → Journal
  | .insert id v m => j.insert id v m
  | .insertAuto v m => j.insert j.live.next v m
  | .upsert id v m =>
    if (j.live.vectors id).isSome then
      { j with live := j.live.put id v }.setMetadata id m
    else j.insert id v m
  | .remove id =>
    if (j.live.vectors id).isSome then
      { j with live := j.live.remove id }.setMetadata id ∅
    else j
  | .setMetadata id m => j.setMetadata id m
  | .getVector _ | .search _ _ | .stats => j
  | .rebuildIndex | .flush => j.flush
  | .compact =>
    if j.live.tombstones = 0 then j
    else { j with live := { j.live with tombstones := 0 } }.flush

def Journal.afterEvent (j : Journal) : Event → State → Journal
  | .create _ _, .absent => .empty
  | .call op, .opened _ => j.after op
  | .crash, .opened _ => { j with live := j.saved }
  | .close, .opened _ => j.flush
  | _, _ => j

section Fields
variable {c : Contents} {j : Journal} {id i : VectorId} {v : FloatVector} {m : Metadata}

@[simp] theorem Contents.vectors_put :
    (c.put id v).vectors i = if i = id then some v else c.vectors i :=
  Function.update_apply ..

@[simp] theorem Contents.vectors_insert :
    (c.insert id v).vectors i = if i = id then some v else c.vectors i :=
  Function.update_apply ..

@[simp] theorem Contents.vectors_remove :
    (c.remove id).vectors i = if i = id then none else c.vectors i :=
  Function.update_apply ..

@[simp] theorem Contents.tombstones_remove : (c.remove id).tombstones = c.tombstones + 1 := rfl

@[simp] theorem Journal.live_insert : (j.insert id v m).live = j.live.insert id v := by
  unfold insert setMetadata
  split <;> rfl

@[simp] theorem Journal.saved_insert : (j.insert id v m).saved = j.saved := by
  unfold insert setMetadata
  split <;> rfl

end Fields

section Journal
variable {K : Type} [BEq K] [LT K] [DecidableLT K] (p : Platform K)

/-- The call returns, or the process dies between two calls. -/
def Event.SucceedsOrCrashes (event : Event) (env : Environment) (s : State) : Prop :=
  event = .crash ∨ event.Succeeds p env s

/-- A store and a counter have these contents. -/
structure Contents.Of (c : Contents) (s : VectorStore) (next : VectorId) : Prop where
  consistent : s.Consistent
  vectors : ∀ id, s.get? id =
    (c.vectors id).map fun v => VectorStore.storedForm p.toArithmetic s.normalizes v
  next : next = c.next
  tombstones : s.tombstoneCount = c.tombstones

/-- The rows of the tables are those of the metadata. -/
def HasRows (metadata : VectorId → Metadata) (t : Tables) : Prop :=
  ∀ id, t.rows id = boundRows (metadata id)

/-- vectors.bin and the counter in the tables have what was saved. -/
def SavedIn (c : Contents) (f : Files) (t : Tables) (s : VectorStore) (next : VectorId) : Prop :=
  f.vectors = some (writeVectorFile s) ∧ t.schemaInfo[kKeyNextId]? = some (toString next.val) ∧
    c.Of p s next

/-- A handle carries a journal. What is not dirty is what was saved. -/
structure Carries (j : Journal) (f : Files) (t : Tables) (db : Database) : Prop where
  live : j.live.Of p db.store db.nextAutoId
  rows : HasRows j.metadata t
  saved : ∃ s next, SavedIn p j.saved f t s next ∧
    (db.dirty = false → s = db.store ∧ next = db.nextAutoId)

def Handle.Carries (j : Journal) (h : Handle) : Prop :=
  ∃ t, h.metadata.Holds t ∧ Db.Carries p j h.files t h.db

/-- Between two processes, only what was saved is left. -/
def Disk.Carries (j : Journal) (d : Disk) : Prop :=
  j.live = j.saved ∧ HasRows j.metadata d.tables ∧
    ∃ s next, SavedIn p j.saved d.files d.tables s next

def State.Carries (j : Journal) : State → Prop
  | .absent => True
  | .closed d => d.Carries p j
  | .opened h => h.Carries p j

variable {p} {c : Contents} {s s' : VectorStore} {next : VectorId} {id : VectorId}
  {v : FloatVector} {j : Journal} {t : Tables}

theorem Contents.Of.contains (h : c.Of p s next) (id : VectorId) :
    s.contains id = (c.vectors id).isSome := by
  rw [VectorStore.contains_eq_get?, h.vectors, Option.isSome_map]

/-- One vector has changed, and no slot has become free. -/
theorem Contents.Of.put (h : c.Of p s next) (hs : s'.Consistent)
    (hnorm : s'.normalizes = s.normalizes) (htomb : s'.tombstoneCount = s.tombstoneCount)
    (hget : ∀ i, s'.get? i =
      if i = id then some (VectorStore.storedForm p.toArithmetic s.normalizes v) else s.get? i) :
    (c.put id v).Of p s' next := by
  refine ⟨hs, fun i => ?_, h.next, htomb.trans h.tombstones⟩
  rw [hget, Contents.vectors_put, hnorm]
  split
  · rfl
  · exact h.vectors i

theorem Contents.Of.appended (h : c.Of p s next) (hnew : s.contains id = false)
    (ha : VectorStore.Appended s s' id (VectorStore.storedForm p.toArithmetic s.normalizes v)
      (VectorStore.storedNorm p.toArithmetic s.normalizes v) true) :
    (c.insert id v).Of p s' (advance next id) := by
  have htomb : s'.tombstoneCount = s.tombstoneCount := by
    rw [VectorStore.tombstoneCount, ha.slotCount, ha.liveCount, if_pos rfl,
      VectorStore.tombstoneCount, Nat.add_sub_add_right]
  have hput := h.put (ha.consistent h.consistent fun _ => hnew) ha.normalizes htomb
    (ha.get? h.consistent hnew)
  exact ⟨hput.consistent, hput.vectors, by rw [h.next]; rfl, hput.tombstones⟩

theorem Contents.Of.assigned (h : c.Of p s next) {slot : LocalId} (hfind : s.find id = some slot)
    (ha : VectorStore.Assigned s s' slot (VectorStore.storedForm p.toArithmetic s.normalizes v)
      (VectorStore.storedNorm p.toArithmetic s.normalizes v)) :
    (c.put id v).Of p s' next := by
  have htomb : s'.tombstoneCount = s.tombstoneCount := by
    rw [VectorStore.tombstoneCount, ha.slotCount, ha.liveCount, VectorStore.tombstoneCount]
  exact h.put (ha.consistent h.consistent) ha.normalizes htomb (ha.get? h.consistent hfind)

theorem Contents.Of.removed (h : c.Of p s next) {slot : LocalId} (hfind : s.find id = some slot)
    (hr : VectorStore.Removed s s' id slot) : (c.remove id).Of p s' next := by
  refine ⟨hr.consistent h.consistent hfind, fun i => ?_, h.next, ?_⟩
  · rw [hr.get?, Contents.vectors_remove, hr.normalizes]
    split
    · rfl
    · exact h.vectors i
  · have hpos := VectorStore.Removed.liveCount_pos h.consistent hfind
    have hle := h.consistent.liveCount_le
    have htomb := h.tombstones
    rw [VectorStore.tombstoneCount] at htomb
    rw [VectorStore.tombstoneCount, hr.slotCount, hr.liveCount, Contents.tombstones_remove, ← htomb]
    omega

theorem Contents.Of.compacted (h : c.Of p s next) (hc : Compacted s s' s.slotCount) :
    Contents.Of p { c with tombstones := 0 } s' next := by
  refine ⟨hc.consistent, fun i => ?_, h.next, ?_⟩
  · rw [hc.get? h.consistent, h.vectors, hc.normalizes]
  · rw [VectorStore.tombstoneCount, hc.liveCount, Nat.sub_self]

variable {metadata : VectorId → Metadata} {m : Metadata}

theorem HasRows.replaced (h : HasRows metadata t) :
    HasRows (Function.update metadata id m) (t.replaceRows id m.toList) := by
  intro i
  rw [Tables.rows_replaceRows, Function.update_apply]
  split
  · rfl
  · exact h i

theorem HasRows.removed (h : HasRows metadata t) {u : Tables} (hu : RowsRemoved t u id) :
    HasRows (Function.update metadata id ∅) u := by
  intro i
  rw [hu.rows, Function.update_apply]
  split
  · rw [boundRows_of_isEmpty Std.ExtTreeMap.isEmpty_empty]
  · exact h i

theorem HasRows.inserted (h : HasRows j.metadata t) :
    HasRows (j.insert id v m).metadata (insertedTables t id m) := by
  unfold Journal.insert insertedTables
  by_cases hm : m.isEmpty
  · rw [if_pos hm, if_pos hm]
    exact h
  · rw [if_neg hm, if_neg hm]
    exact h.replaced

/-- What changes the memory makes it dirty; what was saved stays. -/
theorem Carries.dirtied {f : Files} {t u : Tables} {db e : Database} {k : Journal}
    (h : Carries p j f t db) (hsaved : k.saved = j.saved) (hschema : u.schemaInfo = t.schemaInfo)
    (hlive : k.live.Of p e.store e.nextAutoId) (hrows : HasRows k.metadata u)
    (hdirty : e.dirty = true) : Carries p k f u e := by
  obtain ⟨s, next, ⟨hvectors, hnext, hcontents⟩, -⟩ := h.saved
  refine ⟨hlive, hrows, s, next, ⟨hvectors, by rw [hschema]; exact hnext, ?_⟩, fun hclean => ?_⟩
  · rw [hsaved]
    exact hcontents
  · rw [hdirty] at hclean
    cases hclean

/-- After a flush everything is saved. -/
theorem Carries.flushed {f : Files} {t : Tables} {db : Database} {live : Contents}
    (hlive : live.Of p db.store db.nextAutoId) (hrows : HasRows j.metadata t) :
    Carries p { j with live := live }.flush (f.flushed db)
      (t.setConfigValue kKeyNextId (toString db.nextAutoId.val)) { db with dirty := false } := by
  refine ⟨hlive, hrows, db.store, db.nextAutoId, ⟨f.flushed_vectors db, ?_, hlive⟩,
    fun _ => ⟨rfl, rfl⟩⟩
  rw [getElem?_setConfigValue, if_pos rfl]

theorem At.carries {g : Handle} {f : Files} {db : Database} (hg : At f t db g)
    (h : Carries p j f t db) : g.Carries p j := by
  obtain ⟨s, next, ⟨hvectors, hnext, hcontents⟩, hclean⟩ := h.saved
  refine ⟨t, hg.tables, ?_⟩
  rw [hg.db]
  exact ⟨h.live, h.rows, s, next, ⟨hg.files.vectors.trans hvectors, hnext, hcontents⟩, hclean⟩

end Journal

section Operations
variable {K : Type} [BEq K] [LT K] [DecidableLT K] (p : Platform K) (env : Environment)

/-- In order, and with this journal. -/
def Handle.Faithful (j : Journal) (h : Handle) : Prop := HandleSound False h ∧ h.Carries p j

variable (j : Journal)

theorem insert_carries (id : VectorId) (v : FloatVector) (m : Metadata) :
    Triple (Handle.Faithful p j) (insert p env id v m)
      (fun _ => Handle.Carries p (j.insert id v m)) (fun _ _ => True) := by
  rintro h ⟨hh, t, ht, hc⟩
  have hs := hh.database.store.consistent
  cases hcheck : h.db.store.insertCheck id v with
  | error e =>
    rw [exec_insert_rejected p env hcheck]
    trivial
  | ok u =>
    obtain ⟨db, hgrown, hexec⟩ := exec_insert_accepted p env (m := m) hs hh.database.index hcheck
    have hnext : db.nextAutoId = h.db.nextAutoId := by rw [hgrown.rest]
    have hlive := hc.live.appended (VectorStore.insertCheck_ok hcheck).1 hgrown.store
    have hschema : (insertedTables t id m).schemaInfo = t.schemaInfo := by
      unfold insertedTables
      split
      · rfl
      · exact Tables.replaceRows_schemaInfo ..
    rw [hexec]
    refine (finishInsert_spec env id m).conseq (fun _ h => h)
      (fun _ g hg => hg.carries (hc.dirtied Journal.saved_insert hschema ?_ hc.rows.inserted rfl))
      (fun _ _ _ => trivial) _ (at_of_holds ht db)
    rw [Journal.live_insert]
    show Contents.Of p _ db.store (advance db.nextAutoId id)
    rw [hnext]
    exact hlive

theorem upsert_carries (id : VectorId) (v : FloatVector) (m : Metadata) :
    Triple (Handle.Faithful p j) (upsert p env id v m)
      (fun _ => Handle.Carries p (j.after (.upsert id v m))) (fun _ _ => True) := by
  rintro h ⟨hh, t, ht, hc⟩
  have hs := hh.database.store.consistent
  have hcontains := hc.live.contains id
  rw [VectorStore.contains] at hcontains
  cases hfind : h.db.store.find id with
  | none =>
    rw [hfind, Option.isSome_none] at hcontains
    rw [exec_upsert_new p env (by simp [VectorStore.contains, hfind]), Journal.after, ← hcontains,
      if_neg (by simp)]
    exact insert_carries p env j id v m h ⟨hh, t, ht, hc⟩
  | some slot =>
    rw [hfind, Option.isSome_some] at hcontains
    rw [Journal.after, ← hcontains, if_pos rfl]
    cases hv : validateVector v h.db.store.dimension with
    | error e =>
      rw [exec_upsert_rejected p env (by simp [VectorStore.contains, hfind]) hv]
      trivial
    | ok u =>
      obtain ⟨s, hassigned, hexec⟩ := exec_upsert_accepted p env (m := m) hs hfind hv
      rw [hexec]
      refine (finishUpsert_spec env id m).conseq (fun _ h => h) (fun _ g hg => hg.carries ?_)
        (fun _ _ _ => trivial) _ (at_of_holds ht _)
      exact hc.dirtied rfl (Tables.replaceRows_schemaInfo ..) (hc.live.assigned hfind hassigned)
        hc.rows.replaced rfl

theorem remove_carries (id : VectorId) :
    Triple (Handle.Faithful p j) (remove env id)
      (fun _ => Handle.Carries p (j.after (.remove id))) (fun _ _ => True) := by
  rintro h ⟨hh, t, ht, hc⟩
  have hcontains := hc.live.contains id
  rw [VectorStore.contains] at hcontains
  cases hfind : h.db.store.find id with
  | none =>
    rw [hfind, Option.isSome_none] at hcontains
    rw [exec_remove_absent env hfind, Journal.after, ← hcontains, if_neg (by simp)]
    exact ⟨t, ht, hc⟩
  | some slot =>
    rw [hfind, Option.isSome_some] at hcontains
    obtain ⟨s, hremoved, hexec⟩ := exec_remove_present env hfind
    rw [hexec, Journal.after, ← hcontains, if_pos rfl]
    refine (finishRemove_spec env id).conseq (fun _ h => h) ?_ (fun _ _ _ => trivial) _
      (at_of_holds ht _)
    rintro _ g ⟨-, u, hu, hg⟩
    exact hg.carries (hc.dirtied rfl hu.schemaInfo (hc.live.removed hfind hremoved)
      (hc.rows.removed hu) rfl)

/-- `set_metadata` does not make a database dirty: what is in the tables is saved. -/
theorem setMetadata_carries (id : VectorId) (m : Metadata) :
    Triple (Handle.Faithful p j) (setMetadata env id m)
      (fun _ => Handle.Carries p (j.setMetadata id m)) (fun _ _ => True) := by
  rintro h ⟨hh, t, ht, hc⟩
  cases hcontains : h.db.store.contains id with
  | false =>
    rw [exec_setMetadata_absent env hcontains]
    trivial
  | true =>
    rw [exec_setMetadata_present env hcontains]
    refine (finishSetMetadata_spec env id m).conseq (fun _ h => h) (fun _ g hg => hg.carries ?_)
      (fun _ _ _ => trivial) h (at_of_holds ht h.db)
    obtain ⟨s, next, ⟨hvectors, hnext, hcontents⟩, hclean⟩ := hc.saved
    refine ⟨hc.live, hc.rows.replaced, s, next, ⟨hvectors, ?_, hcontents⟩, hclean⟩
    rw [Tables.replaceRows_schemaInfo]
    exact hnext

theorem OnlyReads.carries {α : Type} {x : Call α} (hx : OnlyReads x) :
    Triple (Handle.Faithful p j) x (fun _ => Handle.Carries p j) (fun _ _ => True) := by
  rintro h ⟨-, t, ht, hc⟩
  obtain ⟨n, hn⟩ := hx h h h.ticked_refl
  rcases hexec : exec x h with ⟨r, g⟩
  rw [hexec] at hn
  obtain rfl : g = h.ticked n := hn
  cases r with
  | error e => trivial
  | ok a => exact ⟨t, ⟨⟨ht.1.1, ht.1.2, ht.1.3⟩, ht.2⟩, hc⟩

theorem flush_carries :
    Triple (Handle.Faithful p j) (flush env) (fun _ => Handle.Carries p j.flush)
      (fun _ _ => True) := by
  rintro h ⟨-, t, ht, hc⟩
  cases hd : h.db.dirty with
  | false =>
    obtain ⟨s, next, ⟨hvectors, hnext, -⟩, hclean⟩ := hc.saved
    obtain ⟨rfl, rfl⟩ := hclean hd
    rw [exec_flush, hd, if_neg (by simp)]
    exact ⟨t, ht, hc.live, hc.rows, _, _, ⟨hvectors, hnext, hc.live⟩, fun _ => ⟨rfl, rfl⟩⟩
  | true =>
    exact (flush_spec env hd).conseq (fun _ h => h)
      (fun _ g hg => hg.carries (Carries.flushed hc.live hc.rows)) (fun _ _ _ => trivial) h
      (at_of_holds ht h.db)

theorem finishRebuild_carries {α : Type} {f : Files} {t : Tables} {db : Database}
    {live : Contents} (hlive : live.Of p db.store db.nextAutoId) (hrows : HasRows j.metadata t)
    (result : α) :
    Triple (At f t db) (finishRebuild env result)
      (fun _ => Handle.Carries p { j with live := live }.flush) (fun _ _ => True) :=
  (finishRebuild_spec env result).conseq (fun _ h => h)
    (fun _ _ hg => hg.2.carries (Carries.flushed hlive hrows)) fun _ _ _ => trivial

theorem rebuildIndex_carries :
    Triple (Handle.Faithful p j) (rebuildIndex p env) (fun _ => Handle.Carries p j.flush)
      (fun _ _ => True) := by
  rintro h ⟨hh, t, ht, hc⟩
  obtain ⟨built, -, hexec⟩ := exec_rebuildIndex p env hh.database.valid hh.database.store.consistent
  rw [hexec]
  refine finishRebuild_carries p env j ?_ hc.rows () _ (at_of_holds ht _)
  exact hc.live

theorem compact_carries :
    Triple (Handle.Faithful p j) (compact p env) (fun _ => Handle.Carries p (j.after .compact))
      (fun _ _ => True) := by
  rintro h ⟨hh, t, ht, hc⟩
  rw [Journal.after, ← hc.live.tombstones]
  by_cases hzero : h.db.store.tombstoneCount = 0
  · rw [exec_compact_none p env hzero, if_pos hzero]
    exact ⟨t, ht, hc⟩
  · have hs := hh.database.store
    obtain ⟨s, built, hcompacted, -, hexec⟩ := exec_compact_some p env hh.database.valid
      hs.consistent hs.dimension hs.normalizes hzero
    rw [hexec, if_neg hzero]
    refine finishRebuild_carries p env j ?_ hc.rows _ _ (at_of_holds ht _)
    exact hc.live.compacted hcompacted

/-- What a call that returns has done is what its journal says. -/
theorem Operation.run_carries (op : Operation) :
    Triple (Handle.Faithful p j) (op.run p env) (fun _ => Handle.Carries p (j.after op))
      (fun _ _ => True) := by
  cases op with
  | insert id v m => exact insert_carries p env j id v m
  | insertAuto v m =>
    rintro h ⟨hh, t, ht, hc⟩
    rw [run_insertAuto, hc.live.next]
    exact insert_carries p env j j.live.next v m h ⟨hh, t, ht, hc⟩
  | upsert id v m => exact upsert_carries p env j id v m
  | remove id => exact Triple.bind (remove_carries p env j id) fun _ => Triple.pure fun _ h => h
  | setMetadata id m => exact setMetadata_carries p env j id m
  | getVector id =>
    exact Triple.bind (OnlyReads.carries p j (onlyReads_getVector env id)) fun _ =>
      Triple.pure fun _ h => h
  | search query options =>
    exact Triple.bind (OnlyReads.carries p j (onlyReads_search p env query options)) fun _ =>
      Triple.pure fun _ h => h
  | stats =>
    exact Triple.bind (OnlyReads.carries p j (onlyReads_stats env)) fun _ => Triple.pure fun _ h => h
  | rebuildIndex => exact rebuildIndex_carries p env j
  | compact => exact Triple.bind (compact_carries p env j) fun _ => Triple.pure fun _ h => h
  | flush => exact flush_carries p env j

end Operations

section Runs
variable {K : Type} [BEq K] [LT K] [DecidableLT K] (p : Platform K) (env : Environment)
variable {j : Journal}

/-- A new database has an empty journal. -/
theorem create_carries {config : DatabaseConfig} (hv : config.validate = .ok ()) :
    Triple (· = newDirectory) (create p env config)
      (fun db d => Handle.Carries p .empty ⟨d, db⟩) (fun _ _ => True) := by
  refine (create_spec p env hv).conseq ?_ ?_ fun _ _ _ => trivial
  · rintro _ rfl
    exact ⟨.refl _, MetadataStore.holds_fresh _⟩
  · rintro db d ⟨made, hmade, hat⟩
    have hs := hmade.store.consistent
    have hnone : ∀ id, made.store.find id = none := find_empty hs hmade.slotCount
    have hlive : Contents.empty.Of p made.store made.nextAutoId := by
      refine ⟨hs, fun id => ?_, hmade.nextAutoId, ?_⟩
      · rw [VectorStore.get?, hnone, Option.map_none]
        rfl
      · rw [VectorStore.tombstoneCount, hmade.slotCount, Nat.zero_sub]
        rfl
    have hrows : HasRows Journal.empty.metadata (newTables config) := by
      intro id
      rw [show Journal.empty.metadata id = ∅ from rfl, boundRows_of_isEmpty Std.ExtTreeMap.isEmpty_empty]
      simp [newTables, configuredTables, DatabaseConfig.entries, Tables.rows, Tables.setConfigValue]
    exact hat.carries (Carries.flushed hlive hrows)

/-- A process that dies leaves what was saved. -/
theorem crash_carries {h : Handle} (hc : h.Carries p j) :
    h.disk.Carries p { j with live := j.saved } := by
  obtain ⟨t, ht, -, hrows, s, next, hsaved, -⟩ := hc
  have htables : h.disk.tables = t := ht.2
  refine ⟨rfl, ?_, s, next, ?_⟩
  · rw [htables]
    exact hrows
  · rw [htables]
    exact hsaved

theorem close_carries {h g : Handle} (hh : HandleSound False h) (hc : h.Carries p j)
    (hexec : exec (flush env) h = (.ok (), g)) : g.disk.Carries p j.flush := by
  have hcarries := flush_carries p env j h ⟨hh, hc⟩
  rw [hexec] at hcarries
  exact crash_carries p hcarries

theorem HasRows.withSchemaVersion {metadata : VectorId → Metadata} {t : Tables}
    (h : HasRows metadata t) : HasRows metadata t.withSchemaVersion := by
  intro id
  rw [← h id]
  simp [Tables.rows]

theorem SavedIn.withSchemaVersion {c : Contents} {f : Files} {t : Tables} {s : VectorStore}
    {next : VectorId} (h : SavedIn p c f t s next) : SavedIn p c f t.withSchemaVersion s next := by
  obtain ⟨hvectors, hnext, hcontents⟩ := h
  refine ⟨hvectors, ?_, hcontents⟩
  rw [getElem?_withSchemaVersion _ (by decide)]
  exact hnext

/-- What `open` finds is what was saved; where it fails it may have set the schema version. -/
theorem reopen_carries {d : Disk} {config : DatabaseConfig} (hv : config.validate = .ok ())
    (hsized : config.Sized) (hfiles : FilesSound config False d.files)
    (htables : Configured config d.tables) (hc : d.Carries p j) :
    (State.ofCall (exec (openDatabase p env) d.directory)).Carries p j := by
  obtain ⟨hlive, hrows, s, next, hsaved⟩ := hc
  obtain ⟨hfile, hnext, hcontents⟩ := hsaved
  obtain ⟨s', id, hstore, hheld, hid, hopen⟩ := reopen_spec p env hv hsized hfiles htables
  obtain rfl : s' = s := by
    have hheld := hheld.resolve_right fun h => by
      rw [hfile] at h
      cases h.1
    exact writeVectorFile_injective hstore.consistent hcontents.consistent
      (Option.some.inj (hheld.symm.trans hfile))
  obtain rfl : id = next := by
    have h := nextIdOf_eq hid
    rw [nextIdOf_eq hnext] at h
    exact (Fin.ext (Except.ok.inj h)).symm
  have hspec := hopen d.directory ⟨.refl _, MetadataStore.holds_fresh _⟩
  rcases hexec : exec (openDatabase p env) d.directory with ⟨r, e⟩
  rw [hexec] at hspec
  cases r with
  | error error =>
    obtain ⟨hsame, hcommitted, -⟩ := hspec
    have hfile' : SavedIn p j.saved e.files d.tables s' id :=
      ⟨hsame.vectors.trans hfile, hnext, hcontents⟩
    show e.disk.Carries p j
    rcases hcommitted with h | h
    · have htables : e.disk.tables = d.tables := h
      refine ⟨hlive, ?_, s', id, ?_⟩ <;> rw [htables]
      · exact hrows
      · exact hfile'
    · have htables : e.disk.tables = d.tables.withSchemaVersion := h
      refine ⟨hlive, ?_, s', id, ?_⟩ <;> rw [htables]
      · exact hrows.withSchemaVersion
      · exact hfile'.withSchemaVersion
  | ok db =>
    obtain ⟨hsame, hholds, ho, hcounter⟩ := hspec
    have hfile' : SavedIn p j.saved e.files d.tables s' id :=
      ⟨hsame.vectors.trans hfile, hnext, hcontents⟩
    refine ⟨_, hholds, ?_, hrows.withSchemaVersion, s', id, hfile'.withSchemaVersion, fun _ => ?_⟩
    · show j.live.Of p db.store db.nextAutoId
      rw [ho.store, hcounter, hlive]
      exact hcontents
    · exact ⟨ho.store.symm, hcounter.symm⟩

/-- What an event has done, the death of a process too, is what its journal says. -/
theorem State.after_carries {s : State} {event : Event} (hsound : s.Sound False)
    (hc : s.Carries p j) (hok : event.SucceedsOrCrashes p env s) :
    (s.after p env event).Carries p (j.afterEvent event s) := by
  cases event with
  | create config sized =>
    cases s with
    | absent =>
      obtain ⟨db, d, hexec⟩ := hok.resolve_left fun h => by cases h
      cases hv : config.validate with
      | error e => simp [State.after, hv, State.Carries]
      | ok u =>
        have hcreate := create_carries p env hv newDirectory rfl
        rw [hexec] at hcreate
        rw [State.after_create p env sized hv, hexec]
        exact hcreate
    | closed d => exact hc
    | opened h => exact hc
  | call op =>
    cases s with
    | absent => trivial
    | closed d => exact hc
    | opened h =>
      obtain ⟨g, hexec⟩ := hok.resolve_left fun h => by cases h
      have hrun := op.run_carries p env j h ⟨hsound, hc⟩
      rw [State.after_call, hexec]
      rw [hexec] at hrun
      exact hrun
  | crash =>
    cases s with
    | absent => trivial
    | closed d => exact hc
    | opened h => exact crash_carries p hc
  | close =>
    cases s with
    | absent => trivial
    | closed d => exact hc
    | opened h =>
      obtain ⟨g, hexec⟩ := hok.resolve_left fun h => by cases h
      show Disk.Carries p _ (exec (destroy env) h).2.disk
      rw [exec_destroy_of_flush env hexec]
      exact close_carries p env hsound hc hexec
  | reopen =>
    cases s with
    | absent => trivial
    | opened h => exact hc
    | closed d =>
      rcases hsound.sound with habandoned | ⟨config, hv, hsized, hfiles, htables⟩
      · obtain ⟨-, -, s, next, hfile, -⟩ := hc
        rw [habandoned.vectors] at hfile
        cases hfile
      · rw [State.after_reopen]
        exact reopen_carries p env hv hsized hfiles htables hc

/-- What is read of a database is in its journal; `check` does not pass over metadata that are
left of a vector. -/
structure ReadsAs (j : Journal) (h : Handle) : Prop where
  getVector : ∀ env : Environment, env.Quiet → ∀ id, (exec (getVector env id) h).1 =
    .ok ((j.live.vectors id).map fun v =>
      ⟨id, VectorStore.storedForm p.toArithmetic h.db.config.normalize v,
        (j.metadata id).map fun _ value => value.stored⟩)
  filterIds : ∀ env : Environment, env.Quiet → ∀ filter : Filter,
    ∃ ids, (exec (filterIds env filter) h).1 = .ok ids ∧ ∀ id, id ∈ ids ↔
      (j.live.vectors id).isSome ∧ (j.metadata id).isEmpty = false ∧
        filter.matches ((j.metadata id).map fun _ value => value.stored) = true
  allIds : ∀ id, id ∈ h.db.allIds ↔ (j.live.vectors id).isSome
  distinct : h.db.allIds.Nodup
  size : h.db.size = h.db.allIds.length
  nextAutoId : h.db.nextAutoId = j.live.next
  tombstones : h.db.store.tombstoneCount = j.live.tombstones
  orphanWarning : ∀ env : Environment, env.Quiet → (exec (orphanWarning env) h).1 = .ok none →
    ∀ id, (j.metadata id).isEmpty = false → (j.live.vectors id).isSome

theorem mem_allIds {db : Database} (hs : db.store.Consistent) (id : VectorId) :
    id ∈ db.allIds ↔ db.store.contains id = true := by
  rw [Database.allIds, List.mem_mergeSort, List.mem_map, VectorStore.contains,
    Option.isSome_iff_exists]
  constructor
  · rintro ⟨l, hl, hid⟩
    obtain ⟨hlt, hlive⟩ := mem_liveSlots.mp hl
    exact ⟨l, (hs.find_iff id l).mpr ⟨hlt, hlive, hid⟩⟩
  · rintro ⟨l, hl⟩
    obtain ⟨hlt, hlive, hid⟩ := (hs.find_iff id l).mp hl
    exact ⟨l, mem_liveSlots.mpr ⟨hlt, hlive⟩, hid⟩

theorem size_eq_length_allIds {db : Database} (hs : db.store.Consistent) :
    db.size = db.allIds.length := by
  rw [Database.size, Database.allIds, (List.mergeSort_perm _ _).length_eq, List.length_map]
  exact (length_liveSlots hs).symm

theorem boundRows_eq_empty_iff {m : Metadata} : boundRows m = ∅ ↔ m.isEmpty = true := by
  refine ⟨fun h => ?_, boundRows_of_isEmpty⟩
  rw [Std.ExtTreeMap.isEmpty_iff]
  refine Std.ExtTreeMap.ext_getElem? fun key => ?_
  have hkey : (boundRows m)[key]? = none := by rw [h, Std.ExtTreeMap.getElem?_empty]
  simpa [boundRows] using hkey

theorem HasRows.mem_filterIds {metadata : VectorId → Metadata} {t : Tables} {c : Contents}
    {s : VectorStore} {next : VectorId} (h : HasRows metadata t) (hc : c.Of p s next)
    (filter : Filter) (id : VectorId) :
    id ∈ (MetadataStore.matchingIds filter t).filter s.contains ↔
      (c.vectors id).isSome ∧ (metadata id).isEmpty = false ∧
        filter.matches ((metadata id).map fun _ value => value.stored) = true := by
  rw [List.mem_filter, MetadataStore.mem_matchingIds_iff, hc.contains, h id,
    MetadataStore.metadataOf_boundRows, Ne, boundRows_eq_empty_iff, Bool.not_eq_true, and_comm]

theorem Handle.Carries.reads {h : Handle} (hh : HandleSound False h) (hc : h.Carries p j) :
    ReadsAs p j h := by
  obtain ⟨t, ht, hlive, hrows, -⟩ := hc
  have hstore := hh.database.store
  refine ⟨fun env hq id => ?_, fun env hq filter => ?_, fun id => ?_, ?_, ?_, hlive.next,
    hlive.tombstones, fun env hq hnone id hm => ?_⟩
  · rw [getVector_get? hq, hlive.vectors, hstore.normalizes, Handle.metadataOf, ht.view, hrows,
      MetadataStore.metadataOf_boundRows, Option.map_map]
    rfl
  · refine ⟨_, filterIds_steps (fun n => hq.1 n _) h filter, fun id => ?_⟩
    rw [ht.view]
    exact hrows.mem_filterIds p hlive filter id
  · rw [mem_allIds hstore.consistent, hlive.contains]
  · exact (List.mergeSort_perm _ _).nodup_iff.mpr
      (VectorStore.nodup_liveIds hstore.consistent.distinct)
  · exact size_eq_length_allIds hstore.consistent
  · rw [← hlive.contains]
    refine Bool.eq_true_of_not_eq_false fun hgone => ?_
    refine (orphanWarning_none_iff hq hstore.consistent).mp hnone id ⟨?_, hgone⟩
    rw [ht.view]
    refine MetadataStore.mem_metadata_of_rows fun hempty => ?_
    rw [hrows, boundRows_eq_empty_iff, hm] at hempty
    cases hempty

end Runs

end VectorDb.Db
