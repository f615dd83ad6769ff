import VectorDb.Db.AcceptedVectors
import VectorDb.Db.ReadBack
import VectorDb.Storage.VectorLoad
import VectorDb.Util.VectorIo

/-!
`command_export` and `command_import` of src/cli/commands.cpp over the binary matrix: what
one database wrote, an empty one takes over.
-/
set_option autoImplicit false

namespace VectorDb.Cli

open VectorDb.Lib VectorDb.Storage VectorDb.Util VectorDb.Db Throwing

section Commands
variable {K : Type} [BEq K] [LT K] [DecidableLT K] (p : Platform K) (env : Environment)

/-- One turn of the loop of `command_export`. -/
def exportVector (batch : VectorBatch) (id : VectorId) : Db.Call VectorBatch := do
  match ← getVector env id with
  | none => return batch
  | some stored =>
    let vectors ← fromExcept (batch.vectors.pushBack stored.vector)
    return ⟨vectors, batch.ids ++ [id]⟩

/-- `command_export`, with the contents of the file it writes. -/
def commandExport : Db.Call Bytes := do
  let h ← get
  let vectors ← fromExcept (VectorArray.create h.db.config.dimension)
  let batch ← h.db.allIds.foldlM (exportVector env) ⟨vectors, []⟩
  fromExcept (writeVectorMatrix batch.vectors batch.ids)

/-- One turn of the loop of `command_import`; `startId` is the `--start-id` that was given. -/
def importVector (startId : Option VectorId) (batch : VectorBatch) (i : LocalId) :
    Db.Call Unit :=
  match startId with
  | some start =>
    Db.insert p env (start + Fin.ofNat 18446744073709551616 i) (batch.vectors.row i) ∅
  | none =>
    if batch.hasIds then Db.insert p env (batch.ids.getD i 0) (batch.vectors.row i) ∅
    else do let _ ← insertAuto p env (batch.vectors.row i) ∅

/-- `command_import`, from the contents of the file at `path`. -/
def commandImport (path : String) (startId : Option VectorId) (file : Bytes) : Db.Call Unit := do
  let batch ← fromExcept (readVectorMatrix path file)
  let h ← get
  if batch.vectors.dimension ≠ h.db.config.dimension then
    throw (.dimensionMismatch h.db.config.dimension batch.vectors.dimension)
  (List.range batch.vectors.size).forM (importVector p env startId batch)
  flush env

/-- The part of `command_export` before the file is written. -/
def exportBatch : Db.Call VectorBatch := do
  let h ← get
  let vectors ← fromExcept (VectorArray.create h.db.config.dimension)
  h.db.allIds.foldlM (exportVector env) ⟨vectors, []⟩

/-- The part of `command_import` after the file is read. -/
def importBatch (startId : Option VectorId) (batch : VectorBatch) : Db.Call Unit := do
  let h ← get
  if batch.vectors.dimension ≠ h.db.config.dimension then
    throw (.dimensionMismatch h.db.config.dimension batch.vectors.dimension)
  (List.range batch.vectors.size).forM (importVector p env startId batch)
  flush env

end Commands

section Ids
variable {db : Database} (hs : db.store.Consistent)
include hs

theorem mem_allIds (id : VectorId) : id ∈ db.allIds ↔ ∃ v, db.store.get? id = some v := by
  simp only [get?_eq_some_iff hs, Database.allIds, List.mem_mergeSort, List.mem_map,
    List.mem_filter, List.mem_range]
  constructor
  · rintro ⟨l, ⟨hlt, hlive⟩, hid⟩
    exact ⟨_, l, hlt, hlive, hid, rfl⟩
  · rintro ⟨_, l, hlt, hlive, hid, -⟩
    exact ⟨l, ⟨hlt, hlive⟩, hid⟩

theorem nodup_allIds : db.allIds.Nodup :=
  (List.mergeSort_perm _ _).nodup_iff.mpr (VectorStore.nodup_liveIds hs.distinct)

theorem length_allIds : db.allIds.length = db.store.liveCount := by
  rw [Database.allIds, List.length_mergeSort, List.length_map, ← List.countP_eq_length_filter,
    hs.liveCount, ← hs.live_eq, List.count, List.countP_map]
  congr 1
  funext l
  simp

omit hs in
theorem mergeSort_allIds : db.allIds.mergeSort = db.allIds :=
  List.mergeSort_of_pairwise (List.pairwise_mergeSort (by simpa using fun a b c => le_trans)
    (by simpa using le_total) _)

end Ids

section Export
variable {env : Environment}

/-- What `command_export` puts together. -/
structure Exported (db : Database) (batch : VectorBatch) : Prop where
  dimension : batch.vectors.dimension = db.config.dimension
  ids : batch.ids = db.allIds
  rows : batch.vectors.rows = db.allIds.map fun id => (db.store.get? id).getD []

theorem Exported.size {db : Database} {batch : VectorBatch} (hb : Exported db batch) :
    batch.ids.length = batch.vectors.size := by
  rw [hb.ids, VectorArray.size, hb.rows, List.length_map]

/-- The loop passes over each id that has a vector. -/
theorem exec_exportVectors (hq : env.Quiet) {h : Handle} (ids : List VectorId) {batch : VectorBatch}
    {g : Handle} (hg : ∃ n, g = h.ticked n)
    (hids : ∀ id ∈ ids, ∃ v, h.db.store.get? id = some v ∧ v.length = batch.vectors.dimension)
    (hroom : batch.vectors.size + ids.length ≤ kMaxVectorCount) :
    ∃ (batch' : VectorBatch) (n : Nat × (Prepared → Bool)),
      exec (ids.foldlM (exportVector env) batch) g = (.ok batch', h.ticked n) ∧
      batch'.vectors.dimension = batch.vectors.dimension ∧ batch'.ids = batch.ids ++ ids ∧
      batch'.vectors.rows =
        batch.vectors.rows ++ ids.map fun id => (h.db.store.get? id).getD [] := by
  induction ids generalizing batch g with
  | nil =>
    obtain ⟨n, rfl⟩ := hg
    exact ⟨batch, n, rfl, rfl, by simp, by simp⟩
  | cons id ids ih =>
    rw [List.length_cons] at hroom
    obtain ⟨v, hv, hlen⟩ := hids id List.mem_cons_self
    have hdb : g.db = h.db := by
      obtain ⟨n, rfl⟩ := hg
      rfl
    obtain ⟨vectors, hpush, hdim, hrows⟩ := VectorArray.pushBack_ok hlen (by omega)
    have hsize : vectors.size = batch.vectors.size + 1 := by simp [VectorArray.size, hrows]
    obtain ⟨n, hn⟩ := onlyReads_getVector env id h g hg
    have hget : exec (getVector env id) g =
        (.ok (some ⟨id, v, g.metadataOf id⟩), h.ticked n) := by
      refine Prod.ext ?_ hn
      rw [getVector_get? hq, hdb, hv]
      rfl
    have hturn : exec (exportVector env batch id) g =
        (.ok ⟨vectors, batch.ids ++ [id]⟩, h.ticked n) := by
      simp only [exportVector, exec_bind, hget, exec_fromExcept, hpush, exec_pure]
    obtain ⟨batch', n', hrest, hdim', hids', hrows'⟩ :=
      @ih ⟨vectors, batch.ids ++ [id]⟩ _ ⟨n, rfl⟩
        (fun i hi => hdim ▸ hids i (List.mem_cons_of_mem _ hi)) (by rw [hsize]; omega)
    refine ⟨batch', n', ?_, hdim'.trans hdim, ?_, ?_⟩
    · rw [List.foldlM_cons, exec_bind_ok hturn, hrest]
    · rw [hids', List.append_assoc, List.singleton_append]
    · rw [hrows', hrows, List.append_assoc, List.map_cons, hv]
      rfl

theorem exec_exportBatch (hq : env.Quiet) {h : Handle} (hh : HandleSound False h) :
    ∃ (batch : VectorBatch) (n : Nat × (Prepared → Bool)), Exported h.db batch ∧
      exec (exportBatch env) h = (.ok batch, h.ticked n) := by
  have hs := hh.database.store.consistent
  have hdim : h.db.store.dimension = h.db.config.dimension := hh.database.store.dimension
  obtain ⟨hpos, hle⟩ := validate_dimension hh.database.valid
  obtain ⟨empty, hempty, hemptyDim, hemptyRows⟩ := VectorArray.create_ok hpos hle
  have hids : ∀ id ∈ h.db.allIds, ∃ v, h.db.store.get? id = some v ∧ v.length = empty.dimension := by
    intro id hid
    obtain ⟨v, hv⟩ := (mem_allIds hs id).mp hid
    obtain ⟨l, hlt, -, -, rfl⟩ := (get?_eq_some_iff hs id v).mp hv
    refine ⟨_, hv, ?_⟩
    rw [hemptyDim, ← hdim]
    exact h.db.store.vectors.length_rows _ (VectorArray.row_mem hlt)
  have hroom : empty.size + h.db.allIds.length ≤ kMaxVectorCount := by
    rw [VectorArray.size, hemptyRows, List.length_nil, Nat.zero_add, length_allIds hs]
    exact hs.liveCount_le.trans h.db.store.vectors.count_le
  obtain ⟨batch, n, hexec, hbdim, hbids, hbrows⟩ :=
    @exec_exportVectors env hq h h.db.allIds ⟨empty, []⟩ h h.ticked_refl
      hids hroom
  have hb : Exported h.db batch :=
    ⟨hbdim.trans hemptyDim, by simpa using hbids, by rw [hbrows, hemptyRows, List.nil_append]⟩
  have hloop : exec (h.db.allIds.foldlM (exportVector env) ⟨empty, []⟩) h = (.ok batch, h.ticked n) :=
    hexec
  refine ⟨batch, n, hb, ?_⟩
  simp only [exportBatch, exec_bind, exec_get, exec_fromExcept, hempty, hloop]

theorem exec_commandExport (hq : env.Quiet) {h : Handle} (hh : HandleSound False h) :
    ∃ (batch : VectorBatch) (n : Nat × (Prepared → Bool)), Exported h.db batch ∧
      exec (commandExport env) h = (.ok (matrixFile batch.vectors batch.ids), h.ticked n) := by
  obtain ⟨batch, n, hb, hexec⟩ := exec_exportBatch hq hh
  have hwrite : writeVectorMatrix batch.vectors batch.ids =
      .ok (matrixFile batch.vectors batch.ids) :=
    writeVectorMatrix_eq_ok.mpr ⟨.inr hb.size, rfl⟩
  have hcommand : commandExport env =
      exportBatch env >>= fun batch => fromExcept (writeVectorMatrix batch.vectors batch.ids) := by
    simp only [commandExport, exportBatch, bind_assoc]
  refine ⟨batch, n, hb, ?_⟩
  rw [hcommand, exec_bind_ok hexec, exec_fromExcept, hwrite]

end Export

section Import
variable {K : Type} [BEq K] [LT K] [DecidableLT K] (p : Platform K) {env : Environment}

/-- `g` is a database that has taken the first `n` vectors of a batch with ids. -/
structure Imported (batch : VectorBatch) (n : Nat) (g : Handle) : Prop where
  sound : HandleSound False g
  dimension : g.db.store.dimension = batch.vectors.dimension
  normalizes : g.db.store.normalizes = false
  rows : g.db.store.vectors.rows = batch.vectors.rows.take n
  ids : g.db.store.localToId = batch.ids.take n
  live : g.db.store.live = List.replicate n true

/-- Without metadata an accepted `insert` calls nothing that can fail. -/
theorem exec_insert_plain {h : Handle} {id : VectorId} {v : FloatVector}
    (hh : HandleSound False h) (hc : h.db.store.insertCheck id v = .ok ()) :
    ∃ db g, Grown p h.db db id v ∧ exec (Db.insert p env id v ∅) h = (.ok (), g) ∧
      g.db.store = db.store ∧ HandleSound False g := by
  obtain ⟨db, hgrown, hexec⟩ := exec_insert_accepted p env (m := ∅) hh.database.store.consistent
    hh.database.index hc
  have hfinish : exec (finishInsert env id ∅) { h with db := db } = (.ok (), { h with
      db := { db with nextAutoId := advance db.nextAutoId id, dirty := true } }) := by
    simp [finishInsert]
  refine ⟨db, _, hgrown, hexec.trans hfinish, rfl, ?_⟩
  have hsound : HandleSound False (exec (Db.insert p env id v ∅) h).2 := insert_sound p env hh
  rw [hexec, hfinish] at hsound
  exact hsound

variable {batch : VectorBatch}

/-- The next vector is taken: its id is new, and it passes the check. -/
theorem Imported.step {n : Nat} {g : Handle} (hg : Imported batch n g)
    (hsize : batch.ids.length = batch.vectors.size) (hnodup : batch.ids.Nodup)
    (hrows : ∀ row ∈ batch.vectors.rows, validateVector row batch.vectors.dimension = .ok ())
    (hn : n < batch.vectors.size) :
    ∃ g', exec (importVector p env none batch n) g = (.ok (), g') ∧ Imported batch (n + 1) g' := by
  have hs := hg.sound.database.store.consistent
  have hnIds : n < batch.ids.length := hsize ▸ hn
  have hslots : g.db.store.slotCount = n := by
    rw [VectorStore.slotCount, VectorArray.size, hg.rows, List.length_take]
    exact Nat.min_eq_left hn.le
  have hid : batch.ids.getD n 0 = batch.ids[n] := List.getD_eq_getElem _ _ hnIds
  have hnew : g.db.store.contains (batch.ids.getD n 0) = false := by
    rw [VectorStore.contains, Option.isSome_eq_false_iff, Option.isNone_iff_eq_none]
    cases hfind : g.db.store.find (batch.ids.getD n 0) with
    | none => rfl
    | some l =>
      obtain ⟨hlt, -, hlid⟩ := (hs.find_iff _ _).mp hfind
      rw [hslots] at hlt
      have hlIds : l < batch.ids.length := hlt.trans hnIds
      have hl : g.db.store.vectorId l = batch.ids[l] := by
        rw [VectorStore.vectorId, hg.ids, List.getD_eq_getElem?_getD,
          List.getElem?_take_of_lt hlt, List.getElem?_eq_getElem hlIds]
        rfl
      rw [hl, hid] at hlid
      exact absurd ((List.Nodup.getElem_inj_iff hnodup).mp hlid) hlt.ne
  have hcheck : g.db.store.insertCheck (batch.ids.getD n 0) (batch.vectors.row n) = .ok () := by
    rw [VectorStore.insertCheck, hnew, if_neg (by simp), hslots,
      if_neg (Nat.not_le.mpr (hn.trans_le batch.vectors.count_le)), hg.dimension]
    exact hrows _ (VectorArray.row_mem hn)
  obtain ⟨db, g', hgrown, hexec, hstore, hsound⟩ := exec_insert_plain p hg.sound hcheck
  have happended := hgrown.store
  rw [storedForm_of_not_normalizes hg.normalizes] at happended
  have hturn : importVector p env none batch n =
      Db.insert p env (batch.ids.getD n 0) (batch.vectors.row n) ∅ := by
    have hids : batch.hasIds = true := by
      cases hb : batch.ids with
      | nil => rw [hb] at hnIds; cases hnIds
      | cons id ids => simp [VectorBatch.hasIds, hb]
    rw [importVector, if_pos hids]
  refine ⟨g', hturn ▸ hexec, hsound, ?_, ?_, ?_, ?_, ?_⟩
  · rw [hstore, happended.dimension, hg.dimension]
  · rw [hstore, happended.normalizes, hg.normalizes]
  · rw [hstore, happended.rows, hg.rows, take_succ_getD hn []]
    rfl
  · rw [hstore, happended.ids, hg.ids, take_succ_getD hnIds 0]
  · rw [hstore, happended.live, hg.live, List.replicate_succ']

/-- Where nothing fails, `flush` returns, and the store stays. -/
theorem exec_flush_quiet (hq : env.Quiet) (h : Handle) :
    ∃ g, exec (flush env) h = (.ok (), g) ∧ g.db.store = h.db.store := by
  have hstore := (flush_flushedTo env h).store
  have hreturns : (exec (flush env) h).1 = .ok () := by
    rw [exec_flush]
    split
    · have hfiles := flushFiles_spec env h.db (f := h.files) (R := fun _ => True) h.toDirectory
        ⟨.refl _, trivial⟩
      rw [writeAll, exec_bind, exec_onDirectory]
      rcases hexec : exec (flushFiles env h.db) h.toDirectory with ⟨r, d⟩
      rw [hexec] at hfiles
      cases r with
      | error e => exact absurd hq.2 hfiles.2
      | ok u =>
        simp [exec_bind, MetadataStore.setConfig, MetadataStore.sql, exec_on, exec_runStatement,
          hq.1.failure]
    · rfl
  exact ⟨_, Prod.ext hreturns rfl, hstore⟩

theorem exec_importBatch (hq : env.Quiet) {g : Handle} (hg : Imported batch 0 g)
    (hsize : batch.ids.length = batch.vectors.size) (hnodup : batch.ids.Nodup)
    (hrows : ∀ row ∈ batch.vectors.rows, validateVector row batch.vectors.dimension = .ok ()) :
    ∃ g' t, exec (importBatch p env none batch) g = (.ok (), g') ∧
      g'.db.store = t.db.store ∧ Imported batch batch.vectors.size t := by
  obtain ⟨t, hloop, ht⟩ := exec_forM_range (H := Imported batch)
    (f := importVector p env none batch) (fun n s hn hs => hs.step p hsize hnodup hrows hn) hg
  obtain ⟨g', hflush, hstore⟩ := exec_flush_quiet hq t
  have hdim : batch.vectors.dimension = g.db.config.dimension := by
    rw [← hg.dimension]
    exact hg.sound.database.store.dimension
  refine ⟨g', t, ?_, hstore, ht⟩
  simp only [importBatch, exec_bind, exec_get, hdim, ne_eq, not_true_eq_false, if_false, hloop,
    hflush]

theorem exec_commandImport (hq : env.Quiet) {g : Handle} (hg : Imported batch 0 g)
    (hsize : batch.ids.length = batch.vectors.size) (hnodup : batch.ids.Nodup)
    (hrows : ∀ row ∈ batch.vectors.rows, validateVector row batch.vectors.dimension = .ok ())
    {path : String} {file : Bytes} (hread : readVectorMatrix path file = .ok batch) :
    ∃ g' t, exec (commandImport p env path none file) g = (.ok (), g') ∧
      g'.db.store = t.db.store ∧ Imported batch batch.vectors.size t := by
  obtain ⟨g', t, hexec, hrest⟩ := exec_importBatch p hq hg hsize hnodup hrows
  have hcommand : commandImport p env path none file =
      fromExcept (readVectorMatrix path file) >>= importBatch p env none := rfl
  refine ⟨g', t, ?_, hrest⟩
  rw [hcommand, exec_bind, exec_fromExcept, hread]
  exact hexec

/-- What was taken over from a batch with all its vectors. -/
theorem Imported.slots {g : Handle} (hg : Imported batch batch.vectors.size g)
    (hsize : batch.ids.length = batch.vectors.size) :
    g.db.store.vectors.rows = batch.vectors.rows ∧ g.db.store.localToId = batch.ids ∧
      g.db.store.slotCount = batch.vectors.size ∧ ∀ l < batch.vectors.size, g.db.store.isLive l = true := by
  have hrows : g.db.store.vectors.rows = batch.vectors.rows := by
    rw [hg.rows, VectorArray.size, List.take_length]
  refine ⟨hrows, by rw [hg.ids, ← hsize, List.take_length], by
    rw [VectorStore.slotCount, VectorArray.size, hrows, VectorArray.size], fun l hl => ?_⟩
  rw [VectorStore.isLive, hg.live, List.getD_eq_getElem _ _ (by simpa using hl),
    List.getElem_replicate]

end Import

/-- The same ids, and the same vector for each. -/
structure SameVectors (d e : Database) : Prop where
  allIds : e.allIds = d.allIds
  get? : ∀ id, e.store.get? id = d.store.get? id

/-- An import of what was exported from `d` leaves the ids and vectors of `d`. -/
theorem sameVectors_imported {d : Database} {batch : VectorBatch} (hd : d.store.Consistent)
    (hb : Exported d batch) {g : Handle} (hg : Imported batch batch.vectors.size g) :
    SameVectors d g.db := by
  obtain ⟨hrows, hids, hslots, hlive⟩ := hg.slots hb.size
  have hlen : g.db.store.localToId.length = g.db.store.slotCount := by
    rw [hids, hslots, hb.size]
  have hfilter : (List.range g.db.store.slotCount).filter g.db.store.isLive =
      List.range g.db.store.slotCount := by
    refine List.filter_eq_self.mpr fun l hl => ?_
    rw [List.mem_range, hslots] at hl
    exact hlive l hl
  have hmap : (List.range g.db.store.slotCount).map g.db.store.vectorId = g.db.store.localToId := by
    refine List.ext_getElem (by simp [hlen]) fun l _ hl => ?_
    rw [List.getElem_map, List.getElem_range, VectorStore.vectorId, List.getD_eq_getElem _ _ hl]
  have hall : g.db.allIds = d.allIds := by
    rw [Database.allIds, hfilter, hmap, hids, hb.ids, mergeSort_allIds]
  refine ⟨hall, fun id => ?_⟩
  have hgs := hg.sound.database.store.consistent
  cases hget : d.store.get? id with
  | none =>
    cases hother : g.db.store.get? id with
    | none => rfl
    | some v =>
      have hmem := (mem_allIds hgs id).mpr ⟨v, hother⟩
      rw [hall, mem_allIds hd, hget] at hmem
      obtain ⟨_, hv⟩ := hmem
      cases hv
  | some v =>
    obtain ⟨l, hl, hlid⟩ := List.getElem_of_mem ((mem_allIds hd id).mpr ⟨v, hget⟩)
    have hlsize : l < batch.vectors.size := by
      rw [← hb.size, hb.ids]
      exact hl
    refine (get?_eq_some_iff hgs id v).mpr ⟨l, hslots ▸ hlsize, hlive l hlsize, ?_, ?_⟩
    · rw [VectorStore.vectorId, hids, hb.ids, List.getD_eq_getElem _ _ hl, hlid]
    · rw [VectorStore.vector, VectorArray.row, hrows, hb.rows,
        List.getD_eq_getElem _ _ (by simpa using hl), List.getElem_map, hlid, hget]
      rfl

section RoundTrip
variable {K : Type} [BEq K] [LT K] [DecidableLT K] (p : Platform K)

/-- What was exported from a database that does not normalize passes the checks of another. -/
theorem Exported.valid {h : Handle} {batch : VectorBatch} (hb : Exported h.db batch)
    (hr : (runs p fun _ _ _ => True).Reachable (.opened h)) (hn : h.db.config.normalize = false) :
    ∀ row ∈ batch.vectors.rows, validateVector row batch.vectors.dimension = .ok () := by
  obtain ⟨hh, -, haccepted⟩ := reachable_accepted p hr
  have hh : HandleSound False h := hh
  have hs := hh.database.store
  intro row hrow
  rw [hb.rows] at hrow
  obtain ⟨id, hid, rfl⟩ := List.mem_map.mp hrow
  obtain ⟨v, hv⟩ := (mem_allIds hs.consistent id).mp hid
  obtain ⟨l, hlt, -, -, rfl⟩ := (get?_eq_some_iff hs.consistent id v).mp hv
  rw [hv, hb.dimension, ← hs.dimension]
  exact haccepted (hs.normalizes.trans hn) _ (VectorArray.row_mem hlt)

/-- A database without slots has taken nothing yet. -/
theorem imported_zero {g : Handle} {batch : VectorBatch} (hg : HandleSound False g)
    (hslots : g.db.store.slotCount = 0) (hdim : g.db.config.dimension = batch.vectors.dimension)
    (hn : g.db.config.normalize = false) : Imported batch 0 g := by
  have hs := hg.database.store
  have hnil : ∀ {α : Type} {l : List α}, l.length = g.db.store.slotCount → l = [] :=
    fun h => List.length_eq_zero_iff.mp (h.trans hslots)
  exact ⟨hg, hs.dimension.trans hdim, hs.normalizes.trans hn, by simp [hnil rfl],
    by simp [hnil hs.consistent.ids], by simp [hnil hs.consistent.live]⟩

/-- A matrix comes back as it was written, and a database that does not normalize goes through
one into an empty database with its dimension, as far as the reader takes files of that size. -/
theorem export_import_inverse :
    (∀ (vectors : VectorArray) (ids : List VectorId), ids = [] ∨ ids.length = vectors.size →
      ∃ bytes, writeVectorMatrix vectors ids = .ok bytes ∧
        bytes.length = 32 + vectors.size * vectors.dimension * 4 + ids.length * 8 ∧
        (bytes.length ≤ kMaxMatrixBytes →
          ∀ path, readVectorMatrix path bytes = .ok ⟨vectors, ids⟩)) ∧
    ∀ (h : Handle) (env : Environment), (runs p fun _ _ _ => True).Reachable (.opened h) →
      h.db.config.normalize = false → env.Quiet →
      ∃ bytes h', exec (commandExport env) h = (.ok bytes, h') ∧ h'.db = h.db ∧
        bytes.length = 32 + h.db.size * h.db.config.dimension * 4 + h.db.size * 8 ∧
        (bytes.length ≤ kMaxMatrixBytes → ∀ (g : Handle) (env' : Environment) (path : String),
          (runs p fun _ _ _ => True).Reachable (.opened g) → g.db.store.slotCount = 0 →
          g.db.config.dimension = h.db.config.dimension → g.db.config.normalize = false →
          env'.Quiet → ∃ g', exec (commandImport p env' path none bytes) g = (.ok (), g') ∧
            SameVectors h.db g'.db) := by
  refine ⟨fun vectors ids hids => ?_, fun h env hr hn hq => ?_⟩
  · refine ⟨_, writeVectorMatrix_eq_ok.mpr ⟨hids, rfl⟩, length_matrixFile vectors ids,
      fun hsize path => ?_⟩
    rw [length_matrixFile] at hsize
    exact readVectorMatrix_matrixFile path hids hsize
  · have hh : HandleSound False h := (reachable_accepted p hr).1
    have hs := hh.database.store.consistent
    obtain ⟨batch, n, hb, hexec⟩ := exec_commandExport hq hh
    have hcount : batch.vectors.size = h.db.size := by
      rw [← hb.size, hb.ids, length_allIds hs, Database.size]
    refine ⟨_, _, hexec, rfl, ?_, fun hsize g env' path hg hslots hdim hgn hq' => ?_⟩
    · rw [length_matrixFile, matrixSize, hb.size, hcount, hb.dimension]
    · rw [length_matrixFile] at hsize
      have hgs : HandleSound False g := (reachable_accepted p hg).1
      have hstart : Imported batch 0 g :=
        imported_zero hgs hslots (hdim.trans hb.dimension.symm) hgn
      obtain ⟨g', t, himport, hstore, ht⟩ := exec_commandImport p hq' hstart hb.size
        (hb.ids ▸ nodup_allIds hs) (hb.valid p hr hn)
        (readVectorMatrix_matrixFile path (.inr hb.size) hsize)
      obtain ⟨hall, hget⟩ := sameVectors_imported hs hb ht
      refine ⟨g', himport, ?_, fun id => by rw [hstore, hget]⟩
      rw [← hall, Database.allIds, hstore, Database.allIds]

/-- Three vectors, of which one is removed. -/
def oneOfThreeRemoved : List (Event × Environment) :=
  [(.create unitConfig unitConfig_sized, faultless),
    (.call (.insert 0 [Component.one] ∅), faultless),
    (.call (.insert 1 [Component.zero] ∅), faultless),
    (.call (.insert 2 [Component.one] ∅), faultless), (.call (.remove 0), faultless)]

/-- They are exported and imported into a database that was just made. -/
theorem export_import_tombstone : ∃ (h g g' : Handle) (bytes : Bytes),
    h.db.store.tombstoneCount = 1 ∧ h.db.store.liveCount = 2 ∧ g.db.store.slotCount = 0 ∧
    (exec (commandExport faultless) h).1 = .ok bytes ∧ bytes.length = 56 ∧
    exec (commandImport unitPlatform faultless "export.vecs" none bytes) g = (.ok (), g') ∧
    SameVectors h.db g'.db := by
  obtain ⟨h, hr, htest⟩ := exists_reachable unitPlatform
    (fun _ _ _ => True) (fun _ _ _ => trivial)
    (show (State.afterAll unitPlatform oneOfThreeRemoved .absent).handle?.map (fun h =>
      decide (h.db.store.tombstoneCount = 1 ∧ h.db.store.liveCount = 2 ∧
        h.db.config = unitConfig)) = some true by decide +kernel)
  obtain ⟨htomb, hlive, hconfig⟩ := of_decide_eq_true htest
  obtain ⟨g, hg, htest⟩ := exists_reachable unitPlatform
    (fun _ _ _ => True) (fun _ _ _ => trivial)
    (show (State.afterAll unitPlatform [(.create unitConfig unitConfig_sized, faultless)]
      .absent).handle?.map (fun g => decide (g.db.store.slotCount = 0 ∧
        g.db.config = unitConfig)) = some true by decide +kernel)
  obtain ⟨hslots, hconfig'⟩ := of_decide_eq_true htest
  obtain ⟨bytes, h', hexport, -, hlength, himport⟩ :=
    (export_import_inverse unitPlatform).2 h faultless hr (by rw [hconfig]; rfl) quiet_faultless
  have hbytes : bytes.length = 56 := by
    rw [hlength, Database.size, hlive, hconfig]
    rfl
  obtain ⟨g', himported, hsame⟩ := himport (by rw [hbytes]; decide) g faultless "export.vecs" hg
    hslots (by rw [hconfig, hconfig']) (by rw [hconfig']; rfl) quiet_faultless
  exact ⟨h, g, g', bytes, htomb, hlive, hslots, by rw [hexport], hbytes, himported, hsame⟩

end RoundTrip

/-- `count` vectors of zeros, of the largest dimension. -/
def zeroMatrix (count : Nat) (h : count ≤ kMaxVectorCount) : VectorArray where
  dimension := 65536
  rows := List.replicate count (List.replicate 65536 Component.zero)
  dimension_pos := by decide
  dimension_le := le_refl kMaxDimension
  count_le := by rwa [List.length_replicate]
  length_rows row hrow := by rw [List.eq_of_mem_replicate hrow, List.length_replicate]

theorem size_zeroMatrix {count : Nat} (h : count ≤ kMaxVectorCount) :
    (zeroMatrix count h).size = count := List.length_replicate

theorem matrixSize_zeroMatrix {count : Nat} (h : count ≤ kMaxVectorCount) :
    matrixSize (zeroMatrix count h) [] = 32 + count * 65536 * 4 := by
  have hdim : (zeroMatrix count h).dimension = 65536 := rfl
  rw [matrixSize, size_zeroMatrix, hdim, List.length_nil, Nat.zero_mul, Nat.add_zero]

/-- What `write_vector_matrix` makes of 64 GiB of components is too large for the reader. -/
theorem matrix_beyond_limit : ∃ (vectors : VectorArray) (bytes : Bytes),
    vectors.size = 262144 ∧ vectors.dimension = 65536 ∧
      writeVectorMatrix vectors [] = .ok bytes ∧
      ¬ ∃ path batch, readVectorMatrix path bytes = .ok batch := by
  have hcount : 262144 ≤ kMaxVectorCount := by decide
  refine ⟨zeroMatrix 262144 hcount, _, size_zeroMatrix hcount, rfl,
    writeVectorMatrix_eq_ok.mpr ⟨.inl rfl, rfl⟩, ?_⟩
  rintro ⟨path, batch, hread⟩
  have hsize : kMaxMatrixBytes < matrixSize (zeroMatrix 262144 hcount) [] := by
    rw [matrixSize_zeroMatrix, kMaxMatrixBytes]
    decide
  obtain ⟨what, hrefused⟩ := readVectorMatrix_tooLarge path hsize
  rw [hrefused] at hread
  cases hread

end VectorDb.Cli
