import VectorDb.Db.ReadBack

/-!
Whether what `open` finds after a crash is a state the database was in: vectors are
durable when `flush` has replaced vectors.bin, metadata when its write returns.
-/
set_option autoImplicit false

namespace VectorDb.Db

open VectorDb.Lib VectorDb.Storage VectorDb.Index Throwing

/-- The vector an id has in vectors.bin. -/
def Files.stored (f : Files) (id : VectorId) : Option FloatVector :=
  match f.vectors.map readVectorFile with
  | some (.ok s) => s.get? id
  | _ => none

/-- What `get` would return. -/
def State.Shows : State → Set StoredVector
  | .opened h => {r | ∃ env : Environment, env.Quiet ∧
      (exec (getVector env r.id) h).1 = .ok (some r)}
  | _ => ∅

/-- The metadata that `set` would write for an id whose vector in memory is `w` goes with
the vector in vectors.bin. -/
def Handle.Aligned (h : Handle) (id : VectorId) (w : Option FloatVector) (m : Metadata) : Prop :=
  m.keys.any List.isEmpty = false →
    h.files.stored id = none ∨ h.files.stored id = w ∨
      h.metadataOf id = m.map (fun _ value => value.stored) ∧ h.metadata.Closed

section Runs
variable {K : Type} [BEq K] [LT K] [DecidableLT K] (p : Platform K)

/-- What a call writes to the tables goes with what vectors.bin holds. -/
def Operation.Aligned (h : Handle) (op : Operation) : Prop :=
  (∀ id v m, op.Inserts h id v m → h.db.store.insertCheck id v = .ok () → m.isEmpty = false →
    h.Aligned id (some (VectorStore.storedForm p.toArithmetic h.db.store.normalizes v)) m) ∧
  match op with
  | .upsert id v m => h.db.store.contains id = true →
      validateVector v h.db.store.dimension = .ok () →
      h.Aligned id (some (VectorStore.storedForm p.toArithmetic h.db.store.normalizes v)) m
  | .remove id => h.db.store.contains id = true →
      h.files.stored id = none ∨ h.metadataOf id = ∅
  | .setMetadata id m => h.db.store.contains id = true → h.Aligned id (h.db.store.get? id) m
  | _ => True

/-- The calls that only read. -/
def Operation.Reads : Operation → Prop
  | .getVector _ | .search _ _ | .stats => True
  | _ => False

/-- No call that writes finds a transaction left open, and what it writes is aligned. -/
def WritesAligned (event : Event) (_ : Environment) (s : State) : Prop :=
  match event, s with
  | .call op, .opened h =>
    op.Reads ∨ h.metadata.connection.pending = none ∧ op.Aligned p h
  | .close, .opened h => h.metadata.connection.pending = none
  | _, _ => True

/-- Runs, with all that `get` would have returned on the way. -/
def history (allowed : Event → Environment → State → Prop) :
    Transition (State × Set StoredVector) where
  start s := s = (.absent, ∅)
  step s t := ∃ event env, allowed event env s.1 ∧ t.1 = s.1.after p env event ∧
    t.2 = s.2 ∪ t.1.Shows

end Runs

/-- Every vector in vectors.bin was once read with the rows that are committed. -/
def Paired (f : Files) (t : Tables) (seen : Set StoredVector) : Prop :=
  ∀ id v, f.stored id = some v → ⟨id, v, MetadataStore.metadataOf (t.rows id)⟩ ∈ seen

section Pairs
variable {f g : Files} {t u : Tables} {seen more : Set StoredVector} {h : Handle}
  {id : VectorId} {v : FloatVector}

theorem Files.stored_of_write {s : VectorStore} (hs : s.Consistent)
    (hf : f.vectors = some (writeVectorFile s)) (id : VectorId) : f.stored id = s.get? id := by
  simp only [stored, hf, Option.map_some, readVectorFile_write hs]

theorem Files.stored_of_none (hf : f.vectors = none) (id : VectorId) : f.stored id = none := by
  simp only [stored, hf, Option.map_none]

theorem Files.stored_congr (h : g.vectors = f.vectors) : g.stored = f.stored := by
  funext id
  simp only [stored, h]

theorem Paired.congr (hp : Paired f t seen) (hf : g.vectors = f.vectors)
    (ht : ∀ id, u.rows id = t.rows id) : Paired g u seen := fun id v hv => by
  rw [ht]
  exact hp id v (Files.stored_congr hf ▸ hv)

theorem Paired.mono (hp : Paired f t seen) (hsub : seen ⊆ more) : Paired f t more :=
  fun id v hv => hsub (hp id v hv)

/-- What is in memory is shown with the rows that are in view. -/
theorem mem_shows_iff {r : StoredVector} : r ∈ (State.opened h).Shows ↔
    h.db.store.get? r.id = some r.vector ∧ h.metadataOf r.id = r.metadata := by
  constructor
  · rintro ⟨env, hq, hget⟩
    rw [getVector_get? hq] at hget
    cases hfind : h.db.store.get? r.id with
    | none =>
      rw [hfind] at hget
      cases hget
    | some w =>
      rw [hfind] at hget
      obtain ⟨-, hw, hm⟩ := StoredVector.mk.inj (Option.some.inj (Except.ok.inj hget))
      exact ⟨congrArg some hw, hm⟩
  · rintro ⟨hw, hm⟩
    refine ⟨faultless, quiet_faultless, ?_⟩
    rw [getVector_get? quiet_faultless, hw, Option.map_some, hm]

theorem shows_committed (hp : h.metadata.connection.pending = none)
    (hv : h.db.store.get? id = some v) :
    ⟨id, v, MetadataStore.metadataOf (h.metadata.connection.committed.rows id)⟩ ∈
      (State.opened h).Shows := by
  refine mem_shows_iff.mpr ⟨hv, ?_⟩
  rw [Handle.metadataOf, Connection.view, hp, Option.getD_none]

/-- A flush takes over what is in memory, or leaves vectors.bin as it is. -/
theorem paired_betweenFlushes {db : Database} (hs : db.store.Consistent)
    (hp : Paired f t seen)
    (hmemory : ∀ id v, db.store.get? id = some v →
      ⟨id, v, MetadataStore.metadataOf (t.rows id)⟩ ∈ seen)
    (hg : f.BetweenFlushes db g) : Paired g t seen := by
  have hwritten : g.vectors = some (writeVectorFile db.store) → Paired g t seen :=
    fun hvectors id v hv => hmemory id v (by rw [← Files.stored_of_write hs hvectors]; exact hv)
  rcases hg with hsame | hsame | hsame
  · exact hp.congr hsame.vectors fun _ => rfl
  · exact hwritten hsame.vectors
  · exact hwritten (hsame.vectors.trans (Files.flushed_vectors f db))

end Pairs

section Steps
variable {env : Environment} {faults : Faults} {h g k : Handle} {s : MetadataStore} {id i : VectorId}
  {m : Metadata} {w : Option FloatVector} {seen : Set StoredVector}

/-- Where nothing was open, the rows that a `set` leaves are all in view, or what was
committed before still is. -/
theorem set_rows (faults : Faults) (id : VectorId) (m : Metadata)
    (hp : s.connection.pending = none) :
    (exec (MetadataStore.set faults id m) s).2.connection.pending = none ∨
      (exec (MetadataStore.set faults id m) s).2.connection.committed = s.connection.committed := by
  have hset := MetadataStore.set_committed faults id m s ⟨hp, rfl⟩
  rcases hexec : exec (MetadataStore.set faults id m) s with ⟨r, t⟩
  rw [hexec] at hset
  cases r with
  | ok u => exact .inl hset.1
  | error e => exact hset

/-- A `set` of the metadata that is there changes nothing. -/
theorem set_same (faults : Faults) (hclosed : s.Closed)
    (hm : Has id (m.map fun _ value => value.stored) s.connection.committed) :
    Has id (m.map fun _ value => value.stored)
      (exec (MetadataStore.set faults id m) s).2.connection.committed := by
  have hset := MetadataStore.set_holds faults id m s ⟨hclosed, rfl⟩
  rcases hexec : exec (MetadataStore.set faults id m) s with ⟨r, t⟩
  rw [hexec] at hset
  cases r with
  | ok u =>
    have hcommitted : t.connection.committed = _ := hset.2
    show Has id _ t.connection.committed
    rw [hcommitted, Has, Tables.rows_replaceRows, if_pos rfl, MetadataStore.metadataOf_boundRows]
  | error e =>
    have hcommitted : t.connection.committed = s.connection.committed :=
      hset.elim (fun h => h.1.2) fun h => h.1
    show Has id _ t.connection.committed
    rw [hcommitted]
    exact hm

/-- A `set` that is aligned with vectors.bin keeps its vectors paired. -/
theorem Wrote.paired_set (hg : Wrote k (exec (MetadataStore.set faults id m) h.metadata).2 g)
    (hfiles : k.files = h.files) (hmemory : k.db.store.get? id = w)
    (hp : h.metadata.connection.pending = none) (halign : h.Aligned id w m)
    (hpaired : Paired h.files h.metadata.connection.committed seen) :
    Paired g.files g.metadata.connection.committed (seen ∪ (State.opened g).Shows) := by
  intro i v hv
  have hsame : g.metadata.connection.committed = h.metadata.connection.committed →
      ⟨i, v, MetadataStore.metadataOf (g.metadata.connection.committed.rows i)⟩ ∈
        seen ∪ (State.opened g).Shows := fun hc => by
    rw [hc]
    exact .inl (hpaired i v (by rw [← hfiles, ← hg.files]; exact hv))
  rw [hg.files, hfiles] at hv
  have hold := hpaired i v hv
  cases hkeys : m.keys.any List.isEmpty with
  | true =>
    refine hsame ?_
    rw [hg.metadata, MetadataStore.exec_set_rejected _ hkeys]
  | false =>
    by_cases hi : i = id
    · subst hi
      rcases halign hkeys with hnone | hw | ⟨hm, hclosed⟩
      · rw [hnone] at hv
        cases hv
      · rcases set_rows faults i m hp with hpending | hc
        · rw [← hg.metadata] at hpending
          refine .inr (shows_committed hpending ?_)
          rw [hg.store, hmemory, ← hw, hv]
        · exact hsame (hg.metadata ▸ hc)
      · rw [Handle.metadataOf, Connection.view, hp, Option.getD_none] at hm
        have hset : Has i _ g.metadata.connection.committed :=
          hg.metadata ▸ set_same faults hclosed hm
        rw [Has] at hset
        rw [hset, ← hm]
        exact .inl hold
    · have hrows := (everywhere_set faults (MetadataStore.everywhere_of_committed hp rfl)
        (Ne.symm hi) m).committed
      rw [← hg.metadata, Has] at hrows
      rw [hrows]
      exact .inl hold

/-- A `remove` of what vectors.bin does not have, or what had no metadata, keeps its
vectors paired. -/
theorem Wrote.paired_remove (hg : Wrote k (exec (MetadataStore.remove faults id) h.metadata).2 g)
    (hfiles : k.files = h.files) (hp : h.metadata.connection.pending = none)
    (halign : h.files.stored id = none ∨ h.metadataOf id = ∅)
    (hpaired : Paired h.files h.metadata.connection.committed seen) :
    Paired g.files g.metadata.connection.committed seen := by
  intro i v hv
  rw [hg.files, hfiles] at hv
  have hold := hpaired i v hv
  have hrows : MetadataStore.metadataOf (g.metadata.connection.committed.rows i) =
      MetadataStore.metadataOf (h.metadata.connection.committed.rows i) := by
    have hremove := MetadataStore.remove_rolledBack faults id h.metadata ⟨hp, rfl⟩
    rw [hg.metadata]
    rcases hexec : exec (MetadataStore.remove faults id) h.metadata with ⟨r, t⟩
    rw [hexec] at hremove
    cases r with
    | error e => rw [show t.connection.committed = _ from hremove.2]
    | ok u =>
      obtain ⟨u, ⟨-, rfl⟩, -, hrows⟩ := hremove
      show MetadataStore.metadataOf (t.connection.committed.rows i) = _
      rw [hrows]
      split
      next hi =>
        subst hi
        rcases halign with hnone | hm
        · rw [hnone] at hv
          cases hv
        · rw [Handle.metadataOf, Connection.view, hp, Option.getD_none] at hm
          rw [hm, MetadataStore.metadataOf_empty]
      next => rfl
  rw [hrows]
  exact hold

theorem Flushed.paired (hg : Flushed env h g) (hs : h.db.store.Consistent)
    (hp : h.metadata.connection.pending = none)
    (hpaired : Paired h.files h.metadata.connection.committed seen)
    (hmemory : ∀ id v, h.db.store.get? id = some v →
      ⟨id, v, MetadataStore.metadataOf (h.metadata.connection.committed.rows id)⟩ ∈ seen) :
    Paired g.files g.metadata.connection.committed seen := by
  have hflushed := paired_betweenFlushes hs hpaired hmemory hg.files
  refine hflushed.congr rfl fun i => ?_
  rcases hg.metadata with hsame | hset
  · rw [hsame]
  · have hconfig := MetadataStore.setConfig_rolledBack env.sql kKeyNextId
      (toString h.db.nextAutoId.val) h.metadata ⟨hp, rfl⟩
    rw [hset]
    rcases hexec : exec (MetadataStore.setConfig env.sql kKeyNextId
      (toString h.db.nextAutoId.val)) h.metadata with ⟨r, t⟩
    rw [hexec] at hconfig
    cases r with
    | error e => rw [show t.connection.committed = _ from hconfig.2]
    | ok u =>
      rw [show t.connection.committed = _ from hconfig.2]
      rfl

theorem Flushed.pending (hg : Flushed env h g) (hp : h.metadata.connection.pending = none) :
    g.metadata.connection.pending = none := by
  rcases hg.metadata with hsame | hset
  · rw [hsame]
    exact hp
  · have hconfig := MetadataStore.setConfig_rolledBack env.sql kKeyNextId
      (toString h.db.nextAutoId.val) h.metadata ⟨hp, rfl⟩
    rw [hset]
    rcases hexec : exec (MetadataStore.setConfig env.sql kKeyNextId
      (toString h.db.nextAutoId.val)) h.metadata with ⟨r, t⟩
    rw [hexec] at hconfig
    cases r <;> exact hconfig.1

end Steps

section Runs
variable {K : Type} [BEq K] [LT K] [DecidableLT K] (p : Platform K) (env : Environment)
variable {h g : Handle} {seen : Set StoredVector}

theorem Operation.Inserts.not_reads {op : Operation} {id : VectorId} {v : FloatVector}
    {m : Metadata} (hop : op.Inserts h id v m) : ¬ op.Reads := by
  cases op <;> first | exact not_false | exact hop.elim

/-- What is aligned keeps the vectors of vectors.bin paired. -/
theorem Operation.run_paired {op : Operation} (hh : HandleSound False h)
    (hok : op.Reads ∨ h.metadata.connection.pending = none ∧ op.Aligned p h)
    (hpaired : Paired h.files h.metadata.connection.committed seen)
    (hshown : (State.opened h).Shows ⊆ seen) :
    Paired (exec (op.run p env) h).2.files (exec (op.run p env) h).2.metadata.connection.committed
      (seen ∪ (State.opened (exec (op.run p env) h).2).Shows) := by
  have hs := hh.database.store.consistent
  have hout := op.outcome p env hh
  generalize (exec (op.run p env) h).2 = g at hout ⊢
  have hsub : seen ⊆ seen ∪ (State.opened g).Shows := Set.subset_union_left
  have hmemory : h.metadata.connection.pending = none → ∀ id v, h.db.store.get? id = some v →
      ⟨id, v, MetadataStore.metadataOf (h.metadata.connection.committed.rows id)⟩ ∈ seen :=
    fun hp id v hv => hshown (shows_committed hp hv)
  cases hout with
  | unchanged => exact hpaired.mono hsub
  | read n => exact hpaired.mono hsub
  | @inserted _ id v m db _ hop hc hgrown hg =>
    obtain ⟨hp, halign, -⟩ := hok.resolve_left hop.not_reads
    cases hm : m.isEmpty with
    | true =>
      rw [insertedStore, if_pos hm] at hg
      rw [hg.metadata, hg.files]
      exact hpaired.mono hsub
    | false =>
      rw [insertedStore, if_neg (by simp [hm])] at hg
      refine hg.paired_set rfl ?_ hp (halign id v m hop hc hm) hpaired
      show db.store.get? id = _
      rw [hgrown.store.get? hs (VectorStore.insertCheck_ok hc).1, if_pos rfl]
  | @upserted id v m slot t _ hfind hv ha hg =>
    obtain ⟨hp, -, halign⟩ := hok.resolve_left not_false
    have hcontains : h.db.store.contains id = true := by simp [VectorStore.contains, hfind]
    refine hg.paired_set rfl ?_ hp (halign hcontains hv) hpaired
    show t.get? id = _
    rw [ha.get? hs hfind, if_pos rfl]
  | @removed id slot t _ hfind ha hg =>
    obtain ⟨hp, -, halign⟩ := hok.resolve_left not_false
    have hcontains : h.db.store.contains id = true := by simp [VectorStore.contains, hfind]
    exact (hg.paired_remove rfl hp (halign hcontains) hpaired).mono hsub
  | metadataSet hc hg =>
    obtain ⟨hp, -, halign⟩ := hok.resolve_left not_false
    exact hg.paired_set rfl rfl hp (halign hc) hpaired
  | rebuilt _ hg =>
    have hp := (hok.resolve_left not_false).1
    exact (hg.paired hs hp hpaired (hmemory hp)).mono hsub
  | @compacted t _ _ ha _ hg =>
    have hp := (hok.resolve_left not_false).1
    refine (hg.paired ha.consistent hp hpaired fun i v hv => hmemory hp i v ?_).mono hsub
    rw [← ha.get? hs]
    exact hv
  | flushed hg =>
    have hp := (hok.resolve_left not_false).1
    exact (hg.paired hs hp hpaired (hmemory hp)).mono hsub

/-- What a reopened database has is what was in the files and the tables. -/
inductive Reopened (d : Disk) : State → Prop where
  | opened {h : Handle} : h.files.vectors = d.files.vectors →
      (∀ id, h.db.store.get? id = d.files.stored id) → h.metadata.connection.pending = none →
      (∀ id, h.metadata.connection.committed.rows id = d.tables.rows id) → Reopened d (.opened h)
  | failed {e : Disk} : e.files.vectors = d.files.vectors →
      (e.files.vectors = none ∨ ∀ id, e.tables.rows id = d.tables.rows id) →
      Reopened d (.closed e)

theorem reopened {d : Disk} (hd : DiskSound False d) :
    Reopened d (.ofCall (exec (openDatabase p env) d.directory)) := by
  rcases hd.sound with hd | ⟨c, hv, hsized, hfiles, htables⟩
  · have hopen := openDatabase_abandoned p env d.directory hd.fresh
    rcases hexec : exec (openDatabase p env) d.directory with ⟨r, t⟩
    rw [hexec] at hopen
    cases r with
    | ok db => exact hopen.elim
    | error e => exact .failed (hopen.1.1.trans hd.vectors.symm) (.inl hopen.1.1)
  · obtain ⟨s, next, hs, hheld, -, hopen⟩ := reopen_spec p env hv hsized hfiles htables
    have hspec := hopen d.directory ⟨.refl _, MetadataStore.holds_fresh _⟩
    rcases hexec : exec (openDatabase p env) d.directory with ⟨r, t⟩
    rw [hexec] at hspec
    cases r with
    | ok db =>
      obtain ⟨hsame, ht, ho, -⟩ := hspec
      refine .opened hsame.vectors (fun id => ?_) ht.1.pending fun id => ?_
      · show db.store.get? id = _
        rw [ho.store]
        rcases hheld with hvectors | ⟨hnone, hcount⟩
        · rw [Files.stored_of_write hs.consistent hvectors]
        · rw [Files.stored_of_none hnone, VectorStore.get?, find_empty hs.consistent hcount,
            Option.map_none]
      · show t.metadata.connection.committed.rows id = _
        rw [ht.2, Tables.rows, metadata_withSchemaVersion, Tables.rows]
    | error e =>
      obtain ⟨hsame, hrows, -⟩ := hspec
      refine .failed hsame.vectors (.inr fun id => ?_)
      show t.metadata.connection.committed.rows id = _
      rcases hrows with hrows | hrows
      · rw [hrows]
      · rw [hrows, Tables.rows, metadata_withSchemaVersion, Tables.rows]

/-- Nothing is in vectors.bin once a database is made. -/
theorem create_paired {c : DatabaseConfig} (hv : c.validate = .ok ()) :
    match State.ofCall (exec (create p env c) newDirectory) with
    | .opened h => Paired h.files h.metadata.connection.committed ∅
    | .closed d => Paired d.files d.tables ∅
    | .absent => True := by
  have hinit := initialise_spec p env hv newDirectory ⟨.refl _, MetadataStore.holds_fresh _⟩
  rw [exec_create p env hv]
  rcases hexec : exec (initialise p env c) newDirectory with ⟨r, d⟩
  rw [hexec] at hinit
  cases r with
  | error e =>
    intro id v hstored
    rw [Files.stored_of_none hinit.1.vectors] at hstored
    cases hstored
  | ok db =>
    obtain ⟨hmade, hf, ht⟩ := hinit
    have hempty : ∀ {g : Handle} {t : Tables}, g.db.store = db.store → ∀ id v,
        g.db.store.get? id = some v → ⟨id, v, MetadataStore.metadataOf (t.rows id)⟩ ∈
          (∅ : Set StoredVector) := by
      intro g t hstore id v hstored
      rw [hstore, VectorStore.get?, find_empty hmade.store.consistent hmade.slotCount] at hstored
      cases hstored
    have hnew : Paired d.files d.metadata.connection.committed ∅ := by
      intro id v hstored
      rw [Files.stored_of_none hf.vectors] at hstored
      cases hstored
    have hflush := flush_flushedTo env ⟨d, db⟩
    have hpaired := hflush.paired hmade.store.consistent ht.1.pending hnew
      (hempty (g := ⟨d, db⟩) rfl)
    have hpending := hflush.pending ht.1.pending
    have hstore := hflush.store
    dsimp only
    rcases hexec : exec (flush env) ⟨d, db⟩ with ⟨r, h⟩
    rw [hexec] at hpaired hpending hstore
    cases r with
    | ok u => exact hpaired
    | error e =>
      show Paired (exec (destroy env) h).2.files (exec (destroy env) h).2.metadata.connection.committed ∅
      have hs : h.db.store = db.store := hstore
      rw [exec_destroy_files]
      exact (flush_flushedTo env h).paired (hs ▸ hmade.store.consistent) hpending hpaired
        (hempty hs)

def State.PairedIn (seen : Set StoredVector) : State → Prop
  | .absent => True
  | .closed d => Paired d.files d.tables seen
  | .opened h => Paired h.files h.metadata.connection.committed seen ∧
      (State.opened h).Shows ⊆ seen

theorem State.after_pairedIn {s : State} {event : Event} (hs : s.Sound False)
    (hpaired : s.PairedIn seen) (hok : WritesAligned p event env s) :
    (s.after p env event).PairedIn (seen ∪ (s.after p env event).Shows) := by
  have hkept : s.after p env event = s →
      (s.after p env event).PairedIn (seen ∪ (s.after p env event).Shows) := by
    intro hsame
    rw [hsame]
    cases s with
    | absent => trivial
    | closed d => exact hpaired.mono Set.subset_union_left
    | opened h => exact ⟨hpaired.1.mono Set.subset_union_left, Set.subset_union_right⟩
  cases event with
  | create config sized =>
    cases s with
    | absent =>
      cases hv : config.validate with
      | error e => exact hkept (by simp only [State.after, hv])
      | ok u =>
        rw [State.after_create p env sized hv]
        have hcreate := create_paired p env hv
        generalize State.ofCall (exec (create p env config) newDirectory) = t at hcreate ⊢
        cases t with
        | absent => trivial
        | closed d => exact hcreate.mono (Set.empty_subset _)
        | opened h => exact ⟨hcreate.mono (Set.empty_subset _), Set.subset_union_right⟩
    | closed d => exact hkept rfl
    | opened h => exact hkept rfl
  | call op =>
    cases s with
    | absent => trivial
    | closed d => exact hkept rfl
    | opened h => exact ⟨op.run_paired p env hs hok hpaired.1 hpaired.2, Set.subset_union_right⟩
  | crash =>
    cases s with
    | absent => trivial
    | closed d => exact hkept rfl
    | opened h => exact hpaired.1.mono Set.subset_union_left
  | close =>
    cases s with
    | absent => trivial
    | closed d => exact hkept rfl
    | opened h =>
      have hh : HandleSound False h := hs
      have hp : h.metadata.connection.pending = none := hok
      have hflushed := (flush_flushedTo env h).paired hh.database.store.consistent hp hpaired.1
        fun id v hv => hpaired.2 (shows_committed hp hv)
      show Paired (exec (destroy env) h).2.files
        (exec (destroy env) h).2.metadata.connection.committed _
      rw [exec_destroy_files]
      exact hflushed.mono Set.subset_union_left
  | reopen =>
    cases s with
    | absent => trivial
    | opened h => exact hkept rfl
    | closed d =>
      have hreopened := reopened p env hs
      have hd : Paired d.files d.tables seen := hpaired
      rw [State.after_reopen]
      generalize State.ofCall (exec (openDatabase p env) d.directory) = t at hreopened ⊢
      cases hreopened with
      | opened hf _ _ hrows =>
        exact ⟨(hd.congr hf hrows).mono Set.subset_union_left, Set.subset_union_right⟩
      | failed hf hrows =>
        refine Paired.mono ?_ Set.subset_union_left
        rcases hrows with hnone | hrows
        · intro id v hstored
          rw [Files.stored_of_none hnone] at hstored
          cases hstored
        · exact hd.congr hf hrows

/-- After a run all of whose writes are aligned with vectors.bin, every vector that `open`
finds is found with metadata that `get` gave with it before. -/
theorem reopened_pairs_were_seen {d : Disk}
    (hr : (history p (WritesAligned p)).Reachable (.closed d, seen)) :
    (State.after p env .reopen (.closed d)).Shows ⊆ seen := by
  have hboth : State.Sound False (.closed d) ∧ State.PairedIn seen (.closed d) := by
    refine hr.invariant (P := fun s => s.1.Sound False ∧ s.1.PairedIn s.2) ?_ ?_
    · rintro _ rfl
      exact ⟨trivial, trivial⟩
    · rintro s t ⟨hs, hpaired⟩ ⟨event, env, hok, ht, hseen⟩
      rw [ht, hseen, ht]
      exact ⟨State.after_sound p env hs event fun _ _ _ h => h.elim,
        State.after_pairedIn p env hs hpaired hok⟩
  obtain ⟨hs, hpaired⟩ := hboth
  have hreopened := reopened p env hs
  rw [State.after_reopen]
  generalize State.ofCall (exec (openDatabase p env) d.directory) = t at hreopened ⊢
  cases hreopened with
  | failed => exact Set.empty_subset _
  | @opened h _ hstored hp hrows =>
    intro r hr
    obtain ⟨hv, hm⟩ := mem_shows_iff.mp hr
    rw [hstored] at hv
    rw [Handle.metadataOf, Connection.view, hp, Option.getD_none, hrows] at hm
    have hmem := hpaired r.id r.vector hv
    rw [hm] at hmem
    exact hmem

theorem history_sound {allowed : Event → Environment → State → Prop} {s : State × Set StoredVector}
    (hr : (history p allowed).Reachable s) : s.1.Sound False := by
  refine hr.invariant (P := fun s => s.1.Sound False) ?_ ?_
  · rintro _ rfl
    trivial
  · rintro s t hs ⟨event, env, -, ht, -⟩
    rw [ht]
    exact State.after_sound p env hs event fun _ _ _ h => h.elim

theorem history_step {allowed : Event → Environment → State → Prop} {s t : State}
    (hr : (history p allowed).Reachable (s, seen)) (event : Event) (hok : allowed event env s)
    (ht : s.after p env event = t) : (history p allowed).Reachable (t, seen ∪ t.Shows) :=
  hr.step ⟨event, env, hok, ht.symm, rfl⟩

/-- Where nothing fails, a database opens again. -/
theorem HandleSound.reopens (hh : HandleSound False h) :
    ∃ g : Handle, State.after p faultless .reopen (.closed h.disk) = .opened g := by
  obtain ⟨db, d, hexec, -⟩ := hh.reread.opens p quiet_faultless
  exact ⟨⟨d, db⟩, by rw [State.after_reopen, hexec, State.ofCall]⟩

end Runs

/-- A vector is flushed with metadata and removed, and the process dies: the next one
finds the vector without metadata. -/
theorem removed_vector_returns_bare :
    ¬ ∀ (d : Disk) (seen : Set StoredVector) (env : Environment),
      (history unitPlatform fun _ _ _ => True).Reachable (.closed d, seen) →
      (State.after unitPlatform env .reopen (.closed d)).Shows ⊆ seen := by
  intro hclaim
  obtain ⟨h₀, h₁, hone⟩ := exists_unitVector oneEntry oneEntry_keys
  obtain ⟨made, hmade, hat₀⟩ := hone.empty
  obtain ⟨grown, t, ht, -, hat₁⟩ := hone.one
  have hsound₀ : HandleSound False h₀ :=
    reachable_sound unitPlatform (hone.made unitPlatform (fun _ _ _ => True) unitConfig_sized trivial)
  have hholds := insert_holding unitPlatform faultless hsound₀ ht.1.pending hone.insert
  have hentry : insertedMetadata h₀ 0 oneEntry = oneEntry :=
    insertedMetadata_eq_iff.mpr ⟨by simp [oneEntry], oneEntry_kept⟩
  rw [hentry] at hholds
  obtain ⟨h₂, hflush, hat₂⟩ := flush_quiet quiet_faultless hat₁.tables (by rw [hat₁.db])
  have hfind₂ : h₂.db.store.find 0 = some 0 := by
    rw [hat₂.db]
    exact hone.find
  obtain ⟨s, u, h₃, hremoved, hrows, hremove, hat₃⟩ :=
    remove_quiet quiet_faultless hat₂.tables hfind₂
  have hview₁ : h₁.metadataOf 0 = oneEntry := hholds.metadata.view
  have hview₂ : h₂.metadataOf 0 = oneEntry := by
    rw [Handle.metadataOf, hat₁.tables.view] at hview₁
    rw [Handle.metadataOf, hat₂.tables.view]
    exact hview₁
  have hnone₀ : h₀.db.store.get? 0 = none := by
    have hstore : h₀.db.store = made.store := by rw [hat₀.db]
    rw [hstore, VectorStore.get?, find_empty hmade.store.consistent hmade.slotCount, Option.map_none]
  have hnone₃ : h₃.db.store.get? 0 = none := by
    rw [hat₃.db]
    show s.get? 0 = none
    rw [hremoved.get?, if_pos rfl]
  have hr₀ : (history unitPlatform fun _ _ _ => True).Reachable (.opened h₀, _) :=
    history_step unitPlatform faultless (.start rfl) (.create unitConfig unitConfig_sized) trivial
      (by rw [State.after_create _ _ _ hone.valid, hone.create, State.ofCall])
  have hr₁ := history_step unitPlatform faultless hr₀ (.call (.insert 0 [Component.one] oneEntry))
    trivial (by rw [State.after_call, Operation.run, hone.insert])
  have hr₂ := history_step unitPlatform faultless hr₁ (.call .flush) trivial
    (by rw [State.after_call, Operation.run, hflush])
  have hr₃ := history_step unitPlatform faultless hr₂ (.call (.remove 0)) trivial
    (by rw [State.after_call, Operation.run, exec_bind_pure, hremove])
  have hr₄ := history_step unitPlatform faultless hr₃ .crash trivial rfl
  have hh₃ : HandleSound False h₃ := by
    have hsound := history_sound unitPlatform hr₃
    exact hsound
  have hstored : h₃.disk.files.stored 0 = h₁.db.store.get? 0 := by
    refine Files.stored_of_write hone.sound.database.store.consistent ?_ 0
    rw [Directory.disk, hat₃.files.vectors, hat₂.files.vectors, Files.flushed_vectors]
  have hbare : h₃.disk.tables.rows 0 = ∅ := by
    rw [Directory.disk, hat₃.tables.2, hrows.rows, if_pos rfl]
  obtain ⟨g, hg⟩ := hh₃.reopens unitPlatform
  have hreopened := reopened unitPlatform faultless hh₃.disk
  rw [← State.after_reopen, hg] at hreopened
  have hsub := hclaim h₃.disk _ faultless hr₄
  rw [hg] at hsub
  cases hreopened with
  | opened _ hget hp hrows =>
    have hshown : (⟨0, _, ∅⟩ : StoredVector) ∈ (State.opened g).Shows :=
      mem_shows_iff.mpr ⟨(hget 0).trans (hstored.trans hholds.vector), by
        rw [Handle.metadataOf, Connection.view, hp, Option.getD_none, hrows, hbare,
          MetadataStore.metadataOf_empty]⟩
    have hmem := hsub hshown
    have hentry : oneEntry ≠ ∅ := by simp [oneEntry]
    rcases hmem with ((((hmem | hmem) | hmem) | hmem) | hmem) | hmem
    · exact hmem
    · have hv := (mem_shows_iff.mp hmem).1
      rw [hnone₀] at hv
      cases hv
    · exact hentry (hview₁.symm.trans (mem_shows_iff.mp hmem).2)
    · exact hentry (hview₂.symm.trans (mem_shows_iff.mp hmem).2)
    · have hv := (mem_shows_iff.mp hmem).1
      rw [hnone₃] at hv
      cases hv
    · exact hmem

/-- A vector that was flushed is found again as it was, with its metadata. -/
theorem reopened_pairs_one_entry : ∃ (d : Disk) (seen : Set StoredVector) (v : FloatVector),
    ⟨0, v, oneEntry⟩ ∈ (State.after unitPlatform faultless .reopen (.closed d)).Shows ∧
      (State.after unitPlatform faultless .reopen (.closed d)).Shows ⊆ seen := by
  obtain ⟨h₀, h₁, hone⟩ := exists_unitVector oneEntry oneEntry_keys
  obtain ⟨made, hmade, hat₀⟩ := hone.empty
  obtain ⟨grown, t, ht, -, hat₁⟩ := hone.one
  obtain ⟨h₂, hflush, hat₂⟩ := flush_quiet quiet_faultless hat₁.tables (by rw [hat₁.db])
  have hnew : ∀ id, h₀.files.stored id = none := fun id => by
    have hwritten : h₀.files.stored id = made.store.get? id := by
      refine Files.stored_of_write hmade.store.consistent ?_ id
      rw [hat₀.files.vectors, Files.flushed_vectors]
    rw [hwritten, VectorStore.get?, find_empty hmade.store.consistent hmade.slotCount,
      Option.map_none]
  have hr₀ : (history unitPlatform (WritesAligned unitPlatform)).Reachable (.opened h₀, _) :=
    history_step unitPlatform faultless (.start rfl) (.create unitConfig unitConfig_sized) trivial
      (by rw [State.after_create _ _ _ hone.valid, hone.create, State.ofCall])
  have hsound₀ : HandleSound False h₀ := history_sound unitPlatform hr₀
  have hr₁ := history_step unitPlatform faultless hr₀ (.call (.insert 0 [Component.one] oneEntry))
    (.inr ⟨ht.1.pending, fun id _ _ _ _ _ _ => .inl (hnew id), trivial⟩)
    (by rw [State.after_call, Operation.run, hone.insert])
  have hr₂ := history_step unitPlatform faultless hr₁ (.call .flush)
    (.inr ⟨hat₁.tables.1.pending, (fun _ _ _ hop => by cases hop), trivial⟩)
    (by rw [State.after_call, Operation.run, hflush])
  have hr₃ := history_step unitPlatform faultless hr₂ .crash trivial rfl
  have hh₂ : HandleSound False h₂ := history_sound unitPlatform hr₂
  have hholds := insert_holding unitPlatform faultless hsound₀ ht.1.pending hone.insert
  rw [insertedMetadata_eq_iff.mpr ⟨by simp [oneEntry], oneEntry_kept⟩] at hholds
  have hstored : h₂.disk.files.stored 0 = h₁.db.store.get? 0 := by
    refine Files.stored_of_write hone.sound.database.store.consistent ?_ 0
    rw [Directory.disk, hat₂.files.vectors, Files.flushed_vectors]
  have hrows : MetadataStore.metadataOf (h₂.disk.tables.rows 0) = oneEntry := by
    have hview : h₁.metadataOf 0 = oneEntry := hholds.metadata.view
    rw [Handle.metadataOf, hat₁.tables.view] at hview
    rw [Directory.disk, hat₂.tables.2]
    exact hview
  obtain ⟨g, hg⟩ := hh₂.reopens unitPlatform
  have hreopened := reopened unitPlatform faultless hh₂.disk
  rw [← State.after_reopen, hg] at hreopened
  cases hreopened with
  | opened _ hget hp hsame =>
    have hmetadata : g.metadataOf 0 = oneEntry := by
      rw [Handle.metadataOf, Connection.view, hp, Option.getD_none, hsame, hrows]
    refine ⟨h₂.disk, _, VectorStore.storedForm unitPlatform.toArithmetic h₀.db.store.normalizes
      [Component.one], ?_, reopened_pairs_were_seen unitPlatform faultless hr₃⟩
    rw [hg]
    exact mem_shows_iff.mpr ⟨(hget 0).trans (hstored.trans hholds.vector), hmetadata⟩

end VectorDb.Db
