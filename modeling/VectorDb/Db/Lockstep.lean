import VectorDb.Db.Lossless

/-!
The store and the index in step: what keeps them so over every run, and what a flush
that is cut short between its two files does to the next process.
-/
set_option autoImplicit false

namespace VectorDb.Db

open VectorDb.Lib VectorDb.Storage VectorDb.Index Throwing

/-- The index has a node for each slot, added for the id in the slot, and counts as
many live nodes as there are live slots. -/
structure Lockstep (s : VectorStore) (g : HnswIndex) (addedFor : List VectorId) : Prop where
  nodeCount : g.nodeCount = s.slotCount
  size : g.liveCount = s.liveCount
  addedFor : addedFor = s.localToId

/-- What holds of a database in lockstep, if it is an HNSW database. -/
def Database.InLockstep (db : Database) : Prop :=
  db.config.indexType = .hnsw → ∃ g, db.index = .hnsw g ∧ Lockstep db.store g db.addedFor

theorem DatabaseSound.inLockstep {db : Database} (hdb : DatabaseSound True db) :
    db.InLockstep := by
  intro htype
  have hfits := hdb.index
  have hstep := hdb.inStep trivial
  cases hi : db.index with
  | bruteForce =>
    rw [hi, htype] at hfits
    cases hfits
  | hnsw g =>
    rw [hi] at hfits hstep
    exact ⟨g, rfl, hfits.2.nodeCount, hstep.1, hstep.2⟩

section Files
variable {K : Type} [BEq K] [LT K] [DecidableLT K] (p : Platform K) (env : Environment)
variable {b : Prop} {h g : Handle}

/-- index.hnsw is that of the last flush, or there is none. -/
def Files.Whole (f : Files) : Prop := f.torn = false ∨ f.index = none

theorem Files.Whole.goTogether {f : Files} (h : f.Whole) : f.GoTogether := by
  rcases h with h | h
  · exact .inl h
  · exact .inr (.inl fun file hfile => by rw [h] at hfile; cases hfile)

theorem Files.Whole.same {f g : Files} (h : f.Whole) (hs : g.Same f) : g.Whole :=
  h.imp (fun ht => hs.torn.trans ht) fun hi => hs.index.trans hi

theorem HandleSound.flushed_whole {h : Handle} (hh : HandleSound b h) :
    (h.files.flushed h.db).Whole := by
  have hfits := hh.database.index
  cases hi : h.db.index with
  | hnsw g =>
    rw [Files.flushed, hi]
    exact .inl rfl
  | bruteForce =>
    rw [hi] at hfits
    rw [Files.flushed, hi]
    refine .inr ?_
    cases hindex : h.files.index with
    | none => exact hindex
    | some file =>
      have htype := hh.directory.files.kind file hindex
      rw [hfits] at htype
      cases htype

/-- A flush none of whose file accesses fails replaces both files, or none. -/
theorem Flushed.whole (hf : Flushed env h g) (hdone : env.FilesDone) (hh : HandleSound b h)
    (hwhole : h.files.Whole) : g.files.Whole := by
  rcases hf.complete hdone with hsame | hsame
  · exact hwhole.same hsame
  · exact hh.flushed_whole.same hsame

/-- Only a flush writes to the files. -/
theorem Operation.run_whole (op : Operation) (hdone : env.FilesDone) (hh : HandleSound b h)
    (hwhole : h.files.Whole) : (exec (op.run p env) h).2.files.Whole := by
  have hout := op.outcome p env hh
  generalize (exec (op.run p env) h).2 = g at hout ⊢
  cases hout with
  | unchanged => exact hwhole
  | read n => exact hwhole
  | inserted _ _ _ hg => exact hg.files ▸ hwhole
  | upserted _ _ _ hg => exact hg.files ▸ hwhole
  | removed _ _ hg => exact hg.files ▸ hwhole
  | metadataSet _ hg => exact hg.files ▸ hwhole
  | rebuilt hb hg =>
    have hbuilt := (hh.database.rebuilt p hh.database.store hb).flags h.db.nextAutoId true
      h.db.hasMetadata
    exact hg.whole env hdone ⟨hh.directory, hbuilt⟩ hwhole
  | compacted hs hb hg =>
    have hbuilt := (hh.database.rebuilt p (hs.storeSound hh.database.store) hb).flags
      h.db.nextAutoId true h.db.hasMetadata
    exact hg.whole env hdone ⟨hh.directory, hbuilt⟩ hwhole
  | flushed hg => exact hg.whole env hdone hh hwhole

end Files

section Runs
variable {K : Type} [BEq K] [LT K] [DecidableLT K] (p : Platform K)

/-- No crash, and no file is written but the write succeeds. -/
def WritesSucceed (event : Event) (env : Environment) (_ : State) : Prop :=
  event ≠ .crash ∧ (event = .reopen ∨ env.FilesDone)

def State.Whole : State → Prop
  | .absent => True
  | .closed d => d.files.Whole
  | .opened h => h.files.Whole

variable (env : Environment)

theorem create_whole {c : DatabaseConfig} (hdone : env.FilesDone) (hsized : c.Sized)
    (hv : c.validate = .ok ()) :
    (State.ofCall (exec (create p env c) newDirectory)).Whole := by
  have hinit := initialise_spec p env hv newDirectory ⟨.refl _, MetadataStore.holds_fresh _⟩
  rw [exec_create p env hv]
  rcases hexec : exec (initialise p env c) newDirectory with ⟨r, d⟩
  rw [hexec] at hinit
  cases r with
  | error e => exact .inr hinit.1.index
  | ok db =>
    obtain ⟨hmade, hf, ht⟩ := hinit
    have hsound := hmade.sound p hv hsized hf ht (b := True)
    have hwhole : (⟨d, db⟩ : Handle).files.Whole := .inr hf.index
    have hflush := flush_sound env _ hsound
    have hflushed := (flush_flushedTo env _).whole env hdone hsound hwhole
    dsimp only
    rcases hexec : exec (flush env) ⟨d, db⟩ with ⟨r, h⟩
    rw [hexec] at hflush hflushed
    cases r with
    | ok u => exact hflushed
    | error e =>
      show (exec (destroy env) h).2.files.Whole
      rw [exec_destroy_files]
      exact (flush_flushedTo env h).whole env hdone hflush hflushed

theorem openDatabase_whole {d : Disk} (hd : DiskSound True d) (hwhole : d.files.Whole) :
    (State.ofCall (exec (openDatabase p env) d.directory)).Whole := by
  rcases hd.sound with hd | ⟨c, hv, hsized, hfiles, htables⟩
  · have hopen := openDatabase_abandoned p env d.directory hd.fresh
    rcases hexec : exec (openDatabase p env) d.directory with ⟨r, t⟩
    rw [hexec] at hopen
    cases r with
    | ok db => exact hopen.elim
    | error e => exact .inr hopen.1.2
  · obtain ⟨s, id, -, -, -, hopen⟩ := reopen_spec p env hv hsized hfiles htables
    have hspec := hopen d.directory ⟨.refl _, MetadataStore.holds_fresh _⟩
    rcases hexec : exec (openDatabase p env) d.directory with ⟨r, t⟩
    rw [hexec] at hspec
    cases r with
    | ok db => exact hwhole.same hspec.1
    | error e => exact hwhole.same hspec.1

theorem State.after_whole {s : State} {event : Event} (hs : s.Sound True) (hw : s.Whole)
    (hok : WritesSucceed event env s) : (s.after p env event).Whole := by
  obtain ⟨hcrash, hdone⟩ := hok
  cases s with
  | absent =>
    cases event with
    | create config sized =>
      cases hv : config.validate with
      | error e => simp [State.after, hv, State.Whole]
      | ok u =>
        rw [State.after_create p env sized hv]
        exact create_whole p env (hdone.resolve_left fun h => by cases h) sized hv
    | _ => trivial
  | closed d =>
    cases event with
    | reopen => exact openDatabase_whole p env hs hw
    | _ => exact hw
  | opened h =>
    cases event with
    | call op =>
      exact op.run_whole p env (hdone.resolve_left fun h => by cases h) hs hw
    | crash => exact absurd rfl hcrash
    | close =>
      show (exec (destroy env) h).2.files.Whole
      rw [exec_destroy_files]
      exact (flush_flushedTo env h).whole env (hdone.resolve_left fun h => by cases h) hs hw
    | _ => exact hw

theorem reachable_whole {s : State} (hr : (runs p WritesSucceed).Reachable s) :
    s.Sound True ∧ s.Whole := by
  refine hr.invariant (P := fun s => s.Sound True ∧ s.Whole) ?_ ?_
  · rintro _ rfl
    exact ⟨trivial, trivial⟩
  · rintro s _ ⟨hs, hw⟩ ⟨event, env, hok, rfl⟩
    refine ⟨State.after_sound p env hs event ?_, State.after_whole p env hs hw hok⟩
    rintro - d rfl -
    exact Files.Whole.goTogether hw

/-- Store and index stay in lockstep, however the calls end, and `add` takes every slot
that the store has filled. -/
theorem writesSucceed_inLockstep {h : Handle}
    (hr : (runs p WritesSucceed).Reachable (.opened h)) :
    h.db.InLockstep ∧ ∀ (id : VectorId) (v : FloatVector) (slot : LocalId) (s : VectorStore)
      (g : HnswIndex), exec (VectorStore.insert p.toArithmetic id v) h.db.store = (.ok slot, s) →
      h.db.index = .hnsw g →
      ∃ r, HnswIndex.add p.std (accessor p h.db.config.metric s) p.levelOf g slot = .ok r := by
  have hs : HandleSound True h := (reachable_whole p hr).1
  refine ⟨hs.database.inLockstep, fun id v slot s g hinsert hg => ?_⟩
  have hfits := hs.database.index
  rw [hg] at hfits
  cases hc : h.db.store.insertCheck id v with
  | error e =>
    rw [VectorStore.exec_insert_error p.toArithmetic hc] at hinsert
    cases hinsert
  | ok u =>
    obtain ⟨t, hexec, ha⟩ := VectorStore.exec_insert_ok p.toArithmetic hc
    rw [hexec] at hinsert
    cases hinsert
    obtain ⟨r, hr, -⟩ := HnswIndex.add_appended p.std (accessor p h.db.config.metric s) p.levelOf g
      (by rw [hfits.2.nodeCount]; show _ < s.slotCount; rw [ha.slotCount]; exact Nat.lt_succ_self _)
    exact ⟨r, by rw [← hfits.2.nodeCount]; exact hr⟩

/-- A database is opened only from files that go together. -/
def OpensTogether (event : Event) (_ : Environment) (s : State) : Prop :=
  event = .reopen → ∀ d, s = .closed d → d.files.GoTogether

/-- Whatever crashes and failures there are, the index is in lockstep with the store if
every `open` finds files that go together. -/
theorem opensTogether_inLockstep {h : Handle}
    (hr : (runs p OpensTogether).Reachable (.opened h)) : h.db.InLockstep := by
  have hsound : State.Sound True (.opened h) := by
    refine hr.invariant (P := State.Sound True) ?_ ?_
    · rintro _ rfl
      trivial
    · rintro s _ hs ⟨event, env, hok, rfl⟩
      exact State.after_sound p env hs event fun hre d hd _ => hok hre d hd
  exact DatabaseSound.inLockstep (HandleSound.database hsound)

end Runs

theorem writesSucceed_one_vector : ∃ h : Handle, h.db.store.slotCount = 1 ∧ h.db.InLockstep := by
  obtain ⟨h₀, h₁, hone⟩ := exists_unitVector ∅ (by simp)
  have hreach := hone.reachable unitPlatform WritesSucceed unitConfig_sized
    ⟨nofun, .inr fun _ => rfl⟩ ⟨nofun, .inr fun _ => rfl⟩
  exact ⟨h₁, hone.slotCount, (writesSucceed_inLockstep unitPlatform hreach).1⟩

section OneVector
variable {K : Type} [BEq K] [LT K] [DecidableLT K] {p : Platform K} {c : DatabaseConfig}
  {id : VectorId} {v : FloatVector} {m : Metadata} {h₀ h₁ h₂ : Handle}

/-- The graph of a new database. -/
theorem Created.index_eq {made : Database} (hmade : Created p c made) (htype : c.indexType = .hnsw)
    (hvalid : c.hnsw.validate = .ok ()) :
    made.index = .hnsw (HnswIndex.empty c.metric c.hnsw) := by
  have hb := hmade.built
  have hcreate : HnswIndex.create c.metric c.hnsw = .ok (HnswIndex.empty c.metric c.hnsw) := by
    rw [HnswIndex.create, hvalid]
    rfl
  simp only [builtIndex, htype, replay, hmade.slotCount, hcreate] at hb
  exact (congrArg Prod.fst (Except.ok.inj hb)).symm

/-- The one vector is live, and the graph that was made for it can be saved. -/
theorem OneVector.saved (h : OneVector p c id v m h₀ h₁) (htype : c.indexType = .hnsw)
    (hef : c.hnsw.efConstruction < 4294967296 ∧ c.hnsw.efSearch < 4294967296) :
    ∃ g, h₁.db.index = .hnsw g ∧ g.liveCount = 1 ∧ g.nodeCount = 1 ∧ g.metric = c.metric ∧
      Savable g c.dimension ∧ h₁.db.config = c ∧ h₁.db.store.find id = some 0 ∧
      h₁.db.store.liveCount = 1 := by
  obtain ⟨made, hmade, hat⟩ := h.empty
  obtain ⟨grown, t, -, hgrown, hat'⟩ := h.one
  have hvalid := validate_hnsw h.valid htype
  have hdb : h₀.db = { made with dirty := false } := hat.db
  have hcons := hmade.store.consistent
  have hlive : made.store.liveCount = 0 := by
    have hle := hcons.liveCount_le
    rw [hmade.slotCount] at hle
    exact Nat.le_zero.mp hle
  have hindex := hmade.index_eq htype hvalid
  obtain ⟨happ, hindexed, hrest⟩ := hgrown
  rw [hdb] at happ hindexed hrest
  simp only [hindex, hmade.config] at happ hindexed hrest
  have hgrownConfig : grown.config = c := by rw [hrest]
  have hnew : made.store.contains id = false := by
    rw [VectorStore.contains, find_empty hcons hmade.slotCount]
    rfl
  rw [hat'.db]
  show ∃ g, grown.index = .hnsw g ∧ _
  generalize grown.index = i at hindexed
  generalize grown.addedFor = ids at hindexed
  cases hindexed with
  | @hnsw _ r hr =>
    have hsize : (HnswIndex.empty c.metric c.hnsw).nodeCount <
        (accessor p c.metric grown.store).size := by
      show 0 < grown.store.slotCount
      rw [happ.slotCount]
      exact Nat.succ_pos _
    obtain ⟨q, hq, ha, -⟩ := HnswIndex.add_appended p.std (accessor p c.metric grown.store) p.levelOf
      (HnswIndex.empty c.metric c.hnsw) hsize
    have hqr : q = r := Except.ok.inj (hq.symm.trans hr)
    subst hqr
    refine ⟨q, rfl, ?_, ?_, ha.metric, ?_, hgrownConfig, ?_, ?_⟩
    · rw [ha.liveCount]
      rfl
    · rw [ha.nodeCount]
      rfl
    · exact HnswIndex.add_savable p.std (accessor p c.metric grown.store) p.levelOf
        (HnswIndex.empty_savable c.metric ((HnswConfig.validate_eq_ok_iff _).mp hvalid) hef
          (validate_dimension h.valid)) hsize hr (.inr (show 0 < kNoUpperLinks by decide))
    · show grown.store.find id = some 0
      rw [happ.find fun _ => hnew, if_pos ⟨rfl, rfl⟩, hmade.slotCount]
    · show grown.store.liveCount = 1
      rw [happ.liveCount, hlive]
      rfl

/-- The file system fails after the access that is counted `n`. -/
def dyingAfter (n : Nat) : Environment :=
  ⟨fun _ _ => none, fun k => if k ≤ n then .done else .failed "No space left on device"⟩

/-- A flush that is cut short between its two files. -/
theorem exec_flush_dying {h : Handle} {g : HnswIndex} (hdirty : h.db.dirty = true)
    (hg : h.db.index = .hnsw g) :
    exec (flush (dyingAfter h.files.clock)) h = (.error (.io "No space left on device"),
      { h with files := { h.files.tick.tick with
        vectors := some (writeVectorFile h.db.store)
        torn := true } }) := by
  have hfirst : (dyingAfter h.files.clock).file h.files.clock = .done := by simp [dyingAfter]
  have hsecond : (dyingAfter h.files.clock).file h.files.tick.clock =
      .failed "No space left on device" := by simp [dyingAfter, Files.tick]
  rw [exec_flush, hdirty, if_pos rfl]
  simp only [writeAll, flushFiles, replaceFile, hg, exec_bind, exec_onDirectory, exec_get, exec_set,
    exec_modify, exec_throw, hfirst, hsecond]
  rfl

/-- A vector is removed, and the process dies between the two files of the flush: the
next one takes the old graph, which counts the vector as live. -/
theorem OneVector.torn_reopen (h : OneVector p c id v m h₀ h₁) (htype : c.indexType = .hnsw)
    (hsized : c.Sized)
    (hef : c.hnsw.efConstruction < 4294967296 ∧ c.hnsw.efSearch < 4294967296)
    (hr : (runs p fun _ _ _ => True).Reachable (.opened h₁)) :
    ∃ g : Handle, (runs p fun _ _ _ => True).Reachable (.opened g) ∧ ¬ g.db.InLockstep := by
  obtain ⟨g₁, hindex, hlive₁, hcount₁, hmetric, hsavable, hconfig, hfind, hlive⟩ := h.saved htype hef
  obtain ⟨grown, t, -, -, hat₁⟩ := h.one
  obtain ⟨h₂, hflush, hat₂⟩ := flush_quiet quiet_faultless hat₁.tables (by rw [hat₁.db])
  have hfind₂ : h₂.db.store.find id = some 0 := by
    rw [hat₂.db]
    exact hfind
  obtain ⟨s₃, u, h₃, hremoved, -, hremove, hat₃⟩ := remove_quiet quiet_faultless hat₂.tables hfind₂
  have hindex₃ : h₃.db.index = .hnsw (g₁.remove 0) := by
    rw [hat₃.db, hat₂.db]
    show h₁.db.index.remove 0 = _
    rw [hindex]
    rfl
  have hlive₃ : h₃.db.store.liveCount = 0 := by
    rw [hat₃.db]
    show s₃.liveCount = 0
    rw [hremoved.liveCount, hat₂.db]
    show h₁.db.store.liveCount - 1 = 0
    rw [hlive]
  have hslots₃ : h₃.db.store.slotCount = 1 := by
    rw [hat₃.db]
    show s₃.slotCount = 1
    rw [hremoved.slotCount, hat₂.db]
    exact h.slotCount
  have hdying := exec_flush_dying (h := h₃) (by rw [hat₃.db]) hindex₃
  have hr₂ : (runs p fun _ _ _ => True).Reachable (.opened h₂) := by
    refine hr.step ⟨.call .flush, faultless, trivial, ?_⟩
    rw [State.after_call, Operation.run, hflush]
  have hr₃ : (runs p fun _ _ _ => True).Reachable (.opened h₃) := by
    refine hr₂.step ⟨.call (.remove id), faultless, trivial, ?_⟩
    rw [State.after_call, Operation.run, exec_bind_pure, hremove]
  have hr₄ := hr₃.step (t := .opened _) ⟨.call .flush, dyingAfter h₃.files.clock, trivial, rfl⟩
  rw [Operation.run, hdying] at hr₄
  have hsound := reachable_sound p hr₄
  have hconfig₃ : h₃.db.config = c := by
    rw [hat₃.db, hat₂.db]
    exact hconfig
  obtain ⟨⟨hfiles, htables⟩, hdb⟩ : HandleSound False _ := hsound
  generalize hg₄ : ({ h₃ with files := { h₃.files.tick.tick with
    vectors := some (writeVectorFile h₃.db.store)
    torn := true } } : Handle) = h₄ at hr₄ hfiles htables hdb
  have hdb₄ : h₄.db = h₃.db := by rw [← hg₄]
  have hvectors : h₄.disk.files.vectors = some (writeVectorFile h₃.db.store) := by
    rw [← hg₄]
    rfl
  have hfile : h₄.disk.files.index =
      some ⟨writeHnswFile g₁ c.dimension, h₁.db.addedFor⟩ := by
    have hkept : h₄.disk.files.index = h₃.files.index := by
      rw [← hg₄]
      rfl
    rw [hkept, hat₃.files.index, hat₂.files.index, Files.flushed, hindex, hconfig]
  rw [hdb₄, hconfig₃] at hfiles htables
  obtain ⟨s, next, hstore, hheld, -, hopen⟩ := reopen_spec p faultless (d := h₄.disk) h.valid
    hsized hfiles htables.committed
  have hs : s = h₃.db.store := by
    have hheld := hheld.resolve_right fun hn => by rw [hvectors] at hn; cases hn.1
    rw [hdb₄] at hdb
    exact writeVectorFile_injective hstore.consistent hdb.store.consistent
      (Option.some.inj (hheld.symm.trans hvectors))
  subst hs
  have hread : readHnswFile (writeHnswFile g₁ c.dimension) h₃.db.store.slotCount c.metric
      c.dimension = .ok { g₁ with rng := g₁.rngState } := by
    rw [hslots₃, ← hmetric, ← hcount₁]
    exact hsavable.read_write
  obtain ⟨db, e, hexec, -, -, ho, -⟩ := (hopen.conseq (fun _ h => h) (fun _ _ h => h)
    fun _ _ hf => hf.2.2 quiet_faultless).returns (s := h₄.disk.directory)
    ⟨.refl _, MetadataStore.holds_fresh _⟩
  refine ⟨⟨e, db⟩, (hr₄.step ⟨.crash, faultless, trivial, rfl⟩).step
    ⟨.reopen, faultless, trivial, ?_⟩, fun hlock => ?_⟩
  · show _ = State.ofCall (exec (openDatabase p faultless) h₄.disk.directory)
    rw [show h₄.disk.directory = _ from rfl, hexec]
    rfl
  · obtain ⟨g, hg, hstep⟩ := hlock (by rw [ho.config]; exact htype)
    have hsize := hstep.size
    rw [ho.store, hlive₃] at hsize
    rcases ho.index with ⟨g', hg', -, file, hfile', -, hread'⟩ | ⟨-, hnone⟩
    · rw [hfile] at hfile'
      cases hfile'
      rw [hread] at hread'
      cases hread'
      rw [hg'] at hg
      cases hg
      rw [hlive₁] at hsize
      cases hsize
    · exact hnone quiet_faultless _ _ ⟨htype, _, hfile, rfl, hread⟩

end OneVector

theorem torn_flush_not_inLockstep :
    ¬ ∀ h, (runs unitPlatform fun _ _ _ => True).Reachable (.opened h) → h.db.InLockstep := by
  obtain ⟨h₀, h₁, hone⟩ := exists_unitVector ∅ (by simp)
  have hr := hone.reachable unitPlatform (fun _ _ _ => True) unitConfig_sized trivial trivial
  obtain ⟨g, hg, hnot⟩ := hone.torn_reopen rfl unitConfig_sized (by decide) hr
  exact fun hclaim => hnot (hclaim g hg)

/-- After a whole flush and a crash the index that is opened is in lockstep. -/
theorem opensTogether_one_vector :
    ∃ (disk : Disk) (db : Database) (d : Directory), disk.files.torn = false ∧
      exec (openDatabase unitPlatform faultless) disk.directory = (.ok db, d) ∧
      db.InLockstep := by
  obtain ⟨h₀, h₁, hone⟩ := exists_unitVector ∅ (by simp)
  have hr₁ := hone.reachable unitPlatform OpensTogether unitConfig_sized
    (fun h => by cases h) fun h => by cases h
  obtain ⟨g, hindex, -⟩ := hone.saved rfl (by decide)
  obtain ⟨grown, t, -, -, hat₁⟩ := hone.one
  obtain ⟨h₂, hflush, hat₂⟩ := flush_quiet quiet_faultless hat₁.tables (by rw [hat₁.db])
  have hr₂ : (runs unitPlatform OpensTogether).Reachable (.opened h₂) := by
    refine hr₁.step ⟨.call .flush, faultless, (fun h => by cases h), ?_⟩
    rw [State.after_call, Operation.run, hflush]
  have hr₃ := hr₂.step (t := .closed h₂.disk) ⟨.crash, faultless, (fun h => by cases h), rfl⟩
  have htorn : h₂.disk.files.torn = false := by
    rw [Directory.disk, hat₂.files.torn, Files.flushed, hindex]
  obtain ⟨⟨hfiles, htables⟩, hdb⟩ : HandleSound False h₂ := reachable_sound unitPlatform hr₂
  obtain ⟨s, next, -, -, -, hopen⟩ := reopen_spec unitPlatform faultless (d := h₂.disk) hdb.valid
    hdb.sized hfiles htables.committed
  obtain ⟨db, d, hexec, -⟩ := (hopen.conseq (fun _ h => h) (fun _ _ h => h)
    fun _ _ hf => hf.2.2 quiet_faultless).returns (s := h₂.disk.directory)
    ⟨.refl _, MetadataStore.holds_fresh _⟩
  refine ⟨h₂.disk, db, d, htorn, hexec, ?_⟩
  have hr₄ : (runs unitPlatform OpensTogether).Reachable (.opened ⟨d, db⟩) := by
    refine hr₃.step ⟨.reopen, faultless, fun _ d hd => ?_, ?_⟩
    · cases hd
      exact .inl htorn
    · rw [State.after_reopen, hexec, State.ofCall]
  exact opensTogether_inLockstep unitPlatform hr₄

end VectorDb.Db
