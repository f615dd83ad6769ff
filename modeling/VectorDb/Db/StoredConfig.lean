import VectorDb.Db.Lockstep
import VectorDb.Index.HnswRuns

/-!
The configuration in its two places: as text in the tables and as words in the header
of index.hnsw, where the search widths have 32 bits.
-/
set_option autoImplicit false

namespace VectorDb.Db

open VectorDb.Lib VectorDb.Storage VectorDb.Index Throwing

/-- The search widths fit the header of index.hnsw. -/
def DatabaseConfig.Narrow (c : DatabaseConfig) : Prop :=
  c.hnsw.efConstruction < 4294967296 ∧ c.hnsw.efSearch < 4294967296

/-- A graph that was built with `c`. -/
structure GraphOf (c : DatabaseConfig) (g : HnswIndex) : Prop where
  config : g.config = c.hnsw
  metric : g.metric = c.metric
  savable : c.Narrow → Savable g c.dimension

/-- index.hnsw was written with the store of vectors.bin. -/
def Files.Saved (c : DatabaseConfig) (f : Files) : Prop :=
  ∃ (s : VectorStore) (g : HnswIndex) (ids : List VectorId), s.Consistent ∧
    f.vectors = some (writeVectorFile s) ∧ f.index = some ⟨writeHnswFile g c.dimension, ids⟩ ∧
    g.nodeCount = s.slotCount ∧ GraphOf c g

/-- The database has the configuration `c`, in memory and where nothing is dirty in its
files. -/
structure Handle.Keeps (c : DatabaseConfig) (h : Handle) : Prop where
  sound : HandleSound False h
  config : h.db.config = c
  graph : ∀ g, h.db.index = .hnsw g → GraphOf c g
  saved : c.indexType = .hnsw → h.db.dirty = false → h.files.Saved c

section Files
variable {c : DatabaseConfig} {f g : Files}

theorem Files.Saved.same (hs : f.Saved c) (h : g.Same f) : g.Saved c := by
  obtain ⟨s, w, ids, hs, hvectors, hindex, hrest⟩ := hs
  exact ⟨s, w, ids, hs, h.vectors.trans hvectors, h.index.trans hindex, hrest⟩

theorem Files.saved_flushed {db : Database} (hdb : DatabaseSound False db)
    (hconfig : db.config = c) (htype : c.indexType = .hnsw)
    (hgraph : ∀ g, db.index = .hnsw g → GraphOf c g) : (f.flushed db).Saved c := by
  have hfits := hdb.index
  cases hi : db.index with
  | bruteForce =>
    rw [hi, hconfig, htype] at hfits
    cases hfits
  | hnsw g =>
    rw [hi] at hfits
    refine ⟨db.store, g, db.addedFor, hdb.store.consistent, f.flushed_vectors db, ?_,
      hfits.2.nodeCount, hgraph g hi⟩
    rw [Files.flushed, hi, hconfig]

/-- What is read back of a saved graph. -/
theorem GraphOf.read_iff {w : HnswIndex} (hw : GraphOf c w) :
    (∃ g, readHnswFile (writeHnswFile w c.dimension) w.nodeCount c.metric c.dimension = .ok g ∧
      g.config = c.hnsw) ↔ c.Narrow := by
  constructor
  · rintro ⟨g, hread, hconfig⟩
    obtain ⟨f, hf⟩ := readHnswFile_eq_ok hread
    obtain ⟨-, -, -, hc, he⟩ := parseHnswFileHeader_write hf.header
    rw [← hf.config, hconfig, hw.config] at hc he
    exact ⟨by omega, by omega⟩
  · intro hnarrow
    have hread := (hw.savable hnarrow).read_write
    rw [hw.metric] at hread
    exact ⟨_, hread, hw.config⟩

end Files

section Flush
variable (env : Environment) (h : Handle) (id : VectorId) (m : Metadata)

theorem finishInsert_clean (hclean : (exec (finishInsert env id m) h).2.db.dirty = false) :
    h.db.dirty = false := by
  cases hm : m.isEmpty with
  | true => simp [finishInsert, hm] at hclean
  | false =>
    simp only [finishInsert, hm, Bool.not_false, if_true, exec_bind, exec_onDirectory,
      exec_onMetadata, exec_update] at hclean
    rcases hexec : exec (MetadataStore.set env.sql id m) h.metadata with ⟨r, s⟩
    rw [hexec] at hclean
    cases r with
    | error e => exact hclean
    | ok u => cases hclean

/-- A flush after which nothing is dirty has written what was. -/
theorem flush_clean (hclean : (exec (flush env) h).2.db.dirty = false) :
    (exec (flush env) h).2.files.Same h.files ∧ h.db.dirty = false ∨
      (exec (flush env) h).2.files.Same (h.files.flushed h.db) := by
  rw [exec_flush] at hclean ⊢
  cases hd : h.db.dirty with
  | false => exact .inl ⟨.refl _, rfl⟩
  | true =>
    refine .inr ?_
    simp only [hd, if_true] at hclean ⊢
    have hfiles := flushFiles_spec env h.db (f := h.files) (R := fun _ => True) h.toDirectory
      ⟨.refl _, trivial⟩
    rw [writeAll, exec_bind, exec_onDirectory] at hclean ⊢
    rcases hexec : exec (flushFiles env h.db) h.toDirectory with ⟨r, d⟩
    rw [hexec] at hfiles hclean
    cases r with
    | error e =>
      have hdirty : h.db.dirty = false := hclean
      rw [hd] at hdirty
      cases hdirty
    | ok u =>
      simp only [exec_bind, exec_onDirectory, exec_onMetadata]
      rcases exec (MetadataStore.setConfig env.sql kKeyNextId (toString h.db.nextAutoId.val))
        d.metadata with ⟨r, s⟩
      cases r <;> exact hfiles.1

/-- A flush that returns leaves nothing dirty. -/
theorem flush_returns {h h' : Handle} (hexec : exec (flush env) h = (.ok (), h')) :
    h'.db.dirty = false := by
  rw [exec_flush] at hexec
  cases hd : h.db.dirty with
  | false =>
    rw [hd, if_neg (by simp)] at hexec
    cases hexec
    exact hd
  | true =>
    rw [hd, if_pos rfl, writeAll, exec_bind] at hexec
    rcases hfiles : exec (onDirectory (flushFiles env h.db)) h with ⟨r, g⟩
    rw [hfiles] at hexec
    cases r with
    | error e => cases hexec
    | ok u =>
      simp only [exec_bind, exec_onDirectory, exec_onMetadata] at hexec
      rcases hset : exec (MetadataStore.setConfig env.sql kKeyNextId
        (toString h.db.nextAutoId.val)) g.metadata with ⟨r, s⟩
      rw [hset] at hexec
      cases r with
      | error e => cases hexec
      | ok u =>
        cases hexec
        rfl

end Flush

section Runs
variable {K : Type} [BEq K] [LT K] [DecidableLT K] (p : Platform K)

/-- The place of the next node in the graph is one that index.hnsw can name. -/
def State.OffsetFits : State → Prop
  | .opened h => ∀ g, h.db.index = .hnsw g → g.OffsetFits p.levelOf
  | _ => True

/-- A database is made with `c`, vectors are inserted and it is flushed. -/
def InsertsInto (c : DatabaseConfig) (event : Event) (_ : Environment) (s : State) : Prop :=
  match event with
  | .create config _ => config = c
  | .call (.insert _ _ _) | .call (.insertAuto _ _) => s.OffsetFits p
  | .call .flush => True
  | _ => False

def State.Keeps (c : DatabaseConfig) : State → Prop
  | .opened h => h.Keeps c
  | _ => True

variable (env : Environment) {c : DatabaseConfig} {h h' : Handle} {id : VectorId}
  {v : FloatVector} {m : Metadata}

theorem Created.graphOf {made : Database} (hmade : Created p c made) (hv : c.validate = .ok ())
    {g : HnswIndex} (hg : made.index = .hnsw g) : GraphOf c g := by
  cases htype : c.indexType with
  | bruteForce =>
    have hb := hmade.built
    rw [builtIndex, htype] at hb
    have hnone : VectorIndex.bruteForce = made.index := congrArg Prod.fst (Except.ok.inj hb)
    cases hnone.trans hg
  | hnsw =>
    have hvalid := validate_hnsw hv htype
    rw [hmade.index_eq htype hvalid] at hg
    cases hg
    exact ⟨rfl, rfl, fun hnarrow => HnswIndex.empty_savable c.metric
      ((HnswConfig.validate_eq_ok_iff _).mp hvalid) hnarrow (validate_dimension hv)⟩

/-- A new database keeps its configuration. -/
theorem create_keeps (hsized : c.Sized) (hv : c.validate = .ok ()) :
    (State.ofCall (exec (create p env c) newDirectory)).Keeps c := by
  have hsound := create_sound p env hsized hv (b := False)
  have hspec := create_spec p env hv newDirectory ⟨.refl _, MetadataStore.holds_fresh _⟩
  rcases hexec : exec (create p env c) newDirectory with ⟨r, d⟩
  rw [hexec] at hsound hspec
  cases r with
  | error e => trivial
  | ok db =>
    obtain ⟨made, hmade, hat⟩ := hspec
    have hdb : db = { made with dirty := false } := hat.db
    have hconfig : db.config = c := by rw [hdb]; exact hmade.config
    have hgraph : ∀ g, db.index = .hnsw g → GraphOf c g := fun g hg => by
      rw [hdb] at hg
      exact hmade.graphOf p hv hg
    refine ⟨hsound, hconfig, hgraph, fun htype _ => ?_⟩
    have hflushed : newDirectory.files.flushed made = newDirectory.files.flushed db := by
      rw [hdb]
      rfl
    exact (Files.saved_flushed hsound.database hconfig htype hgraph).same (hflushed ▸ hat.files)

theorem insert_keeps (hh : h.Keeps c) (hfits : (State.opened h).OffsetFits p) :
    (exec (insert p env id v m) h).2.Keeps c := by
  have hsound : HandleSound False (exec (insert p env id v m) h).2 := insert_sound p env hh.sound
  cases hc : h.db.store.insertCheck id v with
  | error e =>
    rw [exec_insert_rejected p env hc]
    exact hh
  | ok u =>
    obtain ⟨db, hg, hexec⟩ := exec_insert_accepted p env (m := m)
      hh.sound.database.store.consistent hh.sound.database.index hc
    rw [hexec] at hsound ⊢
    have hwrote := finishInsert_wrote env { h with db := db } id m
    have hclean := finishInsert_clean env { h with db := db } id m
    generalize (exec (finishInsert env id m) { h with db := db }).2 = g at hsound hwrote hclean ⊢
    have hflags : db.config = h.db.config ∧ db.dirty = h.db.dirty := by
      rw [hg.rest]
      exact ⟨rfl, rfl⟩
    refine ⟨hsound, hwrote.config.trans (hflags.1.trans hh.config), fun w hw => ?_,
      fun htype hd => ?_⟩
    · rw [hwrote.index] at hw
      obtain ⟨-, hindexed, -⟩ := hg
      have hold := hh.graph
      have hplace : ∀ w, h.db.index = .hnsw w → w.OffsetFits p.levelOf := hfits
      replace hw : db.index = .hnsw w := hw
      generalize h.db.index = i at hindexed hold hplace
      generalize db.index = j at hindexed hw
      generalize db.addedFor = ids at hindexed
      cases hindexed with
      | bruteForce => cases hw
      | @hnsw o r hr =>
        cases hw
        have hsize := (HnswIndex.add_eq_ok hr).2
        obtain ⟨q, hq, ha, -⟩ := HnswIndex.add_appended p.std _ p.levelOf o hsize
        cases hq.symm.trans hr
        have ho := hold o rfl
        exact ⟨ha.config.trans ho.config, ha.metric.trans ho.metric, fun hnarrow =>
          HnswIndex.add_savable p.std _ p.levelOf (ho.savable hnarrow) hsize hr (hplace o rfl)⟩
    · rw [hwrote.files]
      exact hh.saved htype (hflags.2 ▸ hclean hd)

theorem flush_keeps (hh : h.Keeps c) : (exec (flush env) h).2.Keeps c := by
  have hsound := flush_sound env h hh.sound
  have hflushed := flush_flushedTo env h
  have hfiles := flush_clean env h
  generalize (exec (flush env) h).2 = g at hsound hflushed hfiles ⊢
  refine ⟨hsound, hflushed.config.trans hh.config, fun w hw => hh.graph w (hflushed.index ▸ hw),
    fun htype hd => ?_⟩
  rcases hfiles hd with ⟨hsame, hclean⟩ | hsame
  · exact (hh.saved htype hclean).same hsame
  · exact (Files.saved_flushed hh.sound.database hh.config htype hh.graph).same hsame

/-- One event of such a run. -/
theorem State.after_keeps {s : State} {event : Event} (hs : s.Keeps c)
    (hok : InsertsInto p c event env s) : (s.after p env event).Keeps c := by
  cases s with
  | absent =>
    cases event with
    | create config sized =>
      obtain rfl : config = c := hok
      cases hv : config.validate with
      | error e => simp [State.after, hv, State.Keeps]
      | ok u =>
        rw [State.after_create p env sized hv]
        exact create_keeps p env sized hv
    | _ => trivial
  | closed d => cases event <;> trivial
  | opened h =>
    cases event with
    | call op =>
      rw [State.after_call]
      cases op with
      | insert id v m => exact insert_keeps p env hs hok
      | insertAuto v m =>
        rw [Operation.run_insertAuto]
        exact insert_keeps p env hs hok
      | flush => exact flush_keeps env hs
      | _ => exact hok.elim
    | create config sized => exact hs
    | _ => exact hok.elim

theorem reachable_keeps (hr : (runs p (InsertsInto p c)).Reachable (.opened h)) : h.Keeps c := by
  refine hr.invariant (P := State.Keeps c) ?_ ?_
  · rintro _ rfl
    trivial
  · rintro s _ hs ⟨event, env, hok, rfl⟩
    exact State.after_keeps p env hs hok

/-- The configuration is that of the tables, and so is that of the graph if it comes out
of its file. -/
structure Restored (c : DatabaseConfig) (f : Files) (db : Database) : Prop where
  config : db.config = c
  graph : c.indexType = .hnsw → ∃ g, db.index = .hnsw g ∧
    ReadsIndex c db.store f.index g db.addedFor ∧ g.config = db.config.hnsw

/-- What is opened from the files of a database with nothing left to flush. -/
theorem Handle.Keeps.open_restored (hh : h.Keeps c) (hclean : h.db.dirty = false)
    {quiet : Environment} (hq : quiet.Quiet) :
    ∃ db d, exec (openDatabase p quiet) h.disk.directory = (.ok db, d) ∧ db.config = c ∧
      (Restored c h.files db ↔ (c.indexType = .hnsw → c.Narrow)) := by
  obtain ⟨⟨hfiles, htables⟩, hdb⟩ := hh.sound
  rw [hh.config] at hfiles htables
  obtain ⟨s, id, hstore, hheld, -, hopen⟩ := reopen_spec p quiet (d := h.disk)
    (hh.config ▸ hdb.valid) (hh.config ▸ hdb.sized) hfiles htables.committed
  obtain ⟨db, d, hexec, -, -, ho, -⟩ := (hopen.conseq (fun _ h => h) (fun _ _ h => h)
    fun _ _ hf => hf.2.2 hq).returns (s := h.disk.directory)
    ⟨.refl _, MetadataStore.holds_fresh _⟩
  refine ⟨db, d, hexec, ho.config, ?_⟩
  cases htype : c.indexType with
  | bruteForce =>
    refine ⟨fun _ h => (nomatch h), fun _ => ⟨ho.config, fun h => ?_⟩⟩
    rw [htype] at h
    cases h
  | hnsw =>
    obtain ⟨t, w, ids, ht, hvectors, hindex, hcount, hw⟩ := hh.saved htype hclean
    have hst : s = t := by
      have hheld := hheld.resolve_right fun hn => by
        have hnone : h.files.vectors = none := hn.1
        rw [hvectors] at hnone
        cases hnone
      exact writeVectorFile_injective hstore.consistent ht
        (Option.some.inj (hheld.symm.trans hvectors))
    subst hst
    have hread := hw.read_iff
    rw [hcount] at hread
    constructor
    · intro hrestored _
      obtain ⟨g, -, ⟨-, file, hfile, -, hg⟩, hconfig⟩ := hrestored.graph htype
      rw [hindex] at hfile
      cases hfile
      rw [ho.store] at hg
      rw [ho.config] at hconfig
      exact hread.mp ⟨g, hg, hconfig⟩
    · intro hnarrow
      obtain ⟨g, hg, hconfig⟩ := hread.mpr (hnarrow rfl)
      refine ⟨ho.config, fun _ => ?_⟩
      rcases ho.index with ⟨g', hg', hread'⟩ | ⟨-, hnone⟩
      · have hsame : g' = g := by
          obtain ⟨-, file, hfile, -, hread'⟩ := hread'
          cases hindex.symm.trans hfile
          exact Except.ok.inj (hread'.symm.trans hg)
        subst hsame
        exact ⟨g', hg', ho.store ▸ hread', by rw [ho.config]; exact hconfig⟩
      · exact absurd ⟨htype, _, hindex, rfl, hg⟩ (hnone hq g ids)

/-- After any inserts and a flush that returns, the configuration is restored exactly if
the search widths of an HNSW database have 32 bits. -/
theorem flush_then_open_restored_iff
    (hr : (runs p (InsertsInto p c)).Reachable (.opened h)) {env quiet : Environment}
    (hflush : exec (flush env) h = (.ok (), h')) (hq : quiet.Quiet) :
    ∃ db d, exec (openDatabase p quiet) h'.disk.directory = (.ok db, d) ∧ db.config = c ∧
      (Restored c h'.files db ↔ (c.indexType = .hnsw → c.Narrow)) := by
  have hkeeps := flush_keeps env (reachable_keeps p hr)
  rw [hflush] at hkeeps
  exact hkeeps.open_restored p (flush_returns env hflush) hq

end Runs

theorem flush_then_open_restored_one_vector : ∃ (h' : Handle) (db : Database) (d : Directory),
    h'.db.store.slotCount = 1 ∧
      exec (openDatabase unitPlatform faultless) h'.disk.directory = (.ok db, d) ∧
      Restored unitConfig h'.files db := by
  obtain ⟨h₀, h₁, hone⟩ := exists_unitVector ∅ (by simp)
  obtain ⟨made, hmade, hat₀⟩ := hone.empty
  have hfits : (State.opened h₀).OffsetFits unitPlatform := by
    intro g hg
    rw [hat₀.db] at hg
    have hempty := hmade.index_eq rfl (by decide)
    cases hempty.symm.trans hg
    exact .inr (by decide)
  have hreach := hone.reachable unitPlatform (InsertsInto unitPlatform unitConfig)
    unitConfig_sized rfl hfits
  obtain ⟨grown, t, -, -, hat⟩ := hone.one
  obtain ⟨h', hflush, hat'⟩ := flush_quiet quiet_faultless hat.tables (by rw [hat.db])
  obtain ⟨db, d, hopen, -, hiff⟩ := flush_then_open_restored_iff unitPlatform hreach hflush
    quiet_faultless
  refine ⟨h', db, d, ?_, hopen, hiff.mpr fun _ => ⟨by decide, by decide⟩⟩
  rw [hat'.db]
  exact hone.slotCount

/-- A construction width of 2^32 + 2. -/
def wideConfig : DatabaseConfig := ⟨1, .l2Squared, .hnsw, ⟨2, 4294967298, 1, 15⟩, false⟩

theorem wide_config_not_restored :
    ¬ ∀ (h h' : Handle), (runs unitPlatform (InsertsInto unitPlatform wideConfig)).Reachable
        (.opened h) → exec (flush faultless) h = (.ok (), h') →
      ∃ db d, exec (openDatabase unitPlatform faultless) h'.disk.directory = (.ok db, d) ∧
        Restored wideConfig h'.files db := by
  intro hall
  have hv : wideConfig.validate = .ok () := by decide
  have hsized : wideConfig.Sized := by
    refine ⟨?_, ?_, ?_⟩ <;> decide
  obtain ⟨made, db, d, hmade, hcreate, hat⟩ := create_quiet unitPlatform quiet_faultless hv
  have hreach : (runs unitPlatform (InsertsInto unitPlatform wideConfig)).Reachable
      (.opened ⟨d, db⟩) := by
    refine .step (.start rfl) ⟨.create wideConfig hsized, faultless, rfl, ?_⟩
    rw [State.after_create _ _ _ hv, hcreate, State.ofCall]
  have hclean : db.dirty = false := by
    have hdb : db = { made with dirty := false } := hat.db
    rw [hdb]
  have hflush : exec (flush faultless) ⟨d, db⟩ = (.ok (), ⟨d, db⟩) := by
    rw [exec_flush]
    simp [hclean]
  obtain ⟨e, t, hopen, hrestored⟩ := hall _ _ hreach hflush
  obtain ⟨e', t', hopen', -, hiff⟩ := (reachable_keeps unitPlatform hreach).open_restored
    unitPlatform hclean quiet_faultless
  cases hopen.symm.trans hopen'
  have hnarrow := (hiff.mp hrestored rfl).1
  exact absurd hnarrow (by decide)

end VectorDb.Db
