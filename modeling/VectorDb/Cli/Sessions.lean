import VectorDb.Cli.CommandLine

/-!
What a script is told of its databases by the exit codes of the commands that it runs, one after
the other.
-/
set_option autoImplicit false

namespace VectorDb.Cli

open VectorDb.Lib VectorDb.Storage VectorDb.Util VectorDb.Index VectorDb.Db Throwing

/-- What a request makes of a catalogue. -/
def Request.after (c : Catalogue) : Request → Catalogue
  | .insert (some id) v m => c.after (.insert id v m)
  | .insert none v m => c.after (.insertAuto v m)
  | .delete id => c.after (.remove id)
  | _ => c

/-- Metadata with an empty key are stored in part. -/
def Request.KeysGiven : Request → Prop
  | .insert _ _ m => m.keys.any List.isEmpty = false
  | _ => True

section Requests
variable {K : Type} [BEq K] [LT K] [DecidableLT K] (p : Platform K) (env : Environment)

/-- A database whose journal shows a catalogue. -/
def ShowsCatalogue (config : DatabaseConfig) (c : Catalogue) (h : Handle) : Prop :=
  h.db.config = config ∧ ∃ j, h.Faithful p j ∧ j.Shows c

/-- A database of whose catalogue nothing is unsaved. -/
def HoldsCatalogue (config : DatabaseConfig) (c : Catalogue) (h : Handle) : Prop :=
  h.db.config = config ∧ ∃ j, h.Faithful p j ∧ j.live = j.saved ∧ j.Shows c

/-- A directory with a catalogue. -/
def IsCatalogue (config : DatabaseConfig) (c : Catalogue) (d : Disk) : Prop :=
  configOf d.tables = .ok config ∧ DiskSound False d ∧ ∃ j, d.Carries p j ∧ j.Shows c

variable {p} {config : DatabaseConfig} {c : Catalogue} {h g : Handle} {d : Disk}

theorem HoldsCatalogue.shows (hh : HoldsCatalogue p config c h) : ShowsCatalogue p config c h := by
  obtain ⟨hconfig, j, hj, -, hs⟩ := hh
  exact ⟨hconfig, j, hj, hs⟩

/-- A directory with a journal is opened, where nothing fails; its configuration stays. -/
theorem openDatabase_config {j : Journal} (hd : DiskSound False d) (hj : d.Carries p j)
    (hconfig : configOf d.tables = .ok config) :
    match exec (openDatabase p env) d.directory with
    | (.ok db, _) => db.config = config
    | (.error _, t) => configOf t.disk.tables = .ok config ∧ ¬ env.Quiet := by
  rcases hd.sound with habandoned | ⟨stored, hv, hsized, hfiles, htables⟩
  · obtain ⟨-, -, s, next, hfile, -⟩ := hj
    rw [habandoned.vectors] at hfile
    cases hfile
  obtain rfl : stored = config :=
    Except.ok.inj ((htables.configOf hv hsized).symm.trans hconfig)
  obtain ⟨s, id, -, -, -, hopen⟩ := reopen_spec p env hv hsized hfiles htables
  have hspec := hopen d.directory ⟨.refl _, MetadataStore.holds_fresh _⟩
  rcases hexec : exec (openDatabase p env) d.directory with ⟨r, t⟩
  rw [hexec] at hspec
  cases r with
  | ok db => exact hspec.2.2.1.config
  | error e =>
    refine ⟨?_, hspec.2.2⟩
    rcases hspec.2.1 with h | h
    · rw [show t.disk.tables = d.tables from h, hconfig]
    · rw [show t.disk.tables = d.tables.withSchemaVersion from h, configOf_withSchemaVersion,
        hconfig]

/-- A database that is opened has the catalogue of the directory. -/
theorem openDatabase_catalogue (hd : IsCatalogue p config c d) :
    match exec (openDatabase p env) d.directory with
    | (.ok db, t) => HoldsCatalogue p config c ⟨t, db⟩
    | (.error _, t) => IsCatalogue p config c t.disk ∧ ¬ env.Quiet := by
  obtain ⟨hconfig, hsound, j, hj, hs⟩ := hd
  have hopened := openDatabase_config env hsound hj hconfig
  have hsound' : (State.after p env .reopen (.closed d)).Sound False :=
    State.after_sound p env (s := .closed d) hsound .reopen fun _ _ _ h => h.elim
  have hcarries : (State.after p env .reopen (.closed d)).Carries p j :=
    State.after_carries p env (s := .closed d) hsound hj (.inr trivial)
  rw [State.after_reopen] at hsound' hcarries
  rcases hexec : exec (openDatabase p env) d.directory with ⟨r, t⟩
  rw [hexec] at hopened hsound' hcarries
  cases r with
  | error e => exact ⟨⟨hopened.1, hsound', j, hcarries, hs⟩, hopened.2⟩
  | ok db => exact ⟨hopened, j, ⟨hsound', hcarries⟩, hj.1, hs⟩

/-- What a flush that fails leaves on the disk, if the memory is what was saved. -/
theorem carries_of_flushStopped {j : Journal} {t : Tables} (hc : Carries p j h.files t h.db)
    (hsaved : j.live = j.saved) (hg : FlushStopped env h.files t h.db g) : g.disk.Carries p j := by
  obtain ⟨s, next, ⟨hvectors, hnext, hcontents⟩, -⟩ := hc.saved
  have htables : g.disk.tables = t := hg.tables.2
  have hnext' : h.db.nextAutoId = next := by
    rw [hc.live.next, hsaved, hcontents.next]
  have hnew : ∀ f : Files, f.vectors = some (writeVectorFile h.db.store) →
      SavedIn p j.saved f t h.db.store next := fun f hf =>
    ⟨hf, hnext, hsaved ▸ hnext' ▸ hc.live⟩
  have hfiles : ∃ s, SavedIn p j.saved g.files t s next := by
    rcases hg.files with hf | ⟨hf | hf | hf, -⟩
    · exact ⟨_, hnew _ (hf.vectors.trans (h.files.flushed_vectors h.db))⟩
    · exact ⟨s, hf.vectors.trans hvectors, hnext, hcontents⟩
    · exact ⟨_, hnew _ hf.vectors⟩
    · exact ⟨_, hnew _ (hf.vectors.trans (h.files.flushed_vectors h.db))⟩
  obtain ⟨s, hs⟩ := hfiles
  refine ⟨hsaved, ?_, s, next, ?_⟩ <;> rw [htables]
  · exact hc.rows
  · exact hs

theorem configOf_disk (hh : HandleSound False h) : configOf h.disk.tables = .ok h.db.config :=
  Configured.configOf hh.directory.tables.committed hh.database.valid hh.database.sized

theorem destroy_config : (exec (destroy env) h).2.db.config = h.db.config := by
  rw [exec_destroy_files, (flush_flushedTo env _).config]

/-- Whether the destructor can flush or not, the catalogue stays. -/
theorem destroy_catalogue (hh : HoldsCatalogue p config c h) :
    IsCatalogue p config c (exec (destroy env) h).2.disk := by
  obtain ⟨hconfig, j, ⟨hsound, hc⟩, hsaved, hs⟩ := hh
  have hdestroyed := destroy_sound env h hsound
  have hstored := configOf_disk hdestroyed
  rw [destroy_config, hconfig] at hstored
  refine ⟨hstored, hdestroyed.disk, j, ?_, hs⟩
  rcases hexec : exec (flush env) h with ⟨r, g⟩
  cases r with
  | ok u =>
    have hflush : j.flush = j := by
      obtain ⟨live, saved, metadata⟩ := j
      obtain rfl : live = saved := hsaved
      rfl
    rw [exec_destroy_of_flush env hexec]
    exact hflush ▸ close_carries p env hsound hc hexec
  | error e =>
    obtain ⟨t, ht, hc⟩ := hc
    have hdestroy : (exec (destroy env) h).2 = g := by
      rw [destroy, exec_tryCatch, hexec]
      rfl
    cases hd : h.db.dirty with
    | false =>
      rw [exec_flush, hd, if_neg (by simp)] at hexec
      cases hexec
    | true =>
      have hspec := flush_spec env hd h (at_of_holds ht h.db)
      rw [hexec] at hspec
      rw [hdestroy]
      exact carries_of_flushStopped env hc hsaved hspec

theorem run_config (op : Db.Operation) (hh : HandleSound False h) :
    (exec (op.run p env) h).2.db.config = h.db.config := by
  have hout := op.outcome p env hh
  generalize (exec (op.run p env) h).2 = g at hout
  cases hout with
  | unchanged => rfl
  | read n => rfl
  | inserted _ _ hgrown hg => rw [hg.config, hgrown.rest]
  | upserted _ _ _ hg => exact hg.config
  | removed _ _ hg => exact hg.config
  | metadataSet _ hg => exact hg.config
  | rebuilt _ hg => exact hg.config
  | compacted _ _ hg => exact hg.config
  | flushed hg => exact hg.config

/-- What a call that returns makes of the catalogue. -/
theorem run_shows (op : Db.Operation) (hh : ShowsCatalogue p config c h)
    (hexec : exec (op.run p env) h = (.ok (), g)) : ShowsCatalogue p config (c.after op) g := by
  obtain ⟨hconfig, j, hj, hs⟩ := hh
  have hsame := run_config (p := p) env op hj.1
  have hsound := op.run_sound p env h hj.1
  have hcarries := op.run_carries p env j h hj
  rw [hexec] at hsame hsound hcarries
  exact ⟨hsame.trans hconfig, j.after op, ⟨hsound, hcarries⟩, hs.after p env hj.2 hexec⟩

theorem insert_catalogue (id : VectorId) (v : FloatVector) (m : Metadata) :
    Triple (HoldsCatalogue p config c) (insert p env id v m)
      (fun _ => ShowsCatalogue p config (c.insert id v m))
      (fun _ g => env.Quiet → m.keys.any List.isEmpty = false → HoldsCatalogue p config c g) := by
  intro h hh
  rcases hexec : exec (insert p env id v m) h with ⟨r, g⟩
  cases r with
  | ok u => exact run_shows env (.insert id v m) hh.shows hexec
  | error e =>
    intro hq hm
    cases hcheck : h.db.store.insertCheck id v with
    | error e =>
      rw [exec_insert_rejected p env hcheck] at hexec
      cases hexec
      exact hh
    | ok u =>
      obtain ⟨-, j, ⟨hsound, t, ht, -⟩, -⟩ := hh
      obtain ⟨_, _, -, hinsert, -⟩ := insert_quiet p hq hsound ht hcheck hm
      rw [hexec] at hinsert
      cases hinsert

theorem insertAuto_catalogue (v : FloatVector) (m : Metadata) :
    Triple (HoldsCatalogue p config c) (insertAuto p env v m)
      (fun _ => ShowsCatalogue p config (c.insert c.next v m))
      (fun _ g => env.Quiet → m.keys.any List.isEmpty = false → HoldsCatalogue p config c g) := by
  intro h hh
  have hspec := insert_catalogue env h.db.nextAutoId v m h hh
  have hnext : h.db.nextAutoId = c.next := by
    obtain ⟨-, j, ⟨-, t, -, hc⟩, -, hs⟩ := hh
    rw [hc.live.next, hs.next]
  rw [hnext] at hspec
  rw [exec_insertAuto, hnext]
  rcases hexec : exec (insert p env c.next v m) h with ⟨r, g⟩
  rw [hexec] at hspec
  cases r <;> exact hspec

/-- The answer tells whether there was such a vector. -/
theorem remove_catalogue (id : VectorId) :
    Triple (HoldsCatalogue p config c) (remove env id)
      (fun removed g => ShowsCatalogue p config (c.set id none) g ∧ (removed = false → c.set id none = c))
      (fun _ _ => ¬ env.Quiet) := by
  intro h hh
  rcases hexec : exec (remove env id) h with ⟨r, g⟩
  cases hfind : h.db.store.find id with
  | none =>
    rw [exec_remove_absent env hfind] at hexec
    cases hexec
    have hset : c.set id none = c := by
      obtain ⟨-, j, ⟨-, t, -, hc⟩, -, hs⟩ := hh
      have hcontains := hc.live.contains id
      rw [VectorStore.contains, hfind, ← hs.isSome, Option.isSome_none] at hcontains
      have hentry : c.entries id = none := by simpa using hcontains.symm
      rw [Catalogue.set, ← hentry, Function.update_eq_self]
    rw [hset]
    exact ⟨hh.shows, fun _ => rfl⟩
  | some slot =>
    cases r with
    | ok removed =>
      refine ⟨run_shows env (.remove id) hh.shows (exec_bind_ok hexec), fun hremoved => ?_⟩
      obtain ⟨-, j, ⟨-, t, ht, -⟩, -⟩ := hh
      obtain ⟨s, -, hfinish⟩ := exec_remove_present env hfind
      have hspec := finishRemove_spec env id _ (at_of_holds ht
        { h.db with store := s, index := h.db.index.remove slot })
      rw [← hfinish, hexec] at hspec
      exact absurd (hspec.1.symm.trans hremoved) (by decide)
    | error e =>
      intro hq
      obtain ⟨-, j, ⟨-, t, ht, -⟩, -⟩ := hh
      obtain ⟨_, _, _, -, -, hremove, -⟩ := remove_quiet hq ht hfind
      rw [hexec] at hremove
      cases hremove

theorem flush_catalogue :
    Triple (ShowsCatalogue p config c) (flush env) (fun _ => HoldsCatalogue p config c)
      (fun _ _ => ¬ env.Quiet) := by
  rintro h ⟨hconfig, j, hj, hs⟩
  have hsame := run_config (p := p) env .flush hj.1
  have hsound := flush_sound env h hj.1
  have hcarries := flush_carries p env j h hj
  rw [Db.Operation.run] at hsame
  rcases hexec : exec (flush env) h with ⟨r, g⟩
  rw [hexec] at hsame hsound hcarries
  cases r with
  | ok u => exact ⟨hsame.trans hconfig, j.flush, ⟨hsound, hcarries⟩, rfl, hs.entries, hs.bare, hs.next⟩
  | error e =>
    intro hq
    have hok := flush_quiet_ok hq h
    rw [hexec] at hok
    cases hok

theorem finishRebuild_quiet_ok {α : Type} (hq : env.Quiet) (result : α) (h : Handle) :
    (exec (finishRebuild env result) h).1 = .ok result := by
  have hok := flush_quiet_ok hq { h with db := { h.db with dirty := true } }
  rw [exec_finishRebuild]
  rcases hexec : exec (flush env) { h with db := { h.db with dirty := true } } with ⟨r, g⟩
  rw [hexec] at hok
  obtain rfl : r = .ok () := hok
  rfl

theorem rebuildIndex_catalogue :
    Triple (HoldsCatalogue p config c) (Db.rebuildIndex p env) (fun _ => HoldsCatalogue p config c)
      (fun _ _ => ¬ env.Quiet) := by
  rintro h ⟨hconfig, j, hj, -, hs⟩
  have hsame := run_config (p := p) env .rebuildIndex hj.1
  have hsound := rebuildIndex_sound p env hj.1
  have hcarries := rebuildIndex_carries p env j h hj
  rw [Db.Operation.run] at hsame
  rcases hexec : exec (Db.rebuildIndex p env) h with ⟨r, g⟩
  rw [hexec] at hsame hsound hcarries
  cases r with
  | ok u => exact ⟨hsame.trans hconfig, j.flush, ⟨hsound, hcarries⟩, rfl, hs.entries, hs.bare, hs.next⟩
  | error e =>
    intro hq
    obtain ⟨built, -, hrebuild⟩ := exec_rebuildIndex p env hj.1.database.valid
      hj.1.database.store.consistent
    have hok := finishRebuild_quiet_ok env hq ()
      { h with db := { h.db with index := built.1, addedFor := built.2 } }
    rw [← hrebuild, hexec] at hok
    cases hok

theorem compact_catalogue :
    Triple (HoldsCatalogue p config c) (Db.compact p env) (fun _ => HoldsCatalogue p config c)
      (fun _ _ => ¬ env.Quiet) := by
  rintro h ⟨hconfig, j, hj, hsaved, hs⟩
  have hsame := run_config (p := p) env .compact hj.1
  have hsound := compact_sound p env hj.1
  have hcarries := compact_carries p env j h hj
  rw [Db.Operation.run, exec_bind_pure] at hsame
  rcases hexec : exec (Db.compact p env) h with ⟨r, g⟩
  rw [hexec] at hsame hsound hcarries
  cases r with
  | ok u =>
    refine ⟨hsame.trans hconfig, _, ⟨hsound, hcarries⟩, ?_⟩
    rw [Journal.after]
    split
    · exact ⟨hsaved, hs⟩
    · exact ⟨rfl, hs.entries, hs.bare, hs.next⟩
  | error e =>
    intro hq
    have hstore := hj.1.database.store
    by_cases hzero : h.db.store.tombstoneCount = 0
    · rw [exec_compact_none p env hzero] at hexec
      cases hexec
    · obtain ⟨s, built, -, -, hcompact⟩ := exec_compact_some p env hj.1.database.valid
        hstore.consistent hstore.dimension hstore.normalizes hzero
      have hok := finishRebuild_quiet_ok env hq h.db.store.tombstoneCount { h with db :=
        { h.db with store := s, index := built.1, addedFor := built.2 } }
      rw [← hcompact, hexec] at hok
      cases hok

/-- What only reads changes nothing, however it ends. -/
theorem onlyReads_catalogue {α : Type} {x : Call α} (hx : OnlyReads x)
    (hsound : Maintains (HandleSound False) x) : Maintains (HoldsCatalogue p config c) x := by
  rintro h ⟨hconfig, j, ⟨hh, t, ht, hc⟩, hsaved, hs⟩
  obtain ⟨n, hn⟩ := hx h h h.ticked_refl
  refine ⟨?_, j, ⟨hsound h hh, ?_⟩, hsaved, hs⟩ <;> rw [hn]
  · exact hconfig
  · exact ⟨t, ⟨⟨ht.1.1, ht.1.2, ht.1.3⟩, ht.2⟩, hc⟩

/-- What fails only where something is wrong with the files promises nothing there. -/
theorem triple_of_not_quiet {α : Type} {P : Handle → Prop} {Q : α → Handle → Prop}
    {E : Error → Handle → Prop} {x : Call α} (hx : Triple P x Q fun _ _ => ¬ env.Quiet) :
    Triple P x Q fun e g => env.Quiet → E e g :=
  hx.conseq (fun _ h => h) (fun _ _ h => h) fun _ _ hn hq => absurd hq hn

/-- A request that is answered has its effect on the catalogue; one that fails where nothing is
wrong with the files has none. -/
theorem Request.run_catalogue (request : Request) :
    Triple (HoldsCatalogue p config c) (request.run p env)
      (fun answer g => HoldsCatalogue p config (request.after c) g ∧
        (exitCode (.ok answer) ≠ kExitOk → request.after c = c))
      (fun _ g => env.Quiet → request.KeysGiven → HoldsCatalogue p config c g) := by
  have hflush : ∀ (c' : Catalogue) (answer : Answer),
      (exitCode (.ok answer) ≠ kExitOk → c' = c) →
      Triple (ShowsCatalogue p config c') (do flush env; return answer)
        (fun answer g => HoldsCatalogue p config c' g ∧ (exitCode (.ok answer) ≠ kExitOk → c' = c))
        (fun _ g => env.Quiet → request.KeysGiven → HoldsCatalogue p config c g) := fun c' answer hcode =>
    Triple.bind (triple_of_not_quiet env (flush_catalogue env)) fun _ =>
      Triple.pure fun _ hg => ⟨hg, hcode⟩
  have hreads : ∀ {α : Type} {x : Call α}, Maintains (HoldsCatalogue p config c) x →
      Triple (HoldsCatalogue p config c) x (fun _ => HoldsCatalogue p config c)
        (fun _ g => env.Quiet → request.KeysGiven → HoldsCatalogue p config c g) := fun hx =>
    hx.triple.conseq (fun _ h => h) (fun _ _ h => h) fun _ _ hg _ _ => hg
  cases request with
  | info => exact Triple.pure fun _ hh => ⟨hh, fun _ => rfl⟩
  | insert id v m =>
    cases id with
    | some id =>
      exact Triple.bind (insert_catalogue env id v m) fun _ => hflush _ _ fun hne => absurd rfl hne
    | none =>
      exact Triple.bind (insertAuto_catalogue env v m) fun id =>
        hflush _ _ fun hne => absurd rfl hne
  | get id =>
    refine Triple.bind (hreads (onlyReads_catalogue (onlyReads_getVector env id)
      fun _ hh => getVector_sound env hh)) fun stored => ?_
    cases stored with
    | none => exact Triple.throw fun _ hg _ _ => hg
    | some stored => exact Triple.pure fun _ hg => ⟨hg, fun _ => rfl⟩
  | delete id =>
    refine Triple.bind (triple_of_not_quiet env (remove_catalogue env id)) fun removed => ?_
    rintro g ⟨hg, habsent⟩
    refine hflush _ _ (fun hne => habsent ?_) g hg
    cases removed with
    | false => rfl
    | true => exact absurd rfl hne
  | search query options =>
    exact Triple.bind (hreads (onlyReads_catalogue (onlyReads_search p env query options)
      (search_sound p env query options))) fun _ => Triple.pure fun _ hg => ⟨hg, fun _ => rfl⟩
  | rebuildIndex =>
    exact Triple.bind (triple_of_not_quiet env (rebuildIndex_catalogue env)) fun _ =>
      Triple.pure fun _ hg => ⟨hg, fun _ => rfl⟩
  | compact =>
    exact Triple.bind (triple_of_not_quiet env (compact_catalogue env)) fun _ =>
      Triple.pure fun _ hg => ⟨hg, fun _ => rfl⟩

/-- A command on a catalogue: what it answers it has done, and what it could not do it has left
alone, where nothing is wrong with the files. -/
theorem withDatabase_catalogue (read : Reading Request) (args : Args)
    (hd : IsCatalogue p config c d) :
    match withDatabase p env read args d with
    | (.ok answer, d') => ∃ request, (exec read args).1 = .ok request ∧
        IsCatalogue p config (request.after c) d' ∧
        (exitCode (.ok answer) ≠ kExitOk → request.after c = c)
    | (.error _, d') => env.Quiet →
        (∀ request, (exec read args).1 = .ok request → request.KeysGiven) →
        IsCatalogue p config c d' := by
  have hopened := openDatabase_catalogue env hd
  unfold withDatabase
  rcases hexec : exec (openDatabase p env) d.directory with ⟨r, t⟩
  rw [hexec] at hopened
  cases r with
  | error e => exact fun _ _ => hopened.1
  | ok db =>
    rcases exec read args with ⟨request, args'⟩
    cases request with
    | error e => exact fun _ _ => destroy_catalogue env hopened
    | ok request =>
      have hrun := request.run_catalogue env ⟨t, db⟩ hopened
      dsimp only
      rcases hanswer : exec (request.run p env) ⟨t, db⟩ with ⟨answer, g⟩
      rw [hanswer] at hrun
      cases answer with
      | error e => exact fun hq hkeys => destroy_catalogue env (hrun hq (hkeys request rfl))
      | ok answer => exact ⟨request, rfl, destroy_catalogue env hrun.1, hrun.2⟩

/-- A database that is made has an empty catalogue. -/
theorem create_catalogue (hv : config.validate = .ok ()) (hsized : config.Sized) :
    Triple (· = newDirectory) (Db.create p env config)
      (fun db d => HoldsCatalogue p config .empty ⟨d, db⟩) (fun _ _ => ¬ env.Quiet) := by
  rintro _ rfl
  have hspec := create_spec p env hv newDirectory ⟨.refl _, MetadataStore.holds_fresh _⟩
  have hsound := create_sound p env hsized hv (b := False)
  have hcarries := create_carries p env hv newDirectory rfl
  rcases hexec : exec (Db.create p env config) newDirectory with ⟨r, d⟩
  rw [hexec] at hspec hsound hcarries
  cases r with
  | error e => exact hspec
  | ok db =>
    obtain ⟨made, hmade, hat⟩ := hspec
    refine ⟨?_, .empty, ⟨hsound, hcarries⟩, rfl, fun _ => rfl, fun _ _ => rfl, rfl⟩
    rw [show db = _ from hat.db]
    exact hmade.config

end Requests

/-- What a script knows of its databases: their configurations and their catalogues. -/
abbrev Collections (Place : Type) := Place → Option (DatabaseConfig × Catalogue)

/-- What a command that succeeds makes of them. -/
def Collections.after {Place : Type} [DecidableEq Place] (locate : Locate Place)
    (c : Collections Place) : Option (Text × Job) → Collections Place
  | none => c
  | some (path, job) =>
    match locate path with
    | .error _ => c
    | .ok place => match job with
      | .create config => Function.update c place (some (config, .empty))
      | .ask request => Function.update c place ((c place).map fun s => (s.1, request.after s.2))

def KeysGiven : Option (Text × Job) → Prop
  | some (_, .ask request) => request.KeysGiven
  | _ => True

section Sessions
variable {K : Type} [BEq K] [LT K] [DecidableLT K] (p : Platform K)
variable {Place : Type} [DecidableEq Place]

/-- The exit code tells what has happened, unless something is wrong with the files. -/
def Tells (env : Environment) (asked : Option (Text × Job)) (exit : Exit Place) : Prop :=
  exit.code = kExitOk ∨ env.Quiet ∧ KeysGiven asked

/-- Processes, one after the other, each with a current directory of its own, and what a script
takes their exit codes for. -/
def sessions : Transition (World Place × Collections Place) where
  start x := x = (fun _ => none, fun _ => none)
  step x y := ∃ env locate around argv exit, main p env locate around argv x.1 = some exit ∧
    Tells env (askedOf around argv) exit ∧
    y = (exit.world, if exit.code = kExitOk then x.2.after locate (askedOf around argv) else x.2)

/-- In each place there is what the script knows of. -/
def Stored (c : Collections Place) (w : World Place) : Prop :=
  ∀ place, match c place, w place with
    | none, none => True
    | some s, some d => IsCatalogue p s.1 s.2 d
    | _, _ => False

variable {p} {env : Environment} {locate : Locate Place} {around : Surroundings}
  {argv : List Text} {w : World Place} {c : Collections Place} {exit : Exit Place}
  {config : DatabaseConfig} {catalogue : Catalogue} {d : Disk} {path : Text} {place : Place}

theorem Stored.put (h : Stored p c w) (hd : IsCatalogue p config catalogue d) :
    Stored p (Function.update c place (some (config, catalogue)))
      (Function.update w place (some d)) := by
  intro other
  by_cases heq : other = place
  · subst heq
    rw [Function.update_self, Function.update_self]
    exact hd
  · rw [Function.update_of_ne heq, Function.update_of_ne heq]
    exact h other

omit [DecidableEq Place] in
theorem Stored.found (h : Stored p c w) (hd : w place = some d) :
    ∃ s, c place = some s ∧ IsCatalogue p s.1 s.2 d := by
  have hs := h place
  rw [hd] at hs
  cases hc : c place with
  | none => rw [hc] at hs; exact hs.elim
  | some s => rw [hc] at hs; exact ⟨s, rfl, hs⟩

theorem exitCode_error_ne (e : Error) : exitCode (.error e) ≠ kExitOk := by
  rw [exitCode]
  split <;> decide

theorem withDatabase_stored (hs : Stored p c w) {read : Reading Request} {args : Args}
    (hplace : locate path = .ok place) (hpath : w place = some d)
    (hasked : askedOf around argv =
      (exec read args).1.toOption.map fun request => (path, .ask request))
    {ended : Except Error Answer × Disk} (hended : withDatabase p env read args d = ended)
    (htells : exitCode ended.1 = kExitOk ∨ env.Quiet ∧ KeysGiven (askedOf around argv)) :
    Stored p (if exitCode ended.1 = kExitOk then c.after locate (askedOf around argv) else c)
      (Function.update w place (some ended.2)) := by
  obtain ⟨s, hc, hd⟩ := hs.found hpath
  have hsame : Function.update c place (some s) = c := by rw [← hc, Function.update_eq_self]
  have hspec := withDatabase_catalogue env read args hd
  rw [hended] at hspec
  obtain ⟨answer, d'⟩ := ended
  cases answer with
  | error e =>
    obtain ⟨hq, hkeys⟩ := htells.resolve_left (exitCode_error_ne e)
    rw [if_neg (exitCode_error_ne e), ← hsame]
    refine hs.put (hspec hq fun request hrequest => ?_)
    rw [hasked, hrequest] at hkeys
    exact hkeys
  | ok answer =>
    obtain ⟨request, hrequest, hafter, hcode⟩ := hspec
    have hcollections : c.after locate (askedOf around argv) =
        Function.update c place (some (s.1, request.after s.2)) := by
      rw [hasked, hrequest]
      simp only [Except.toOption, Option.map_some, Collections.after, hplace, hc]
    split
    next => rw [hcollections]; exact hs.put hafter
    next hne =>
      rw [hcode hne] at hafter
      rw [← hsame]
      exact hs.put hafter

/-- One process. -/
theorem main_stored (hs : Stored p c w) (hmain : main p env locate around argv w = some exit)
    (htells : Tells env (askedOf around argv) exit) :
    Stored p (if exit.code = kExitOk then c.after locate (askedOf around argv) else c)
      exit.world := by
  cases main_ran hmain with
  | idle hworld _ hnone =>
    rw [hworld]
    split
    next hcode => rw [hnone hcode]; exact hs
    next => exact hs
  | @created path place config db t hasked hvalid hsized hplace hpath hexec =>
    have hmade := create_catalogue (p := p) env hvalid hsized newDirectory rfl
    rw [hexec] at hmade
    rw [if_pos (by rfl), hasked, Collections.after, hplace]
    exact hs.put (destroy_catalogue env hmade)
  | @notCreated path place config e t hasked hvalid hsized hplace hpath hexec =>
    have hmade := create_catalogue (p := p) env hvalid hsized newDirectory rfl
    rw [hexec] at hmade
    exact absurd (htells.resolve_left (exitCode_error_ne e)).1 hmade
  | asked hplace hpath hasked => exact withDatabase_stored hs hplace hpath hasked rfl htells

theorem sessions_stored {x : World Place × Collections Place} (hr : (sessions p).Reachable x) :
    Stored p x.2 x.1 := by
  refine hr.invariant (P := fun x => Stored p x.2 x.1) ?_ ?_
  · rintro _ rfl
    exact fun _ => trivial
  · rintro x _ hs ⟨env, locate, around, argv, exit, hmain, htells, rfl⟩
    exact main_stored hs hmain htells

/-- What a script may rely on. -/
structure Reliable (p : Platform K) (c : Collections Place) (w : World Place) : Prop where
  exists_iff : ∀ place, (w place).isSome = (c place).isSome
  get : ∀ (env : Environment) (locate : Locate Place) (around : Surroundings) (argv : List Text)
    (path : Text) (place : Place) (id : VectorId) (config : DatabaseConfig)
    (catalogue : Catalogue), env.Quiet → locate path = .ok place →
    c place = some (config, catalogue) → askedOf around argv = some (path, .ask (.get id)) →
    ∃ exit, main p env locate around argv w = some exit ∧
      exit.answer = (catalogue.entries id).map fun entry => .found ⟨id,
        VectorStore.storedForm p.toArithmetic config.normalize entry.1,
        entry.2.map fun _ value => value.stored⟩
  insert : ∀ (env : Environment) (locate : Locate Place) (around : Surroundings)
    (argv : List Text) (path : Text) (id : VectorId) (v : FloatVector) (m : Metadata)
    (exit : Exit Place), askedOf around argv = some (path, .ask (.insert (some id) v m)) →
    main p env locate around argv w = some exit → exit.code = kExitOk →
    ∃ place config catalogue, locate path = .ok place ∧ c place = some (config, catalogue) ∧
      catalogue.entries id = none

/-- Where nothing fails, `get` prints what is in the catalogue. -/
theorem get_answer (hq : env.Quiet) (hd : IsCatalogue p config catalogue d)
    {read : Reading Request} {args : Args} {id : VectorId}
    (hread : (exec read args).1 = .ok (.get id)) :
    (withDatabase p env read args d).1.toOption = (catalogue.entries id).map fun entry =>
      .found ⟨id, VectorStore.storedForm p.toArithmetic config.normalize entry.1,
        entry.2.map fun _ value => value.stored⟩ := by
  have hopened := openDatabase_catalogue env hd
  unfold withDatabase
  rcases hexec : exec (openDatabase p env) d.directory with ⟨r, t⟩
  rw [hexec] at hopened
  cases r with
  | error e => exact absurd hq hopened.2
  | ok db =>
    obtain ⟨hconfig, j, ⟨hsound, hcarries⟩, -, hshows⟩ := hopened
    have hget := ((hcarries.reads p hsound).catalogue hshows).getVector env hq id
    rw [hconfig] at hget
    rw [hread]
    dsimp only
    rw [Request.run, exec_bind]
    rcases hexec' : exec (getVector env id) ⟨t, db⟩ with ⟨stored, g⟩
    rw [hexec'] at hget
    obtain rfl : stored = _ := hget
    cases catalogue.entries id <;> rfl

/-- Where an `insert` succeeds, its id was not in use. -/
theorem insert_answer (hd : IsCatalogue p config catalogue d)
    {read : Reading Request} {args : Args} {id : VectorId} {v : FloatVector} {m : Metadata}
    (hread : (exec read args).1 = .ok (.insert (some id) v m)) {answer : Answer}
    (hanswer : (withDatabase p env read args d).1 = .ok answer) : catalogue.entries id = none := by
  have hopened := openDatabase_catalogue env hd
  unfold withDatabase at hanswer
  rcases hexec : exec (openDatabase p env) d.directory with ⟨r, t⟩
  rw [hexec] at hopened hanswer
  cases r with
  | error e => cases hanswer
  | ok db =>
    obtain ⟨hconfig, j, ⟨hsound, u, -, hcarries⟩, -, hshows⟩ := hopened
    rw [hread] at hanswer
    dsimp only at hanswer
    rw [Request.run, exec_bind] at hanswer
    rcases hinsert : exec (Db.insert p env id v m) ⟨t, db⟩ with ⟨r, g⟩
    rw [hinsert] at hanswer
    cases r with
    | error e => cases hanswer
    | ok r =>
      have habsent := absent_of_inserted p env hinsert
      rw [hcarries.live.contains, ← hshows.isSome] at habsent
      exact Option.not_isSome_iff_eq_none.mp (Bool.eq_false_iff.mp habsent)

theorem read_of_asked {read : Reading Request} {args : Args} {other : Text} {request : Request}
    (hread : askedOf around argv =
      (exec read args).1.toOption.map fun request => (other, .ask request))
    (hasked : askedOf around argv = some (path, .ask request)) :
    other = path ∧ (exec read args).1 = .ok request := by
  rw [hasked] at hread
  cases hresult : (exec read args).1 with
  | error e => rw [hresult] at hread; cases hread
  | ok r => rw [hresult] at hread; cases hread; exact ⟨rfl, rfl⟩

theorem Stored.reliable (hs : Stored p c w) : Reliable p c w := by
  refine ⟨fun place => ?_, ?_, ?_⟩
  · have h := hs place
    cases hc : c place <;> cases hw : w place <;> rw [hc, hw] at h <;> first | rfl | exact h.elim
  · intro env locate around argv path place id config catalogue hq hplace hc hasked
    have hsome : ∃ exit, main p env locate around argv w = some exit :=
      exists_exit (by rw [hasked]; simp)
    obtain ⟨exit, hmain⟩ := hsome
    refine ⟨exit, hmain, ?_⟩
    cases main_ran hmain with
    | idle _ _ _ hnone =>
      have h := hs place
      have hw : w place = none := by
        by_contra hne
        obtain ⟨d, hd⟩ := Option.ne_none_iff_exists'.mp hne
        have hfound := databaseAt_eq_some.mpr ⟨hplace, hd⟩
        rw [hnone path _ hasked] at hfound
        cases hfound
      rw [hw, hc] at h
      exact h.elim
    | created hcreate => rw [hcreate] at hasked; cases hasked
    | notCreated hcreate => rw [hcreate] at hasked; cases hasked
    | asked hplace' hpath hread =>
      obtain ⟨rfl, hrequest⟩ := read_of_asked hread hasked
      cases hplace.symm.trans hplace'
      obtain ⟨s, hs', hd⟩ := hs.found hpath
      obtain rfl : s = (config, catalogue) := Option.some.inj (hs'.symm.trans hc)
      exact get_answer hq hd hrequest
  · intro env locate around argv path id v m exit hasked hmain hcode
    cases main_ran hmain with
    | idle _ _ hnone => rw [hnone hcode] at hasked; cases hasked
    | created hcreate => rw [hcreate] at hasked; cases hasked
    | notCreated hcreate => rw [hcreate] at hasked; cases hasked
    | @asked other place read args d hplace hpath hread =>
      obtain ⟨rfl, hrequest⟩ := read_of_asked hread hasked
      obtain ⟨s, hc, hd⟩ := hs.found hpath
      refine ⟨place, s.1, s.2, hplace, hc, ?_⟩
      cases hended : (withDatabase p env read args d).1 with
      | error e => exact absurd hcode (by rw [Exit.of, hended]; exact exitCode_error_ne e)
      | ok answer => exact insert_answer hd hrequest hended

/-- A script that believes the exit codes knows what is in its databases, however many processes
have used them. -/
theorem exit_codes_tell (hr : (sessions p).Reachable (w, c)) : Reliable p c w :=
  (sessions_stored hr).reliable

end Sessions

/-- `insert ./one/ --vector 1 --id 7`. -/
def insertSeven : List Text := ["insert", "./one/", "--vector", "1", "--id", "7"].map ascii

/-- A database is made, and a vector goes into it under another spelling of its path. -/
theorem exit_codes_tell_insert : ∃ (w : World (List Text)) (c : Collections (List Text)),
    Reliable unitPlatform c w ∧ (w [ascii "one"]).isSome ∧
      ∃ config catalogue, c [ascii "one"] = some (config, catalogue) ∧
        (catalogue.entries 7).isSome := by
  have hcodes : ((main unitPlatform faultless locateFromRoot plainSurroundings createOne .empty).bind
      fun first => (main unitPlatform faultless locateFromRoot plainSurroundings insertSeven
        first.world).map fun second => (first.code, second.code)) = some (kExitOk, kExitOk) := by
    decide +kernel
  simp only [Option.bind_eq_some_iff, Option.map_eq_some_iff, Prod.mk.injEq] at hcodes
  obtain ⟨first, hfirst, second, hsecond, hcreated, hinserted⟩ := hcodes
  have hr : (sessions unitPlatform).Reachable _ := .step (.start rfl)
    ⟨faultless, locateFromRoot, plainSurroundings, createOne, first, hfirst, .inl hcreated, rfl⟩
  have hreliable := exit_codes_tell (hr.step
    ⟨faultless, locateFromRoot, plainSurroundings, insertSeven, second, hsecond, .inl hinserted, rfl⟩)
  refine ⟨_, _, hreliable, ?_, ?_⟩
  · rw [hreliable.exists_iff, if_pos hinserted, if_pos hcreated]
    rfl
  · rw [if_pos hinserted, if_pos hcreated]
    exact ⟨_, _, rfl, rfl⟩

end VectorDb.Cli
