import VectorDb.Db.Lossless
import VectorDb.Db.ReadBack

/-!
Programs over variables of type `Database`: an object that a variable owns may move to
another variable, and ends with the variable or when another object is moved over it.
-/
set_option autoImplicit false

namespace VectorDb.Db

open VectorDb.Lib VectorDb.Storage VectorDb.Index Throwing

/-- `Database::Impl`, with its directory. `writes` has what was inserted or removed
through it, the newest first; nothing reads it. -/
structure Impl (D : Type) where
  directory : D
  db : Database
  writes : List (VectorId × Option FloatVector)

/-- A variable of type `Database`. -/
inductive Variable (D : Type) where
  | undeclared
  | movedFrom
  | owns (impl : Impl D)

/-- Between two calls no transaction is open, so that the directories are what is on disk. -/
structure Program (V D : Type) where
  disks : D → Option Disk
  objects : V → Variable D

inductive Statement (V D : Type) where
  | create (v : V) (d : D) (config : DatabaseConfig) (sized : config.Sized)
  | openDatabase (v : V) (d : D)
  | moveConstruct (v w : V)
  | moveAssign (v w : V)
  | destroy (v : V)
  | insert (v : V) (id : VectorId) (vector : FloatVector) (metadata : Metadata)
  | insertAuto (v : V) (vector : FloatVector) (metadata : Metadata)
  | remove (v : V) (id : VectorId)

section Program
variable {V D : Type}

def Program.start : Program V D := ⟨fun _ => none, fun _ => .undeclared⟩

/-- The object as a call finds it. -/
def Impl.handle (impl : Impl D) (disk : Disk) : Handle := ⟨disk.directory, impl.db⟩

variable [DecidableEq V] [DecidableEq D]

/-- What `create` or `open` returned goes to a new variable. -/
def Program.install (s : Program V D) (v : V) (d : D) :
    Except Error Database × Directory → Option (Program V D)
  | (.ok db, t) => some ⟨Function.update s.disks d (some t.disk),
      Function.update s.objects v (.owns ⟨d, db, []⟩)⟩
  | (.error _, _) => none

/-- A call that returns. -/
def Program.call {α : Type} (s : Program V D) (v : V) (x : Call α)
    (writes : α → List (VectorId × Option FloatVector)) : Option (Program V D) :=
  match s.objects v with
  | .owns impl => do
    let disk ← s.disks impl.directory
    match exec x (impl.handle disk) with
    | (.ok a, h) => some ⟨Function.update s.disks impl.directory (some h.disk),
        Function.update s.objects v (.owns ⟨impl.directory, h.db, writes a ++ impl.writes⟩)⟩
    | (.error _, _) => none
  | _ => none

/-- `std::unique_ptr` moves, and what `v` owned is deleted. -/
def Program.move (s : Program V D) (v w : V) : Option (Program V D) :=
  match s.objects w with
  | .undeclared => none
  | x => some ⟨s.disks, Function.update (Function.update s.objects w .movedFrom) v x⟩

/-- `~Database`. -/
def Program.destroy (env : Environment) (s : Program V D) (v : V) : Option (Program V D) :=
  match s.objects v with
  | .undeclared => none
  | .movedFrom => some ⟨s.disks, Function.update s.objects v .undeclared⟩
  | .owns impl => do
    let disk ← s.disks impl.directory
    some ⟨Function.update s.disks impl.directory
        (some (exec (Db.destroy env) (impl.handle disk)).2.disk),
      Function.update s.objects v .undeclared⟩

variable {K : Type} [BEq K] [LT K] [DecidableLT K] (p : Platform K) (env : Environment)

/-- One statement that returns normally. -/
def Program.after (s : Program V D) : Statement V D → Option (Program V D)
  | .create v d config _ =>
    match s.objects v, s.disks d with
    | .undeclared, none => s.install v d (exec (Db.create p env config) newDirectory)
    | _, _ => none
  | .openDatabase v d =>
    match s.objects v, s.disks d with
    | .undeclared, some disk => s.install v d (exec (Db.openDatabase p env) disk.directory)
    | _, _ => none
  | .moveConstruct v w =>
    match s.objects v with
    | .undeclared => s.move v w
    | _ => none
  | .moveAssign v w =>
    match s.objects v with
    | .undeclared => none
    | _ => if v = w then some s else s.move v w
  | .destroy v => s.destroy env v
  | .insert v id vector metadata =>
    s.call v (Db.insert p env id vector metadata) fun _ => [(id, some vector)]
  | .insertAuto v vector metadata =>
    s.call v (Db.insertAuto p env vector metadata) fun id => [(id, some vector)]
  | .remove v id => s.call v (Db.remove env id) fun found => if found then [(id, none)] else []

/-- Programs in which nothing fails. -/
def programs : Transition (Program V D) where
  start s := s = .start
  step s t := ∃ statement env, Environment.Quiet env ∧ s.after p env statement = some t

/-- `impl` ceases to exist. -/
inductive Statement.Ends (s : Program V D) : Statement V D → Impl D → Prop where
  | destroyed {v : V} {impl : Impl D} : s.objects v = .owns impl → Ends s (.destroy v) impl
  | overwritten {v w : V} {impl : Impl D} : v ≠ w → s.objects v = .owns impl →
      Ends s (.moveAssign v w) impl

/-- The next `open` of the directory gives a database in which every id that was written
reads as it did, with the vector of the last write to it. -/
def Impl.Shown (impl : Impl D) (s t : Program V D) : Prop :=
  ∃ before after, s.disks impl.directory = some before ∧ t.disks impl.directory = some after ∧
    ∀ quiet : Environment, quiet.Quiet →
      ∃ db d, exec (Db.openDatabase p quiet) after.directory = (.ok db, d) ∧
        ∀ id w, impl.writes.lookup id = some w → ∃ r,
          (exec (getVector quiet id) ⟨d, db⟩).1 = .ok r ∧
          (exec (getVector quiet id) (impl.handle before)).1 = .ok r ∧
          r.map StoredVector.vector =
            w.map (VectorStore.storedForm p.toArithmetic impl.db.config.normalize)

/-- Nothing was written through an object that another one is moved over. -/
def Statement.SparesWrites (s : Program V D) : Statement V D → Prop
  | .moveAssign v w => v ≠ w → ∀ impl, s.objects v = .owns impl → impl.writes = []
  | _ => True

end Program

section Handles
variable {K : Type} [BEq K] [LT K] [DecidableLT K] (p : Platform K) (env : Environment)
variable {h g : Handle} {disk : Disk} {db : Database}

theorem HandleSound.configOf (hh : HandleSound False ⟨disk.directory, db⟩) :
    configOf disk.tables = .ok db.config :=
  Configured.configOf hh.directory.tables.committed hh.database.valid hh.database.sized

/-- What `h` was is `g` once `new` was written through it. -/
structure WroteThrough (new : List (VectorId × Option FloatVector)) (h g : Handle) : Prop where
  sound : HandleSound False g
  config : g.db.config = h.db.config
  dirty : new ≠ [] ∨ h.db.dirty = true → g.db.dirty = true
  get : ∀ id, g.db.store.get? id = match new.lookup id with
    | some w => w.map (VectorStore.storedForm p.toArithmetic h.db.config.normalize)
    | none => h.db.store.get? id

theorem insert_wroteThrough {t : Tables} {id : VectorId} {v : FloatVector} {m : Metadata}
    (hh : HandleSound False h) (ht : h.metadata.Holds t)
    (hexec : exec (insert p env id v m) h = (.ok (), g)) :
    WroteThrough p [(id, some v)] h g := by
  have hsound : HandleSound False (exec (insert p env id v m) h).2 := insert_sound p env hh
  rw [hexec] at hsound
  have hs := hh.database.store
  cases hc : h.db.store.insertCheck id v with
  | error e =>
    rw [exec_insert_rejected p env hc] at hexec
    cases hexec
  | ok u =>
    obtain ⟨db, hgrown, heq⟩ := exec_insert_accepted p env (m := m) hs.consistent
      hh.database.index hc
    have hfinish := finishInsert_spec env id m _ (at_of_holds ht db)
    rw [← heq, hexec] at hfinish
    have hnew := (VectorStore.insertCheck_ok hc).1
    refine ⟨hsound, ?_, fun _ => ?_, fun i => ?_⟩
    · rw [hfinish.db, hgrown.rest]
    · rw [hfinish.db]
    · rw [hfinish.db]
      show db.store.get? i = _
      rw [hgrown.store.get? hs.consistent hnew, hs.normalizes, List.lookup_cons]
      by_cases hi : i = id
      · simp [hi]
      · simp [hi, beq_false_of_ne hi]

theorem insertAuto_wroteThrough {t : Tables} {id : VectorId} {v : FloatVector} {m : Metadata}
    (hh : HandleSound False h) (ht : h.metadata.Holds t)
    (hexec : exec (insertAuto p env v m) h = (.ok id, g)) :
    WroteThrough p [(id, some v)] h g := by
  rw [exec_insertAuto] at hexec
  rcases hinsert : exec (insert p env h.db.nextAutoId v m) h with ⟨r, g'⟩
  rw [hinsert] at hexec
  cases r with
  | error e => cases hexec
  | ok u =>
    cases hexec
    exact insert_wroteThrough p env hh ht hinsert

theorem remove_wroteThrough {t : Tables} {id : VectorId} {found : Bool}
    (hh : HandleSound False h) (ht : h.metadata.Holds t)
    (hexec : exec (remove env id) h = (.ok found, g)) :
    WroteThrough p (if found then [(id, none)] else []) h g := by
  have hsound : HandleSound False (exec (remove env id) h).2 := remove_sound env hh
  rw [hexec] at hsound
  cases hfind : h.db.store.find id with
  | none =>
    rw [exec_remove_absent env hfind] at hexec
    cases hexec
    exact ⟨hh, rfl, fun hd => hd.resolve_left fun hne => hne rfl, fun i => rfl⟩
  | some slot =>
    obtain ⟨s, hs, heq⟩ := exec_remove_present env hfind
    have hfinish := finishRemove_spec env id _ (at_of_holds ht
      { h.db with store := s, index := h.db.index.remove slot })
    rw [← heq, hexec] at hfinish
    obtain ⟨rfl, u, -, hat⟩ := hfinish
    refine ⟨hsound, by rw [hat.db], fun _ => by rw [hat.db], fun i => ?_⟩
    rw [hat.db]
    show s.get? i = _
    rw [hs.get?, if_pos rfl, List.lookup_cons]
    by_cases hi : i = id
    · simp [hi]
    · simp [hi, beq_false_of_ne hi]

end Handles

theorem update_cases {α β : Type} [DecidableEq α] {f : α → β} {a b : α} {x y : β}
    (h : Function.update f a x b = y) : b = a ∧ x = y ∨ b ≠ a ∧ f b = y := by
  by_cases hb : b = a
  · rw [hb, Function.update_self] at h
    exact .inl ⟨hb, h⟩
  · rw [Function.update_of_ne hb] at h
    exact .inr ⟨hb, h⟩

section Sound
variable {V D : Type} {K : Type} [BEq K] [LT K] [DecidableLT K] (p : Platform K)

/-- What an object has in memory fits its directory, and what was written through it
stands in its memory and is not flushed. -/
structure Impl.Sound (impl : Impl D) (disk : Disk) : Prop where
  handle : HandleSound False (impl.handle disk)
  dirty : impl.writes ≠ [] → impl.db.dirty = true
  written : ∀ id w, impl.writes.lookup id = some w → impl.db.store.get? id =
    w.map (VectorStore.storedForm p.toArithmetic impl.db.config.normalize)

structure Program.Sound (s : Program V D) : Prop where
  disks : ∀ d disk, s.disks d = some disk → DiskSound False disk
  objects : ∀ v impl, s.objects v = .owns impl →
    ∃ disk, s.disks impl.directory = some disk ∧ impl.Sound p disk

variable {p} {impl : Impl D} {disk : Disk} {env : Environment} {s t : Program V D}

/-- Other calls may have changed the directory. -/
theorem Impl.Sound.onDisk (hi : impl.Sound p disk) {h : Handle} (hh : HandleSound False h)
    (hconfig : impl.db.config = h.db.config) : impl.Sound p h.disk := by
  have hdirectory := hh.reread.directory
  rw [← hconfig] at hdirectory
  exact ⟨⟨hdirectory, hi.handle.database⟩, hi.dirty, hi.written⟩

/-- What is written through an object is noted in it. -/
theorem Impl.Sound.wrote (hi : impl.Sound p disk) {new : List (VectorId × Option FloatVector)}
    {g : Handle} (hg : WroteThrough p new (impl.handle disk) g) :
    Impl.Sound p ⟨impl.directory, g.db, new ++ impl.writes⟩ g.disk := by
  refine ⟨hg.sound.reread, fun hne => hg.dirty ?_, fun id w hw => ?_⟩
  · cases new with
    | nil => exact .inr (hi.dirty hne)
    | cons _ _ => exact .inl (List.cons_ne_nil _ _)
  · rw [hg.get, hg.config]
    rw [List.lookup_append] at hw
    cases hn : new.lookup id with
    | none =>
      rw [hn] at hw
      exact hi.written id w hw
    | some w' =>
      rw [hn] at hw
      cases hw
      rfl

/-- Two objects on one directory have the configuration of its tables. -/
theorem Program.Sound.config_eq (hs : s.Sound p) {u v : V} {a b : Impl D}
    (ha : s.objects u = .owns a) (hb : s.objects v = .owns b) (hd : a.directory = b.directory) :
    a.db.config = b.db.config := by
  obtain ⟨disk, hdisk, ha⟩ := hs.objects u a ha
  obtain ⟨disk', hdisk', hb⟩ := hs.objects v b hb
  rw [hd, hdisk'] at hdisk
  cases hdisk
  exact Except.ok.inj (ha.handle.configOf.symm.trans hb.handle.configOf)

/-- Where the objects were moved around or ended, those that are left are as they were. -/
theorem Program.Sound.rearrange (hs : s.Sound p) {objects : V → Variable D}
    (hobjects : ∀ v impl, objects v = .owns impl → ∃ u, s.objects u = .owns impl) :
    Program.Sound p ⟨s.disks, objects⟩ :=
  ⟨hs.disks, fun v impl hv => by
    obtain ⟨u, hu⟩ := hobjects v impl hv
    exact hs.objects u impl hu⟩

theorem undeclare_owns [DecidableEq V] {v u : V} {impl : Impl D}
    (hu : Function.update s.objects v .undeclared u = .owns impl) : s.objects u = .owns impl := by
  rcases update_cases hu with ⟨-, hu⟩ | ⟨-, hu⟩
  · cases hu
  · exact hu

theorem Program.Sound.move [DecidableEq V] (hs : s.Sound p) {v w : V} (ht : s.move v w = some t) : t.Sound p := by
  have hmoved : ∀ x, s.objects w = x → t = ⟨s.disks,
      Function.update (Function.update s.objects w .movedFrom) v x⟩ → t.Sound p := by
    rintro x hx rfl
    refine hs.rearrange fun u impl hu => ?_
    rcases update_cases hu with ⟨-, hu⟩ | ⟨-, hu⟩
    · exact ⟨w, hx.trans hu⟩
    · rcases update_cases hu with ⟨-, hu⟩ | ⟨-, hu⟩
      · cases hu
      · exact ⟨u, hu⟩
  unfold Program.move at ht
  cases hw : s.objects w with
  | undeclared => simp [hw] at ht
  | movedFrom =>
    rw [hw] at ht
    exact hmoved _ hw (Option.some.inj ht).symm
  | owns impl =>
    rw [hw] at ht
    exact hmoved _ hw (Option.some.inj ht).symm

/-- What is in the files shows all that was written, if anything was. -/
theorem Impl.Sound.shown (hi : impl.Sound p disk) {after : Disk} (ha : impl.Sound p after)
    (hbefore : s.disks impl.directory = some disk) (hafter : t.disks impl.directory = some after)
    (hfiles : impl.writes ≠ [] → after.files.vectors = some (writeVectorFile impl.db.store) ∧
      ∀ id, after.tables.rows id = disk.tables.rows id) : impl.Shown p s t := by
  refine ⟨disk, after, hbefore, hafter, fun quiet hq => ?_⟩
  obtain ⟨db, d, hopen, -, hholds, -, hstore⟩ := ha.handle.opens p hq
  refine ⟨db, d, hopen, fun id w hw => ?_⟩
  obtain ⟨hvectors, hrows⟩ := hfiles fun hnil => by
    rw [hnil] at hw
    cases hw
  refine ⟨_, getVector_get? hq _ id, ?_, ?_⟩
  · rw [getVector_get? hq]
    have hmetadata : Handle.metadataOf ⟨d, db⟩ id = (impl.handle disk).metadataOf id := by
      have hview : (MetadataStore.fresh disk.tables).connection.view = disk.tables := rfl
      rw [Handle.metadataOf, Handle.metadataOf, hholds.view, Impl.handle, Disk.directory, hview,
        ← hrows id]
      simp [Tables.rows]
    rw [hmetadata]
    have hget : db.store = impl.db.store := hstore hvectors
    rw [hget]
    rfl
  · rw [Option.map_map, hstore hvectors, hi.written id w hw]
    cases w <;> rfl

variable [DecidableEq D]

/-- The directory `d` has changed, and so have the variables. -/
theorem Program.Sound.update (hs : s.Sound p) {d : D} {h : Handle} (hh : HandleSound False h)
    (hconfig : ∀ v impl, s.objects v = .owns impl → impl.directory = d →
      impl.db.config = h.db.config) {objects : V → Variable D}
    (hobjects : ∀ v impl, objects v = .owns impl → (∃ u, s.objects u = .owns impl) ∨
      impl.directory = d ∧ impl.Sound p h.disk) :
    Program.Sound p ⟨Function.update s.disks d (some h.disk), objects⟩ := by
  constructor
  · intro e disk hdisk
    rcases update_cases hdisk with ⟨rfl, hd⟩ | ⟨-, hd⟩
    · cases hd
      exact hh.disk
    · exact hs.disks e disk hd
  · intro v impl hv
    rcases hobjects v impl hv with ⟨u, hu⟩ | ⟨rfl, hi⟩
    · obtain ⟨disk, hdisk, hi⟩ := hs.objects u impl hu
      by_cases he : impl.directory = d
      · exact ⟨h.disk, by simp [he], hi.onDisk hh (hconfig u impl hu he)⟩
      · exact ⟨disk, by simp [he, hdisk], hi⟩
    · exact ⟨h.disk, Function.update_self .., hi⟩

variable [DecidableEq V]

theorem Program.Sound.install (hs : s.Sound p) {v : V} {d : D} {db : Database} {e : Directory}
    (hh : HandleSound False ⟨e, db⟩) (hconfig : ∀ v impl, s.objects v = .owns impl →
      impl.directory = d → impl.db.config = db.config)
    (ht : s.install v d (.ok db, e) = some t) : t.Sound p := by
  cases ht
  refine hs.update hh hconfig fun u impl hu => ?_
  rcases update_cases hu with ⟨-, hu⟩ | ⟨-, hu⟩
  · cases hu
    exact .inr ⟨rfl, hh.reread, fun h => absurd rfl h, fun id w hw => by cases hw⟩
  · exact .inl ⟨u, hu⟩

theorem Program.Sound.call (hs : s.Sound p) {α : Type} {v : V} {x : Call α}
    {writes : α → List (VectorId × Option FloatVector)}
    (hx : ∀ (h g : Handle) (u : Tables) (a : α), HandleSound False h → h.metadata.Holds u →
      exec x h = (.ok a, g) → WroteThrough p (writes a) h g)
    (ht : s.call v x writes = some t) : t.Sound p := by
  unfold Program.call at ht
  cases hv : s.objects v with
  | undeclared => simp [hv] at ht
  | movedFrom => simp [hv] at ht
  | owns impl =>
    obtain ⟨disk, hdisk, hi⟩ := hs.objects v impl hv
    simp only [hv, hdisk, Option.bind_eq_bind, Option.bind_some] at ht
    rcases hexec : exec x (impl.handle disk) with ⟨r, g⟩
    rw [hexec] at ht
    cases r with
    | error e => cases ht
    | ok a =>
      cases ht
      have hg := hx _ g _ a hi.handle (MetadataStore.holds_fresh _) hexec
      refine hs.update hg.sound (fun u other hu hd => ?_) fun u other hu => ?_
      · rw [hg.config, hs.config_eq hu hv hd]
        rfl
      · rcases update_cases hu with ⟨-, hu⟩ | ⟨-, hu⟩
        · cases hu
          exact .inr ⟨rfl, hi.wrote hg⟩
        · exact .inl ⟨u, hu⟩

theorem Program.Sound.destroy (hs : s.Sound p) {v : V} (ht : s.destroy env v = some t) :
    t.Sound p := by
  unfold Program.destroy at ht
  cases hv : s.objects v with
  | undeclared => simp [hv] at ht
  | movedFrom =>
    rw [hv] at ht
    cases ht
    exact hs.rearrange fun u impl hu => ⟨u, undeclare_owns hu⟩
  | owns impl =>
    obtain ⟨disk, hdisk, hi⟩ := hs.objects v impl hv
    simp only [hv, hdisk, Option.bind_eq_bind, Option.bind_some] at ht
    cases ht
    refine hs.update (destroy_sound env _ hi.handle) (fun u other hu hd => ?_)
      fun u other hu => .inl ⟨u, undeclare_owns hu⟩
    rw [exec_destroy_files, (flush_flushedTo env _).config, hs.config_eq hu hv hd]
    rfl

theorem Program.after_sound (hs : s.Sound p) (hq : env.Quiet) {statement : Statement V D}
    (ht : s.after p env statement = some t) : t.Sound p := by
  cases statement with
  | create v d config sized =>
    simp only [Program.after] at ht
    split at ht
    next hv hd =>
      cases hvalid : config.validate with
      | error e =>
        have hcreate : exec (create p env config) newDirectory = (.error e, newDirectory) := by
          simp only [Db.create, exec_bind, exec_fromExcept, hvalid]
        rw [hcreate] at ht
        cases ht
      | ok u =>
        have hsound := create_sound p env sized hvalid (b := False)
        obtain ⟨made, db, e, -, hexec, -⟩ := create_quiet p hq hvalid
        rw [hexec] at ht hsound
        refine hs.install hsound (fun u impl hu hdir => ?_) ht
        obtain ⟨disk, hdisk, -⟩ := hs.objects u impl hu
        rw [hdir, hd] at hdisk
        cases hdisk
    · cases ht
  | openDatabase v d =>
    simp only [Program.after] at ht
    split at ht
    next disk hv hd =>
      have hsound := ofCall_openDatabase_sound p env (hs.disks d disk hd) fun h => h.elim
      rcases hexec : exec (openDatabase p env) disk.directory with ⟨r, e⟩
      rw [hexec] at ht hsound
      cases r with
      | error e => cases ht
      | ok db =>
        refine hs.install hsound (fun u impl hu hdir => ?_) ht
        obtain ⟨disk', hdisk, hi⟩ := hs.objects u impl hu
        rw [hdir, hd] at hdisk
        cases hdisk
        obtain ⟨opened, d', hopen, -, -, hconfig, -⟩ := hi.handle.opens p hq
        cases hexec.symm.trans hopen
        exact hconfig.symm
    · cases ht
  | moveConstruct v w =>
    simp only [Program.after] at ht
    split at ht
    · exact hs.move ht
    · cases ht
  | moveAssign v w =>
    simp only [Program.after] at ht
    split at ht
    · cases ht
    · split at ht
      · cases ht
        exact hs
      · exact hs.move ht
  | destroy v => exact hs.destroy ht
  | insert v id vector metadata =>
    exact hs.call (fun _ _ _ _ hh hu hexec => insert_wroteThrough p env hh hu hexec) ht
  | insertAuto v vector metadata =>
    exact hs.call (fun _ _ _ _ hh hu hexec => insertAuto_wroteThrough p env hh hu hexec) ht
  | remove v id =>
    exact hs.call (fun _ _ _ _ hh hu hexec => remove_wroteThrough p env hh hu hexec) ht

theorem reachable_programSound (hr : (programs p).Reachable s) : s.Sound p := by
  refine hr.invariant (P := Program.Sound p) ?_ ?_
  · rintro _ rfl
    constructor <;> (intro _ _ h; cases h)
  · rintro s t hs ⟨statement, env, hq, ht⟩
    exact Program.after_sound hs hq ht

/-- The destructor flushes. -/
theorem Program.Sound.destroy_shown (hs : s.Sound p) (hq : env.Quiet) {v : V}
    (hv : s.objects v = .owns impl) (ht : s.destroy env v = some t) : impl.Shown p s t := by
  obtain ⟨disk, hdisk, hi⟩ := hs.objects v impl hv
  simp only [Program.destroy, hv, hdisk, Option.bind_eq_bind, Option.bind_some] at ht
  cases ht
  have hafter : Impl.Sound p impl (exec (Db.destroy env) (impl.handle disk)).2.disk := by
    refine hi.onDisk (destroy_sound env _ hi.handle) ?_
    rw [exec_destroy_files, (flush_flushedTo env _).config]
    rfl
  refine hi.shown hafter hdisk (Function.update_self ..) fun hne => ?_
  obtain ⟨g, hflush, hat⟩ := flush_quiet hq (h := impl.handle disk)
    (MetadataStore.holds_fresh disk.tables) (hi.dirty hne)
  rw [exec_destroy_of_flush env hflush]
  refine ⟨hat.files.vectors.trans (Files.flushed_vectors _ _), fun id => ?_⟩
  have htables : g.disk.tables = disk.tables.setConfigValue kKeyNextId
      (toString impl.db.nextAutoId.val) := hat.tables.2
  rw [htables]
  rfl

/-- In every program, whatever was written through an object is on disk when it ends,
unless another object is moved over it. -/
theorem ended_writes_shown (hr : (programs p).Reachable s) (hq : env.Quiet)
    {statement : Statement V D} (ht : s.after p env statement = some t)
    (hend : statement.Ends s impl) (hspares : statement.SparesWrites s) : impl.Shown p s t := by
  have hs := reachable_programSound hr
  cases hend with
  | destroyed hv => exact hs.destroy_shown hq hv ht
  | @overwritten v w _ hne hv =>
    obtain ⟨disk, hdisk, hi⟩ := hs.objects v impl hv
    have hdisks : t.disks = s.disks := by
      simp only [Program.after, hv, if_neg hne, Program.move] at ht
      split at ht
      · cases ht
      · cases ht
        rfl
    refine hi.shown hi hdisk (by rw [hdisks]; exact hdisk) fun h => ?_
    exact absurd (hspares hne impl hv) h

end Sound

section OneWrite
variable {K : Type} [BEq K] [LT K] [DecidableLT K] (p : Platform K)
variable {c : DatabaseConfig} {w : FloatVector}

section Statements
variable {V D : Type} [DecidableEq V] [DecidableEq D] {s : Program V D} {env : Environment}

theorem Program.after_create {v : V} {d : D} {db : Database} {e : Directory} (sized : c.Sized)
    (hv : s.objects v = .undeclared) (hd : s.disks d = none)
    (hexec : exec (create p env c) newDirectory = (.ok db, e)) :
    s.after p env (.create v d c sized) = some ⟨Function.update s.disks d (some e.disk),
      Function.update s.objects v (.owns ⟨d, db, []⟩)⟩ := by
  simp only [Program.after, hv, hd, hexec, Program.install]

theorem Program.after_insert {v : V} {impl : Impl D} {disk : Disk} {id : VectorId} {m : Metadata}
    {g : Handle} (hv : s.objects v = .owns impl) (hd : s.disks impl.directory = some disk)
    (hexec : exec (insert p env id w m) (impl.handle disk) = (.ok (), g)) :
    s.after p env (.insert v id w m) = some ⟨Function.update s.disks impl.directory (some g.disk),
      Function.update s.objects v
        (.owns ⟨impl.directory, g.db, (id, some w) :: impl.writes⟩)⟩ := by
  simp only [Program.after, Program.call, hv, hd, Option.bind_eq_bind, Option.bind_some, hexec]
  rfl

theorem Program.after_moveAssign {u v : V} {impl other : Impl D} (hne : v ≠ u)
    (hv : s.objects v = .owns impl) (hu : s.objects u = .owns other) :
    s.after p env (.moveAssign v u) = some ⟨s.disks,
      Function.update (Function.update s.objects u .movedFrom) v (.owns other)⟩ := by
  simp only [Program.after, Program.move, hv, hu, if_neg hne]

end Statements

/-- A program that has made a database in the directory `false` and inserted one vector. -/
structure OneWrite (w : FloatVector) (s : Program Bool Bool) (impl : Impl Bool) (empty : Database)
    (disk : Disk) : Prop where
  reachable : (programs p).Reachable s
  owns : s.objects false = .owns impl
  undeclared : s.objects true = .undeclared
  absent : s.disks true = none
  directory : impl.directory = false
  held : s.disks false = some disk
  writes : impl.writes = [(0, some w)]
  sound : HandleSound False ⟨disk.directory, empty⟩
  vectors : disk.files.vectors = some (writeVectorFile empty.store)
  slotCount : empty.store.slotCount = 0

theorem exists_oneWrite (hv : c.validate = .ok ()) (sized : c.Sized)
    (hw : validateVector w c.dimension = .ok ()) :
    ∃ s impl empty disk, OneWrite p w s impl empty disk := by
  obtain ⟨made, db, d, hmade, hcreate, hat⟩ := create_quiet p quiet_faultless hv
  have hsound : HandleSound False ⟨d, db⟩ := by
    have h := create_sound p faultless sized hv (b := False)
    rw [hcreate] at h
    exact h
  have hstore : db.store = made.store := by
    have hdb : db = { made with dirty := false } := hat.db
    rw [hdb]
  have hcount : db.store.slotCount = 0 := hstore ▸ hmade.slotCount
  have hcheck : db.store.insertCheck 0 w = .ok () := by
    refine insertCheck_empty hsound.database.store.consistent hcount ?_
    rw [hstore, hmade.store.dimension]
    exact hw
  obtain ⟨grown, g, -, hinsert, hat'⟩ := insert_quiet p quiet_faultless
    (h := Impl.handle ⟨false, db, []⟩ d.disk) (m := ∅) hsound.reread
    (MetadataStore.holds_fresh _) hcheck (by simp)
  have hwrote := insert_wroteThrough p faultless hsound.reread (MetadataStore.holds_fresh _) hinsert
  have hstart := Program.after_create p (s := .start) (v := false) (d := false) sized rfl rfl hcreate
  have hdisk : Function.update (Program.start : Program Bool Bool).disks false (some d.disk) false =
      some d.disk := Function.update_self ..
  refine ⟨_, ⟨false, g.db, [(0, some w)]⟩, db, g.disk, .step (.step (.start rfl)
    ⟨_, _, quiet_faultless, hstart⟩) ⟨_, _, quiet_faultless,
      Program.after_insert p (Function.update_self ..) hdisk hinsert⟩,
    ?_, ?_, ?_, rfl, ?_, rfl, ?_, ?_, hcount⟩
  · simp
  · simp [Program.start]
  · simp [Program.start]
  · simp
  · have hdirectory := hwrote.sound.reread.directory
    rw [hwrote.config] at hdirectory
    exact ⟨hdirectory, hsound.database⟩
  · rw [hstore]
    exact hat'.files.vectors.trans (hat.files.vectors.trans (Files.flushed_vectors _ _))

variable {p} {s : Program Bool Bool} {impl : Impl Bool} {empty : Database} {disk : Disk}

theorem OneWrite.destroyed (hone : OneWrite p w s impl empty disk) :
    s.after p faultless (.destroy false) = some ⟨Function.update s.disks false
        (some (exec (destroy faultless) (impl.handle disk)).2.disk),
      Function.update s.objects false .undeclared⟩ := by
  simp only [Program.after, Program.destroy, hone.owns, hone.directory, hone.held,
    Option.bind_eq_bind, Option.bind_some]

/-- A new database is moved over one with an unsaved vector, which is not on disk then. -/
theorem OneWrite.dropped (hone : OneWrite p w s impl empty disk) (hv : c.validate = .ok ())
    (sized : c.Sized) : ∃ (s t : Program Bool Bool) (statement : Statement Bool Bool),
      (programs p).Reachable s ∧ s.after p faultless statement = some t ∧
        statement.Ends s impl ∧ ¬ impl.Shown p s t := by
  obtain ⟨made, db, d, -, hcreate, -⟩ := create_quiet p quiet_faultless hv
  have hmade := Program.after_create p (v := true) (d := true) sized hone.undeclared hone.absent
    hcreate
  have howns : Function.update s.objects true (.owns ⟨true, db, []⟩) false = .owns impl := by
    simp [hone.owns]
  have hnew : Function.update s.objects true (.owns ⟨true, db, []⟩) true =
      .owns ⟨true, db, []⟩ := Function.update_self ..
  refine ⟨_, _, .moveAssign false true, .step hone.reachable ⟨_, _, quiet_faultless, hmade⟩,
    Program.after_moveAssign p (by decide) howns hnew, .overwritten (by decide) howns, ?_⟩
  rintro ⟨before, after, -, hafter, hshown⟩
  have hdisk : after = disk := by
    rw [hone.directory] at hafter
    simpa [hone.held] using hafter.symm
  subst hdisk
  obtain ⟨opened, e, hopen, hreads⟩ := hshown faultless quiet_faultless
  obtain ⟨opened', e', hopen', -, -, -, hstore⟩ := hone.sound.opens p quiet_faultless
  cases hopen.symm.trans hopen'
  obtain ⟨r, hr, -, hvector⟩ := hreads 0 (some w) (by rw [hone.writes]; rfl)
  have hnone : opened.store.get? 0 = none := by
    rw [hstore hone.vectors, VectorStore.get?,
      find_empty hone.sound.database.store.consistent hone.slotCount]
    rfl
  rw [getVector_get? quiet_faultless, hnone] at hr
  cases hr
  cases hvector

end OneWrite

theorem ended_writes_shown_one_vector : ∃ (s t : Program Bool Bool) (impl : Impl Bool),
    (Statement.destroy false).Ends s impl ∧ impl.writes = [(0, some [Component.one])] ∧
      impl.Shown unitPlatform s t := by
  obtain ⟨s, impl, empty, disk, hone⟩ := exists_oneWrite unitPlatform unitConfig_valid
    unitConfig_sized (w := [Component.one]) (by decide)
  exact ⟨s, _, impl, .destroyed hone.owns, hone.writes, ended_writes_shown hone.reachable
    quiet_faultless hone.destroyed (.destroyed hone.owns) trivial⟩

theorem overwritten_writes_dropped : ¬ ∀ (s t : Program Bool Bool) (impl : Impl Bool)
    (statement : Statement Bool Bool), (programs unitPlatform).Reachable s →
      s.after unitPlatform faultless statement = some t → statement.Ends s impl →
      impl.Shown unitPlatform s t := by
  intro hall
  obtain ⟨s, impl, empty, disk, hone⟩ := exists_oneWrite unitPlatform unitConfig_valid
    unitConfig_sized (w := [Component.one]) (by decide)
  obtain ⟨s, t, statement, hr, ht, hend, hnot⟩ := hone.dropped unitConfig_valid unitConfig_sized
  exact hnot (hall s t impl statement hr ht hend)

end VectorDb.Db
