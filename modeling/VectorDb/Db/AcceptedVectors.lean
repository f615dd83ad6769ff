import VectorDb.Db.Operations

/-!
A database that does not normalize keeps only vectors that passed the check of `insert`,
over any run, so that another database takes them as they are.
-/
set_option autoImplicit false

namespace VectorDb.Db

open VectorDb.Lib VectorDb.Storage VectorDb.Index Throwing

/-- Where vectors are kept as they are given, each one passed its check. -/
def Accepted (s : VectorStore) : Prop :=
  s.normalizes = false → ∀ row ∈ s.vectors.rows, validateVector row s.dimension = .ok ()

/-- The same for the store in the files. -/
def Files.Accepted (f : Files) : Prop :=
  ∀ s : VectorStore, s.Consistent → f.vectors = some (writeVectorFile s) → Db.Accepted s

def State.Accepted : State → Prop
  | .absent => True
  | .closed d => d.files.Accepted
  | .opened h => h.files.Accepted ∧ Db.Accepted h.db.store

section Store
variable {K : Type} {a : Arithmetic K} {s t : VectorStore} {id : VectorId} {v : FloatVector}
  {norm : BitVec 32} {alive : Bool} {slot : LocalId}

theorem accepted_of_empty (h : s.slotCount = 0) : Accepted s := by
  intro _ row hrow
  rw [List.length_eq_zero_iff.mp h] at hrow
  cases hrow

theorem storedForm_of_not_normalizes (h : s.normalizes = false) :
    VectorStore.storedForm a s.normalizes v = v := by
  rw [h]
  rfl

theorem accepted_appended
    (ht : VectorStore.Appended s t id (VectorStore.storedForm a s.normalizes v) norm alive)
    (hs : Accepted s) (hv : validateVector v s.dimension = .ok ()) : Accepted t := by
  intro hn row hrow
  rw [ht.normalizes] at hn
  rw [ht.rows, List.mem_append, List.mem_singleton, storedForm_of_not_normalizes hn] at hrow
  rw [ht.dimension]
  rcases hrow with hrow | rfl
  · exact hs hn row hrow
  · exact hv

theorem accepted_assigned
    (ht : VectorStore.Assigned s t slot (VectorStore.storedForm a s.normalizes v) norm)
    (hs : Accepted s) (hv : validateVector v s.dimension = .ok ()) : Accepted t := by
  intro hn row hrow
  rw [ht.normalizes] at hn
  rw [ht.rows, storedForm_of_not_normalizes hn] at hrow
  rw [ht.dimension]
  rcases List.mem_or_eq_of_mem_set hrow with hrow | rfl
  · exact hs hn row hrow
  · exact hv

theorem accepted_removed (ht : VectorStore.Removed s t id slot) (hs : Accepted s) : Accepted t := by
  intro hn row hrow
  rw [ht.normalizes] at hn
  rw [ht.vectors] at hrow
  rw [VectorStore.dimension, ht.vectors]
  exact hs hn row hrow

theorem accepted_compacted (ht : Compacted s t s.slotCount) (hs : Accepted s) : Accepted t := by
  intro hn row hrow
  rw [ht.normalizes] at hn
  rw [ht.rows] at hrow
  obtain ⟨l, hl, rfl⟩ := List.mem_map.mp hrow
  rw [ht.dimension]
  exact hs hn _ (VectorArray.row_mem (mem_liveSlots.mp hl).1)

end Store

section Files
variable {f g : Files}

theorem Files.Accepted.congr (hf : f.Accepted) (h : g.vectors = f.vectors) : g.Accepted :=
  fun s hs hv => hf s hs (h ▸ hv)

theorem Files.accepted_of_write {s : VectorStore} (hs : s.Consistent) (ha : Db.Accepted s)
    (h : f.vectors = some (writeVectorFile s)) : f.Accepted := by
  intro t ht hv
  rw [writeVectorFile_injective ht hs (Option.some.inj (hv.symm.trans h))]
  exact ha

theorem Files.accepted_of_none (h : f.vectors = none) : f.Accepted := by
  intro s _ hv
  rw [h] at hv
  cases hv

/-- A flush puts the store of the memory into the files, or nothing. -/
theorem Flushed.accepted {env : Environment} {h g : Handle} (hg : Flushed env h g)
    (hs : h.db.store.Consistent) (ha : State.Accepted (.opened h)) :
    State.Accepted (.opened g) := by
  obtain ⟨hf, hd⟩ := ha
  refine ⟨?_, hg.store ▸ hd⟩
  rcases hg.files with hsame | hsame | hsame
  · exact hf.congr hsame.vectors
  · exact Files.accepted_of_write hs hd hsame.vectors
  · exact Files.accepted_of_write hs hd (hsame.vectors.trans (Files.flushed_vectors _ _))

theorem Wrote.accepted {h g : Handle} {s : MetadataStore} (hg : Wrote h s g)
    (ha : State.Accepted (.opened h)) : State.Accepted (.opened g) :=
  ⟨hg.files ▸ ha.1, hg.store ▸ ha.2⟩

end Files

section Runs
variable {K : Type} [BEq K] [LT K] [DecidableLT K] (p : Platform K) (env : Environment)

/-- What one call keeps. -/
theorem Operation.run_accepted (op : Operation) {h : Handle} (hh : HandleSound False h)
    (ha : State.Accepted (.opened h)) :
    State.Accepted (.opened (exec (op.run p env) h).2) := by
  have hs := hh.database.store.consistent
  have hout := op.outcome p env hh
  generalize (exec (op.run p env) h).2 = g at hout
  cases hout with
  | unchanged => exact ha
  | read n => exact ha
  | @inserted _ _ _ _ db _ _ hc hgrown hg =>
    have hdb : State.Accepted (.opened { h with db := db }) :=
      ⟨ha.1, accepted_appended hgrown.store ha.2 (VectorStore.insertCheck_ok hc).2⟩
    exact hg.accepted hdb
  | upserted _ hv hassigned hg =>
    have hdb := accepted_assigned hassigned ha.2 hv
    exact hg.accepted ⟨ha.1, hdb⟩
  | removed _ hremoved hg => exact hg.accepted ⟨ha.1, accepted_removed hremoved ha.2⟩
  | metadataSet _ hg => exact hg.accepted ha
  | rebuilt _ hg => exact hg.accepted hs ha
  | compacted ht _ hg => exact hg.accepted ht.consistent ⟨ha.1, accepted_compacted ht ha.2⟩
  | flushed hg => exact hg.accepted hs ha

/-- A new database is empty, in memory and in its file. -/
theorem create_accepted {c : DatabaseConfig} (hv : c.validate = .ok ()) :
    (State.ofCall (exec (create p env c) newDirectory)).Accepted := by
  have hinit := initialise_spec p env hv newDirectory ⟨.refl _, MetadataStore.holds_fresh _⟩
  rw [exec_create p env hv]
  rcases hexec : exec (initialise p env c) newDirectory with ⟨r, d⟩
  rw [hexec] at hinit
  cases r with
  | error e => exact Files.accepted_of_none hinit.1.vectors
  | ok db =>
    obtain ⟨hmade, hf, -⟩ := hinit
    have hs := hmade.store.consistent
    have hnew : State.Accepted (.opened ⟨d, db⟩) :=
      ⟨Files.accepted_of_none hf.vectors, accepted_of_empty hmade.slotCount⟩
    have hflushed := (flush_flushedTo env ⟨d, db⟩).accepted hs hnew
    dsimp only
    rcases hexec : exec (flush env) ⟨d, db⟩ with ⟨r, h⟩
    rw [hexec] at hflushed
    cases r with
    | ok u => exact hflushed
    | error e =>
      have hstore : h.db.store = db.store := by
        have hsame := (flush_flushedTo env ⟨d, db⟩).store
        rw [hexec] at hsame
        exact hsame
      have hagain := (flush_flushedTo env h).accepted (hstore ▸ hs) hflushed
      dsimp only
      rw [exec_destroy_files]
      exact hagain.1

theorem openDatabase_accepted {d : Disk} (hd : DiskSound False d) (ha : d.files.Accepted) :
    (State.ofCall (exec (openDatabase p env) d.directory)).Accepted := by
  rcases hd.sound with habandoned | ⟨c, hv, hsized, hfiles, htables⟩
  · have hopen := openDatabase_abandoned p env d.directory habandoned.fresh
    rcases hexec : exec (openDatabase p env) d.directory with ⟨r, t⟩
    rw [hexec] at hopen
    cases r with
    | ok db => exact hopen.elim
    | error e => exact Files.accepted_of_none hopen.abandoned.vectors
  · obtain ⟨s, _, hs, hvectors, -, hopen⟩ := reopen_spec p env hv hsized hfiles htables
    have hspec := hopen d.directory ⟨.refl _, MetadataStore.holds_fresh _⟩
    rcases hexec : exec (openDatabase p env) d.directory with ⟨r, t⟩
    rw [hexec] at hspec
    cases r with
    | error e => exact ha.congr hspec.1.vectors
    | ok db =>
      obtain ⟨hsame, -, ho, -⟩ := hspec
      refine ⟨ha.congr hsame.vectors, ?_⟩
      show Accepted db.store
      rw [ho.store]
      rcases hvectors with hvectors | ⟨-, hcount⟩
      · exact ha s hs.consistent hvectors
      · exact accepted_of_empty hcount

theorem State.after_accepted {s : State} {event : Event} (hs : s.Sound False) (ha : s.Accepted) :
    (s.after p env event).Accepted := by
  cases s with
  | absent =>
    cases event with
    | create config sized =>
      cases hv : config.validate with
      | error e => simp [State.after, hv, State.Accepted]
      | ok u =>
        rw [State.after_create p env sized hv]
        exact create_accepted p env hv
    | _ => trivial
  | closed d =>
    cases event with
    | reopen => exact openDatabase_accepted p env hs ha
    | _ => exact ha
  | opened h =>
    cases event with
    | call op => exact op.run_accepted p env hs ha
    | crash => exact ha.1
    | close =>
      show Files.Accepted (exec (destroy env) h).2.disk.files
      rw [exec_destroy_files]
      exact ((flush_flushedTo env h).accepted hs.database.store.consistent ha).1
    | _ => exact ha

/-- Whatever a run does, what it keeps was accepted. -/
theorem reachable_accepted {allowed : Event → Environment → State → Prop} {s : State}
    (hr : (runs p allowed).Reachable s) : s.Sound False ∧ s.Accepted := by
  refine hr.invariant (P := fun s => s.Sound False ∧ s.Accepted) ?_ ?_
  · rintro _ rfl
    exact ⟨trivial, trivial⟩
  · rintro s _ ⟨hs, ha⟩ ⟨event, env, -, rfl⟩
    exact ⟨State.after_sound p env hs event fun _ _ _ h => h.elim,
      State.after_accepted p env hs ha⟩

end Runs

end VectorDb.Db
