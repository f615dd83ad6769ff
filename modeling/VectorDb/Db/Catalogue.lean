import VectorDb.Db.Journal

/-!
What a database is for: a catalogue that has for each id at most one vector and its metadata.
Where no process dies, the journal of a database is such a catalogue, and so the database shows
the catalogue that its calls describe, however often the directory is closed and opened.
-/
set_option autoImplicit false

namespace VectorDb.Db

open VectorDb.Lib VectorDb.Storage Throwing

/-- The vectors and the metadata as they were given, and the next automatic id. -/
structure Catalogue where
  entries : VectorId → Option (FloatVector × Metadata)
  next : VectorId

def Catalogue.empty : Catalogue := ⟨fun _ => none, 0⟩

def Catalogue.set (c : Catalogue) (id : VectorId) (entry : Option (FloatVector × Metadata)) :
    Catalogue :=
  { c with entries := Function.update c.entries id entry }

def Catalogue.insert (c : Catalogue) (id : VectorId) (v : FloatVector) (m : Metadata) : Catalogue :=
  { c.set id (some (v, m)) with next := advance c.next id }

/-- What a call that returns makes of a catalogue. -/
def Catalogue.after (c : Catalogue) : Operation → Catalogue
  | .insert id v m => c.insert id v m
  | .insertAuto v m => c.insert c.next v m
  | .upsert id v m => if (c.entries id).isSome then c.set id (some (v, m)) else c.insert id v m
  | .remove id => c.set id none
  | .setMetadata id m => c.set id ((c.entries id).map fun entry => (entry.1, m))
  | .getVector _ | .search _ _ | .stats | .rebuildIndex | .compact | .flush => c

/-- Only what is called on an open database changes the catalogue. -/
def Catalogue.afterEvent (c : Catalogue) : Event → State → Catalogue
  | .create _ _, .absent => .empty
  | .call op, .opened _ => c.after op
  | _, _ => c

@[simp] theorem Catalogue.entries_set {c : Catalogue} {id i : VectorId}
    {entry : Option (FloatVector × Metadata)} :
    (c.set id entry).entries i = if i = id then entry else c.entries i :=
  Function.update_apply ..

@[simp] theorem Catalogue.entries_insert {c : Catalogue} {id i : VectorId} {v : FloatVector}
    {m : Metadata} :
    (c.insert id v m).entries i = if i = id then some (v, m) else c.entries i :=
  Function.update_apply ..

/-- A journal in which only vectors have metadata is a catalogue. -/
structure Journal.Shows (j : Journal) (c : Catalogue) : Prop where
  entries : ∀ id, c.entries id = (j.live.vectors id).map fun v => (v, j.metadata id)
  bare : ∀ id, j.live.vectors id = none → j.metadata id = ∅
  next : c.next = j.live.next

namespace Journal.Shows
variable {j : Journal} {c : Catalogue} {id : VectorId} {v : FloatVector} {m : Metadata}

theorem isSome (h : j.Shows c) (id : VectorId) :
    (c.entries id).isSome = (j.live.vectors id).isSome := by
  rw [h.entries, Option.isSome_map]

/-- A vector with its metadata, in place of the one there was. -/
theorem put (h : j.Shows c) {k : Journal} (hmetadata : k.metadata = Function.update j.metadata id m)
    (hvectors : ∀ i, k.live.vectors i = if i = id then some v else j.live.vectors i) :
    k.Shows { c.set id (some (v, m)) with next := k.live.next } := by
  refine ⟨fun i => ?_, fun i hi => ?_, rfl⟩
  · show (c.set id (some (v, m))).entries i = _
    rw [Catalogue.entries_set, hvectors, hmetadata, Function.update_apply]
    split
    · rfl
    · exact h.entries i
  · rw [hvectors] at hi
    rw [hmetadata, Function.update_apply]
    split at hi
    next => cases hi
    next hne => rw [if_neg hne, h.bare i hi]

/-- Empty metadata are those of an id that was not in use. -/
theorem insert (h : j.Shows c) (hnew : j.live.vectors id = none) :
    (j.insert id v m).Shows (c.insert id v m) := by
  have hmetadata : (j.insert id v m).metadata = Function.update j.metadata id m := by
    unfold Journal.insert
    split
    next hm =>
      have hsame : m = j.metadata id := by
        rw [h.bare id hnew]
        exact Std.ExtTreeMap.isEmpty_iff.mp hm
      rw [hsame, Function.update_eq_self]
    next => rfl
  have hput := h.put (v := v) hmetadata fun i => by rw [Journal.live_insert, Contents.vectors_insert]
  rw [Journal.live_insert] at hput
  rw [Catalogue.insert, h.next]
  exact hput

theorem remove (h : j.Shows c) :
    ({ j with live := j.live.remove id }.setMetadata id ∅).Shows (c.set id none) := by
  refine ⟨fun i => ?_, fun i hi => ?_, h.next⟩
  · by_cases heq : i = id
    · simp [setMetadata, heq]
    · simp [setMetadata, heq, h.entries i]
  · by_cases heq : i = id
    · simp [setMetadata, heq]
    · have hnone : j.live.vectors i = none := by simpa [setMetadata, heq] using hi
      simp [setMetadata, heq, h.bare i hnone]

theorem setMetadata (h : j.Shows c) (hold : (j.live.vectors id).isSome) :
    (j.setMetadata id m).Shows (c.set id ((c.entries id).map fun entry => (entry.1, m))) := by
  obtain ⟨v, hv⟩ := Option.isSome_iff_exists.mp hold
  have hput := h.put (k := j.setMetadata id m) (v := v) rfl fun i => by
    split
    next hi => rw [hi]; exact hv
    next => rfl
  rw [h.entries, hv]
  have hnext : (c.set id (some (v, m))) =
      { c.set id (some (v, m)) with next := (j.setMetadata id m).live.next } := by
    rw [Journal.setMetadata, ← h.next]
    rfl
  exact hnext ▸ hput

end Journal.Shows

section Calls
variable {K : Type} [BEq K] [LT K] [DecidableLT K] (p : Platform K) (env : Environment)
variable {j : Journal} {c : Catalogue} {h g : Handle} {id : VectorId} {v : FloatVector}
  {m : Metadata}

theorem absent_of_inserted (hexec : exec (insert p env id v m) h = (.ok (), g)) :
    h.db.store.contains id = false := by
  cases hcheck : h.db.store.insertCheck id v with
  | error e =>
    rw [exec_insert_rejected p env hcheck] at hexec
    cases hexec
  | ok u => exact (VectorStore.insertCheck_ok hcheck).1

theorem present_of_setMetadata (hexec : exec (setMetadata env id m) h = (.ok (), g)) :
    h.db.store.contains id = true := by
  refine Bool.eq_true_of_not_eq_false fun hc => ?_
  rw [exec_setMetadata_absent env hc] at hexec
  cases hexec

/-- What a call that returns makes of the journal it makes of the catalogue. -/
theorem Journal.Shows.after (hs : j.Shows c) (hc : h.Carries p j) {op : Operation}
    (hexec : exec (op.run p env) h = (.ok (), g)) : (j.after op).Shows (c.after op) := by
  obtain ⟨t, -, hc⟩ := hc
  have habsent : ∀ id, h.db.store.contains id = false → j.live.vectors id = none := fun id hnew => by
    rw [hc.live.contains] at hnew
    exact Option.not_isSome_iff_eq_none.mp (Bool.eq_false_iff.mp hnew)
  cases op with
  | insert id v m => exact hs.insert (habsent id (absent_of_inserted p env hexec))
  | insertAuto v m =>
    rw [Operation.run_insertAuto] at hexec
    rw [Journal.after, Catalogue.after, hs.next, ← hc.live.next]
    exact hs.insert (habsent _ (absent_of_inserted p env hexec))
  | upsert id v m =>
    rw [Journal.after, Catalogue.after, hs.isSome]
    split
    next =>
      have hput := hs.put (k := { j with live := j.live.put id v }.setMetadata id m) (v := v) rfl
        fun i => Contents.vectors_put
      have hnext : c.set id (some (v, m)) =
          { c.set id (some (v, m)) with next := (j.live.put id v).next } := by
        rw [Contents.put, ← hs.next]
        rfl
      exact hnext ▸ hput
    next hnone => exact hs.insert (Option.not_isSome_iff_eq_none.mp hnone)
  | remove id =>
    rw [Journal.after, Catalogue.after]
    split
    next => exact hs.remove
    next hnone =>
      have hentry : c.entries id = none := by
        rw [← Option.not_isSome_iff_eq_none, hs.isSome]
        exact hnone
      have hset : c.set id none = c := by rw [Catalogue.set, ← hentry, Function.update_eq_self]
      rw [hset]
      exact hs
  | setMetadata id m =>
    exact hs.setMetadata (by rw [← hc.live.contains]; exact present_of_setMetadata env hexec)
  | getVector id => exact hs
  | search query options => exact hs
  | stats => exact hs
  | rebuildIndex => exact ⟨hs.entries, hs.bare, hs.next⟩
  | compact =>
    rw [Journal.after, Catalogue.after]
    split
    · exact hs
    · exact ⟨hs.entries, hs.bare, hs.next⟩
  | flush => exact ⟨hs.entries, hs.bare, hs.next⟩

end Calls

section Runs
variable {K : Type} [BEq K] [LT K] [DecidableLT K] (p : Platform K)

theorem Journal.Shows.afterEvent {j : Journal} {c : Catalogue} (hs : j.Shows c) {s : State}
    (hc : s.Carries p j) {event : Event} {env : Environment} (hok : event.Succeeds p env s) :
    (j.afterEvent event s).Shows (c.afterEvent event s) := by
  cases event with
  | create config sized =>
    cases s with
    | absent => exact ⟨fun _ => rfl, fun _ _ => rfl, rfl⟩
    | closed d => exact hs
    | opened h => exact hs
  | call op =>
    cases s with
    | absent => exact hs
    | closed d => exact hs
    | opened h =>
      obtain ⟨g, hexec⟩ := hok
      exact hs.after p env hc hexec
  | crash => exact hok.elim
  | close =>
    cases s with
    | absent => exact hs
    | closed d => exact hs
    | opened h => exact ⟨hs.entries, hs.bare, hs.next⟩
  | reopen =>
    cases s <;> exact hs

variable {p} {c : Catalogue}

/-- What is read of a database that shows a catalogue. -/
structure ReadsAsCatalogue (p : Platform K) (c : Catalogue) (h : Handle) : Prop where
  getVector : ∀ env : Environment, env.Quiet → ∀ id, (exec (getVector env id) h).1 =
    .ok ((c.entries id).map fun entry =>
      ⟨id, VectorStore.storedForm p.toArithmetic h.db.config.normalize entry.1,
        entry.2.map fun _ value => value.stored⟩)
  filterIds : ∀ env : Environment, env.Quiet → ∀ filter : Filter,
    ∃ ids, (exec (filterIds env filter) h).1 = .ok ids ∧ ∀ id, id ∈ ids ↔
      ∃ entry, c.entries id = some entry ∧ entry.2.isEmpty = false ∧
        filter.matches (entry.2.map fun _ value => value.stored) = true
  allIds : ∀ id, id ∈ h.db.allIds ↔ (c.entries id).isSome
  nextAutoId : h.db.nextAutoId = c.next

theorem ReadsAs.catalogue {j : Journal} {h : Handle} (hr : ReadsAs p j h) (hs : j.Shows c) :
    ReadsAsCatalogue p c h := by
  refine ⟨fun env hq id => ?_, fun env hq filter => ?_, fun id => ?_, hr.nextAutoId.trans hs.next.symm⟩
  · rw [hr.getVector env hq, hs.entries, Option.map_map]
    rfl
  · obtain ⟨ids, hids, hmem⟩ := hr.filterIds env hq filter
    refine ⟨ids, hids, fun id => ?_⟩
    rw [hmem, hs.entries]
    cases j.live.vectors id <;> simp
  · rw [hr.allIds, hs.isSome]

end Runs

end VectorDb.Db
