import VectorDb.Storage.MetadataOutcome

/-!
Sequences of `set`, `set_key`, `remove_key` and `remove` beside the map of maps they are
to maintain.
-/
set_option autoImplicit false

namespace VectorDb.Storage

open VectorDb.Lib Throwing

/-- A call that changes the metadata of one vector. -/
inductive Edit where
  | set (id : VectorId) (metadata : Metadata)
  | setKey (id : VectorId) (key : Text) (value : MetadataValue)
  | removeKey (id : VectorId) (key : Text)
  | remove (id : VectorId)

namespace Edit

def run (faults : Faults) : Edit → MetadataStore.Call Unit
  | .set id metadata => MetadataStore.set faults id metadata
  | .setKey id key value => MetadataStore.setKey faults id key value
  | .removeKey id key => do let _ ← MetadataStore.removeKey faults id key
  | .remove id => do let _ ← MetadataStore.remove faults id

/-- What the call is for: the map of every vector after it. -/
def apply (maps : VectorId → Metadata) : Edit → VectorId → Metadata
  | .set id metadata => Function.update maps id metadata
  | .setKey id key value => Function.update maps id ((maps id).insert key value)
  | .removeKey id key => Function.update maps id ((maps id).erase key)
  | .remove id => Function.update maps id ∅

/-- A sequence of calls all of which return. -/
inductive Succeed (faults : Faults) : List Edit → MetadataStore → MetadataStore → Prop where
  | nil {s : MetadataStore} : Succeed faults [] s s
  | cons {edit : Edit} {edits : List Edit} {s t u : MetadataStore} :
      exec (edit.run faults) s = (.ok (), t) → Succeed faults edits t u →
      Succeed faults (edit :: edits) s u

/-- The rows of every vector are those that its map is bound to. -/
def Represents (t : Tables) (maps : VectorId → Metadata) : Prop :=
  ∀ id, t.rows id = boundRows (maps id)

/-- Nothing is open, and the tables represent the maps. -/
def Holding (maps : VectorId → Metadata) (s : MetadataStore) : Prop :=
  ∃ t, MetadataStore.Holds t s ∧ Represents t maps

section Rows
variable {t : Tables} {maps : VectorId → Metadata}

theorem boundRows_empty : boundRows ∅ = ∅ :=
  Std.ExtTreeMap.ext_getElem? fun _ => by simp [boundRows]

theorem boundRows_insert (m : Metadata) (key : Text) (value : MetadataValue) :
    boundRows (m.insert key value) = (boundRows m).insert key (bindValue value) := by
  apply Std.ExtTreeMap.ext_getElem?
  intro k
  by_cases hk : key = k
  · simp [boundRows, hk]
  · simp [boundRows, Std.ExtTreeMap.getElem?_insert, hk]

theorem boundRows_erase (m : Metadata) (key : Text) :
    boundRows (m.erase key) = (boundRows m).erase key := by
  apply Std.ExtTreeMap.ext_getElem?
  intro k
  by_cases hk : key = k
  · simp [boundRows, hk]
  · simp [boundRows, Std.ExtTreeMap.getElem?_erase, hk]

/-- The rows of one vector change, and with them its map. -/
theorem Represents.update (h : Represents t maps) {u : Tables} {id : VectorId} {m : Metadata}
    (hrows : ∀ i, u.rows i = if i = id then boundRows m else t.rows i) :
    Represents u (Function.update maps id m) := by
  intro i
  rw [hrows]
  by_cases hi : i = id
  · rw [if_pos hi, hi, Function.update_self]
  · rw [if_neg hi, Function.update_of_ne hi, h i]

end Rows

section Steps
variable (faults : Faults) {maps : VectorId → Metadata}

theorem setKey_holding (id : VectorId) (key : Text) (value : MetadataValue) :
    Triple (Holding maps) (MetadataStore.setKey faults id key value)
      (fun _ => Holding (Function.update maps id ((maps id).insert key value)))
      (fun _ _ => True) := by
  rintro s ⟨t, hs, ht⟩
  have hset : Triple (MetadataStore.Holds t) (MetadataStore.setKey faults id key value)
      (fun _ => MetadataStore.Holds (t.insertValue id key (bindValue value))) (fun _ _ => True) :=
    Triple.bind ((MetadataStore.checkKeys_spec _).conseq (fun _ h => h) (fun _ _ h => h)
      fun _ _ _ => trivial) fun _ => (MetadataStore.runStatement_holds faults _).conseq
        (fun _ h => h) (fun _ _ h => h) fun _ _ _ => trivial
  refine (hset.conseq (fun _ h => h) (fun _ u hu => ?_) fun _ _ h => h) s hs
  refine ⟨_, hu, ht.update fun i => ?_⟩
  rw [Tables.rows_insertValue, boundRows_insert, ht id]

theorem removeKey_holding (id : VectorId) (key : Text) :
    Triple (Holding maps) (MetadataStore.removeKey faults id key)
      (fun _ => Holding (Function.update maps id ((maps id).erase key))) (fun _ _ => True) := by
  rintro s ⟨t, hs, ht⟩
  refine Triple.bind ((MetadataStore.queryStatement_holds faults
    fun t => (t.rows id).contains key).conseq (fun _ h => h) (fun _ _ h => h)
      fun _ _ _ => trivial) (fun present => ?_) s hs
  cases present with
  | true =>
    refine Triple.bind (((MetadataStore.runStatement_holds faults (·.deleteKey id key)).conseq
      (fun _ h => h.2) (fun _ _ h => h) fun _ _ _ => trivial)) fun _ => Triple.pure fun u hu => ?_
    refine ⟨_, hu, ht.update fun i => ?_⟩
    rw [Tables.rows_deleteKey, boundRows_erase, ht id]
  | false =>
    refine Triple.pure fun u hu => ⟨t, hu.2, ht.update fun i => ?_⟩
    -- erasing a key that is not there
    have habsent : key ∉ t.rows id := by
      rw [Std.ExtTreeMap.mem_iff_contains, ← hu.1]
      exact Bool.false_ne_true
    have hsame : boundRows ((maps id).erase key) = t.rows id := by
      rw [boundRows_erase, ← ht id]
      apply Std.ExtTreeMap.ext_getElem?
      intro k
      by_cases hk : key = k
      · simp [← hk, Std.ExtTreeMap.getElem?_eq_none habsent]
      · simp [Std.ExtTreeMap.getElem?_erase, hk]
    by_cases hi : i = id
    · rw [if_pos hi, hsame, hi]
    · rw [if_neg hi]

theorem run_holding (edit : Edit) :
    Triple (Holding maps) (edit.run faults) (fun _ => Holding (edit.apply maps))
      (fun _ _ => True) := by
  cases edit with
  | set id metadata =>
    rintro s ⟨t, hs, ht⟩
    refine ((MetadataStore.set_holds faults id metadata).conseq (fun _ h => h) (fun _ u hu => ?_)
      fun _ _ _ => trivial) s hs
    exact ⟨_, hu, ht.update fun i => Tables.rows_replaceRows t id i metadata⟩
  | setKey id key value => exact setKey_holding faults id key value
  | removeKey id key =>
    exact Triple.bind (removeKey_holding faults id key) fun _ => Triple.pure fun _ h => h
  | remove id =>
    rintro s ⟨t, hs, ht⟩
    refine Triple.bind ((MetadataStore.remove_holds faults id).conseq (fun _ h => h)
      (fun _ _ h => h) fun _ _ _ => trivial) (fun _ => Triple.pure fun u hu => ?_) s hs
    obtain ⟨v, hv, -, hrows⟩ := hu
    exact ⟨v, hv, ht.update fun i => by rw [hrows, boundRows_empty]⟩

/-- A sequence of successful calls keeps the tables representing the maps. -/
theorem Succeed.holding {edits : List Edit} {s t : MetadataStore} (h : Succeed faults edits s t)
    (hs : Holding maps s) : Holding (edits.foldl apply maps) t := by
  induction h generalizing maps with
  | nil => exact hs
  | @cons edit edits s t u hrun _ ih =>
    have hstep := run_holding faults edit s hs
    rw [hrun] at hstep
    exact ih hstep

end Steps

end Edit

end VectorDb.Storage
