import VectorDb.Storage.Filter
import VectorDb.Storage.MetadataStore

/-!
`MetadataStore::matching`: one pass over the rows of all vectors, which come grouped by
their vector, and what it collects.
-/
set_option autoImplicit false

namespace VectorDb.Storage

open VectorDb.Lib

/-- `ORDER BY vector_id, key`. -/
def Tables.allRows (t : Tables) : List (VectorId × Text × Row) :=
  t.orderedIds.flatMap fun id => (t.rows id).toList.map fun entry => (id, entry)

/-- The distinct keys, in order. -/
def Tables.keysOf (t : Tables) : List Text :=
  (t.allRows.foldl (fun (keys : Std.ExtTreeSet Text compare) row => keys.insert row.2.1) ∅).toList

namespace MetadataStore

def rowCount (faults : Faults) : Call Nat :=
  sql (queryStatement faults none fun t => t.allRows.length)

def keys (faults : Faults) : Call (List Text) := sql (queryStatement faults none Tables.keysOf)

/-- The variables of the loop of `matching`; `current` is `none` until a row was read. -/
structure Scan where
  found : List VectorId
  current : Option (VectorId × Metadata)

/-- `current[key] = ...`, unless the row has an unknown type. -/
def readRow (metadata : Metadata) (entry : Text × Row) : Metadata :=
  match entry.2.value? with
  | some value => metadata.insert entry.1 value
  | none => metadata

section Scan
variable (filter : Filter)

/-- The `flush` of the loop. -/
def Scan.flush (s : Scan) : List VectorId :=
  match s.current with
  | none => s.found
  | some (id, metadata) => if filter.matches metadata then s.found ++ [id] else s.found

def Scan.step (s : Scan) (row : VectorId × Text × Row) : Scan :=
  match s.current with
  | none => ⟨s.flush filter, some (row.1, readRow ∅ row.2)⟩
  | some (id, metadata) =>
    if row.1 = id then { s with current := some (id, readRow metadata row.2) }
    else ⟨s.flush filter, some (row.1, readRow ∅ row.2)⟩

/-- What `matching` returns, given the tables. -/
def matchingIds (t : Tables) : List VectorId :=
  (t.allRows.foldl (Scan.step filter) ⟨[], none⟩).flush filter

def matching (faults : Faults) : Call (List VectorId) :=
  sql (queryStatement faults none (matchingIds filter))

end Scan

section Read

theorem getElem?_readRow (m : Metadata) (entry : Text × Row) (key : Text) :
    (readRow m entry)[key]? = if entry.1 = key then entry.2.value?.or m[key]? else m[key]? := by
  unfold readRow
  cases entry.2.value? with
  | none => simp
  | some value => simp [Std.ExtTreeMap.getElem?_insert]

theorem getElem?_foldl_readRow_of_notMem (entries : List (Text × Row)) (m : Metadata) (key : Text)
    (hkey : key ∉ entries.map Prod.fst) : (entries.foldl readRow m)[key]? = m[key]? := by
  induction entries generalizing m with
  | nil => rfl
  | cons entry entries ih =>
    simp only [List.map_cons, List.mem_cons, not_or] at hkey
    rw [List.foldl_cons, ih _ hkey.2, getElem?_readRow, if_neg fun h => hkey.1 h.symm]

/-- Rows with different keys are read independently of each other. -/
theorem getElem?_foldl_readRow {entries : List (Text × Row)}
    (hnodup : (entries.map Prod.fst).Nodup) (m : Metadata) {key : Text} {row : Row}
    (hmem : (key, row) ∈ entries) : (entries.foldl readRow m)[key]? = row.value?.or m[key]? := by
  induction entries generalizing m with
  | nil => cases hmem
  | cons entry entries ih =>
    obtain ⟨hnew, hnodup⟩ := List.nodup_cons.mp hnodup
    rw [List.foldl_cons]
    rcases List.mem_cons.mp hmem with rfl | hmem
    · rw [getElem?_foldl_readRow_of_notMem _ _ _ hnew, getElem?_readRow, if_pos rfl]
    · have hne : entry.1 ≠ key := fun h => hnew (h ▸ List.mem_map_of_mem hmem)
      rw [ih hnodup _ hmem, getElem?_readRow, if_neg hne]

/-- The rows of one vector give what `get` gives. -/
theorem foldl_readRow_toList (rows : Std.ExtTreeMap Text Row compare) :
    rows.toList.foldl readRow ∅ = metadataOf rows := by
  have hnodup : (rows.toList.map Prod.fst).Nodup := by
    rw [Std.ExtTreeMap.map_fst_toList_eq_keys]
    exact Std.ExtTreeMap.nodup_keys
  apply Std.ExtTreeMap.ext_getElem?
  intro key
  cases hrow : rows[key]? with
  | none =>
    rw [getElem?_foldl_readRow_of_notMem]
    · simp [metadataOf, hrow]
    · rw [Std.ExtTreeMap.map_fst_toList_eq_keys, Std.ExtTreeMap.mem_keys]
      intro hmem
      have hsome := Std.ExtTreeMap.mem_iff_isSome_getElem?.mp hmem
      rw [hrow] at hsome
      cases hsome
  | some row =>
    rw [getElem?_foldl_readRow hnodup ∅
      (Std.ExtTreeMap.mem_toList_iff_getElem?_eq_some.mpr hrow)]
    simp [metadataOf, hrow]

end Read

section Groups
variable {filter : Filter}

theorem foldl_step_same (id : VectorId) (entries : List (Text × Row)) (found : List VectorId)
    (m : Metadata) :
    (entries.map fun entry => (id, entry)).foldl (Scan.step filter) ⟨found, some (id, m)⟩ =
      ⟨found, some (id, entries.foldl readRow m)⟩ := by
  induction entries generalizing m with
  | nil => rfl
  | cons entry entries ih =>
    rw [List.map_cons, List.foldl_cons, List.foldl_cons, ← ih]
    simp [Scan.step]

/-- The rows of one vector, when the scan was at another. -/
theorem foldl_step_group (id : VectorId) (entries : List (Text × Row)) (s : Scan)
    (hne : entries ≠ []) (hnew : ∀ m, s.current ≠ some (id, m)) :
    (entries.map fun entry => (id, entry)).foldl (Scan.step filter) s =
      ⟨s.flush filter, some (id, entries.foldl readRow ∅)⟩ := by
  cases entries with
  | nil => exact absurd rfl hne
  | cons entry entries =>
    rw [List.map_cons, List.foldl_cons, List.foldl_cons, ← foldl_step_same]
    refine congrArg (fun s => List.foldl (Scan.step filter) s _) ?_
    obtain ⟨found, current⟩ := s
    cases current with
    | none => rfl
    | some at_ =>
      obtain ⟨i, m⟩ := at_
      have hi : id ≠ i := by
        rintro rfl
        exact hnew m rfl
      simp [Scan.step, hi]

/-- The ids of the vectors whose rows satisfy the filter. -/
def Passing (filter : Filter) (t : Tables) (id : VectorId) : Bool :=
  !(t.rows id).toList.isEmpty && filter.matches (metadataOf (t.rows id))

theorem flush_group (t : Tables) (id : VectorId) (s : Scan)
    (hnew : ∀ m, s.current ≠ some (id, m)) :
    (((t.rows id).toList.map fun entry => (id, entry)).foldl (Scan.step filter) s).flush filter =
      s.flush filter ++ [id].filter (Passing filter t) := by
  cases hrows : (t.rows id).toList with
  | nil => simp [Passing, hrows]
  | cons entry entries =>
    rw [← hrows, foldl_step_group id _ s (by simp [hrows]) hnew, foldl_readRow_toList]
    cases hm : filter.matches (metadataOf (t.rows id)) with
    | true => simp [Scan.flush, Passing, hrows, hm]
    | false => simp [Scan.flush, Passing, hm]

/-- The scan of a list of vectors, none of them twice. -/
theorem flush_groups (t : Tables) (ids : List VectorId) (hnodup : ids.Nodup) (s : Scan)
    (hnew : ∀ id ∈ ids, ∀ m, s.current ≠ some (id, m)) :
    ((ids.flatMap fun id => (t.rows id).toList.map fun entry => (id, entry)).foldl
        (Scan.step filter) s).flush filter = s.flush filter ++ ids.filter (Passing filter t) := by
  induction ids generalizing s with
  | nil => simp
  | cons id ids ih =>
    obtain ⟨hid, hnodup⟩ := List.nodup_cons.mp hnodup
    have hfirst := hnew id (by simp)
    rw [List.flatMap_cons, List.foldl_append, ih hnodup, flush_group t id s hfirst,
      List.append_assoc, ← List.filter_append, List.singleton_append]
    intro i hi m
    cases hrows : (t.rows id).toList with
    | nil => exact hnew i (by simp [hi]) m
    | cons entry entries =>
      rw [← hrows, foldl_step_group id _ s (by simp [hrows]) hfirst]
      intro hsame
      have hsame : id = i := congrArg Prod.fst (Option.some.inj hsame)
      exact hid (hsame ▸ hi)

theorem Tables.nodup_orderedIds (t : Tables) : t.orderedIds.Nodup := by
  have hkeys : t.metadata.keys.Nodup := Std.ExtTreeMap.nodup_keys
  refine List.nodup_append.mpr ⟨hkeys.filter _, hkeys.filter _, fun a ha b hb hab => ?_⟩
  have hhigh := of_decide_eq_true (List.mem_filter.mp ha).2
  have hlow := of_decide_eq_true (List.mem_filter.mp hb).2
  subst hab
  exact absurd hlow (Nat.not_lt.mpr hhigh)

theorem mem_orderedIds {t : Tables} {id : VectorId} : id ∈ t.orderedIds ↔ id ∈ t.metadata := by
  rw [Tables.orderedIds, List.mem_append, List.mem_filter, List.mem_filter, Std.ExtTreeMap.mem_keys]
  simp only [decide_eq_true_eq]
  rcases Nat.lt_or_ge id.val 9223372036854775808 with hlt | hge
  · simp [hlt]
  · simp [hge]

theorem mem_metadata_of_rows {t : Tables} {id : VectorId} (h : t.rows id ≠ ∅) : id ∈ t.metadata := by
  by_contra hnot
  exact h (by simp [Tables.rows, Std.ExtTreeMap.getD_eq_fallback hnot])

/-- What `matching` collects: the vectors with rows whose metadata satisfies the filter. -/
theorem matchingIds_eq (t : Tables) :
    matchingIds filter t = t.orderedIds.filter (Passing filter t) :=
  flush_groups t t.orderedIds (Tables.nodup_orderedIds t) ⟨[], none⟩ fun _ _ _ h => nomatch h

/-- A vector without rows satisfies no condition. -/
theorem mem_matchingIds (hfilter : filter.isEmpty = false) (t : Tables) (id : VectorId) :
    id ∈ matchingIds filter t ↔ filter.matches (metadataOf (t.rows id)) = true := by
  rw [matchingIds_eq, List.mem_filter, Passing, Bool.and_eq_true]
  refine ⟨fun h => h.2.2, fun hm => ?_⟩
  have hrows : t.rows id ≠ ∅ := by
    intro hempty
    rw [hempty, metadataOf_empty, Filter.matches_empty hfilter] at hm
    cases hm
  refine ⟨?_, ?_, hm⟩
  · exact mem_orderedIds.mpr (mem_metadata_of_rows hrows)
  · simpa using hrows

end Groups

section Order
variable {filter : Filter} {t : Tables}

/-- Where SQLite's integer is not negative. -/
def IsLow (id : VectorId) : Prop := id.val < 9223372036854775808

theorem passing_iff {id : VectorId} : Passing filter t id = true ↔
    t.rows id ≠ ∅ ∧ filter.matches (metadataOf (t.rows id)) = true := by
  simp [Passing]

theorem mem_matchingIds_iff {id : VectorId} : id ∈ matchingIds filter t ↔
    t.rows id ≠ ∅ ∧ filter.matches (metadataOf (t.rows id)) = true := by
  rw [matchingIds_eq, List.mem_filter, mem_orderedIds, passing_iff]
  exact ⟨fun h => h.2, fun h => ⟨mem_metadata_of_rows h.1, h⟩⟩

theorem keys_ascending : t.metadata.keys.Pairwise (· < ·) :=
  Std.ExtTreeMap.ordered_keys.imp fun {_ _} h => compare_lt_iff_lt.mp h

/-- Each half of the list ascends, and the half of the high ids comes first. -/
theorem matchingIds_ascending_iff : (matchingIds filter t).Pairwise (· < ·) ↔
    ∀ a ∈ matchingIds filter t, ∀ b ∈ matchingIds filter t, IsLow a → IsLow b := by
  rw [matchingIds_eq]
  have hmem : ∀ {id : VectorId}, id ∈ t.orderedIds.filter (Passing filter t) ↔
      id ∈ t.metadata.keys ∧ Passing filter t id = true := by
    intro id
    rw [List.mem_filter, mem_orderedIds, Std.ExtTreeMap.mem_keys]
  constructor
  · intro hsorted a ha b hb hlow
    by_contra hhigh
    obtain ⟨hka, hpa⟩ := hmem.mp ha
    obtain ⟨hkb, hpb⟩ := hmem.mp hb
    rw [Tables.orderedIds, List.filter_append, List.pairwise_append] at hsorted
    have hlt := hsorted.2.2 b
      (List.mem_filter.mpr ⟨List.mem_filter.mpr ⟨hkb, by simpa [IsLow] using hhigh⟩, hpb⟩) a
      (List.mem_filter.mpr ⟨List.mem_filter.mpr ⟨hka, by simpa [IsLow] using hlow⟩, hpa⟩)
    simp only [IsLow] at hlow hhigh
    rw [Fin.lt_def] at hlt
    omega
  · intro hsame
    rw [Tables.orderedIds, List.filter_append, List.pairwise_append]
    refine ⟨(keys_ascending.filter _).filter _, (keys_ascending.filter _).filter _,
      fun b hb a ha => ?_⟩
    obtain ⟨hb, hpb⟩ := List.mem_filter.mp hb
    obtain ⟨ha, hpa⟩ := List.mem_filter.mp ha
    obtain ⟨hkb, hhigh⟩ := List.mem_filter.mp hb
    obtain ⟨hka, hlow⟩ := List.mem_filter.mp ha
    have hlow : a.val < 9223372036854775808 := of_decide_eq_true hlow
    have hhigh := of_decide_eq_true hhigh
    have hboth : b.val < 9223372036854775808 :=
      hsame a (hmem.mpr ⟨hka, hpa⟩) b (hmem.mpr ⟨hkb, hpb⟩) hlow
    omega

end Order

section Calls
variable {faults : Faults}

theorem exec_matching (hq : faults.Quiet) (filter : Filter) (s : MetadataStore) :
    (Throwing.exec (matching filter faults) s).1 = .ok (matchingIds filter s.connection.view) := by
  simp only [matching, sql, Throwing.exec_on, exec_queryStatement, hq.failure]

theorem exec_getQuiet (hq : faults.Quiet) (id : VectorId) (s : MetadataStore) :
    (Throwing.exec (get faults id) s).1 = .ok (metadataOf (s.connection.view.rows id)) := by
  simp only [get, sql, Throwing.exec_on, exec_queryStatement, hq.failure]

/-- A vector that has rows, and whose `get` satisfies the filter. -/
def Selected (faults : Faults) (filter : Filter) (s : MetadataStore) (id : VectorId) : Prop :=
  s.connection.view.rows id ≠ ∅ ∧
    ∃ m, (Throwing.exec (get faults id) s).1 = .ok m ∧ filter.matches m = true

theorem mem_matchingIds_selected (hq : faults.Quiet) (filter : Filter) (s : MetadataStore)
    (id : VectorId) : id ∈ matchingIds filter s.connection.view ↔ Selected faults filter s id := by
  rw [mem_matchingIds_iff, Selected, exec_getQuiet hq]
  simp

/-- `matching` gives every selected id once, and gives them in ascending order if and only if the
ids from 2^63 on are not among them, or are all there is. -/
theorem matching_selected_iff (hq : faults.Quiet) (filter : Filter) (s : MetadataStore) :
    ∃ ids, (Throwing.exec (matching filter faults) s).1 = .ok ids ∧ ids.Nodup ∧
      (∀ id, id ∈ ids ↔ Selected faults filter s id) ∧
      (ids.Pairwise (· < ·) ↔ ∀ a b, Selected faults filter s a → Selected faults filter s b →
        IsLow a → IsLow b) := by
  have hmem := mem_matchingIds_selected hq filter s
  refine ⟨_, exec_matching hq filter s, ?_, hmem, ?_⟩
  · rw [matchingIds_eq]
    exact (Tables.nodup_orderedIds _).filter _
  · rw [matchingIds_ascending_iff]
    exact ⟨fun h a b ha hb => h a ((hmem a).mpr ha) b ((hmem b).mpr hb),
      fun h a ha b hb => h a b ((hmem a).mp ha) ((hmem b).mp hb)⟩

/-- Three vectors with a row each, of which two have the key `k`. -/
def threeRows : MetadataStore :=
  let row : Row := bindValue .null
  ⟨⟨(((⟨∅, ∅⟩ : Tables).insertValue 9 [107] row).insertValue 3 [107] row).insertValue 5 [108] row,
    none, 0, fun _ => false⟩, 0, false⟩

theorem matching_selected_three :
    ∃ ids, (Throwing.exec (matching [⟨[107], .equal, .null⟩] fun _ _ => none) threeRows).1 = .ok ids ∧
      ids = [3, 9] ∧ ids.Nodup ∧ ids.Pairwise (· < ·) := by
  have hq : Faults.Quiet fun _ _ => none := fun _ _ => rfl
  obtain ⟨ids, hids, hnodup, hmem, hsorted⟩ := matching_selected_iff hq [⟨[107], .equal, .null⟩] threeRows
  have htwo : ids = [3, 9] := by
    rw [exec_matching hq] at hids
    rw [← Except.ok.inj hids]
    decide +kernel
  refine ⟨ids, hids, htwo, hnodup, hsorted.mpr fun a b _ hb _ => ?_⟩
  rw [← hmem, htwo] at hb
  rw [IsLow]
  obtain rfl | rfl := List.mem_pair.mp hb <;> decide

/-- Two vectors with a row each: the scan comes to the one from 2^63 on first. -/
theorem matching_not_ascending :
    ∃ s : MetadataStore, Selected (fun _ _ => none) [] s 1 ∧
      Selected (fun _ _ => none) [] s 9223372036854775808 ∧
      ∃ ids, (Throwing.exec (matching [] fun _ _ => none) s).1 = .ok ids ∧
        ¬ ids.Pairwise (· < ·) := by
  let row : Row := bindValue .null
  let t : Tables := ((⟨∅, ∅⟩ : Tables).insertValue 1 [107] row).insertValue
    9223372036854775808 [107] row
  have hq : Faults.Quiet fun _ _ => none := fun _ _ => rfl
  have hselected : ∀ id, t.rows id ≠ ∅ → Selected (fun _ _ => none) [] ⟨⟨t, none, 0, fun _ => false⟩, 0, false⟩ id :=
    fun id hrows => ⟨hrows, _, exec_getQuiet hq id _, rfl⟩
  have hlow := hselected 1 (by simp [t, Tables.rows_insertValue])
  have hhigh := hselected 9223372036854775808 (by simp [t, Tables.rows_insertValue])
  refine ⟨_, hlow, hhigh, _, exec_matching hq [] _, fun hsorted => ?_⟩
  have hmem := mem_matchingIds_selected hq [] ⟨⟨t, none, 0, fun _ => false⟩, 0, false⟩
  have hboth := matchingIds_ascending_iff.mp hsorted 1 ((hmem 1).mpr hlow) 9223372036854775808
    ((hmem _).mpr hhigh) (by decide : (1 : Nat) < 9223372036854775808)
  exact absurd hboth (by decide : ¬ (9223372036854775808 : Nat) < 9223372036854775808)

end Calls

end MetadataStore

end VectorDb.Storage
