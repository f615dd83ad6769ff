import VectorDb.Db.DatabaseEffects
import VectorDb.Index.HnswHeader
import VectorDb.Storage.VectorLoad

/-!
What is made of files that no flush wrote: of a vectors.bin in which two live slots
have one id, and of an index.hnsw of any contents.
-/
set_option autoImplicit false

namespace VectorDb.Db

open VectorDb.Lib VectorDb.Persistence VectorDb.Storage VectorDb.Index Throwing

section Vectors
variable {bytes : Bytes} {s : VectorStore}

theorem remove_contains (s : VectorStore) (id : VectorId) :
    (exec (VectorStore.remove id) s).2.contains id = false := by
  cases hfind : s.find id with
  | none => simp [VectorStore.remove, exec_bind, hfind, VectorStore.contains]
  | some slot =>
    obtain ⟨t, hexec, ht⟩ := VectorStore.exec_remove hfind
    rw [hexec, VectorStore.contains, ht.find, if_pos rfl]
    rfl

/-- What a store promises of its ids. -/
def KeepsIds (s : VectorStore) : Prop :=
  s.WellFormed ∧ (∀ id, (exec (VectorStore.remove id) s).2.contains id = false) ∧
    ∀ db : Database, db.store = s → db.allIds.Nodup

/-- An accepted vectors.bin gives a well-formed store exactly where the ids of its live
slots are distinct. -/
theorem readVectorFile_keepsIds_iff (h : readVectorFile bytes = .ok s) :
    ∃ header, parseVectorFileHeader bytes bytes.length = .ok header ∧
      (KeepsIds s ↔ (fileLiveIds bytes header).Nodup) := by
  obtain ⟨header, hparse, hloaded⟩ := readVectorFile_eq_ok h
  refine ⟨header, hparse, fun hs => hloaded.wellFormed_iff.mp hs.1, fun hnodup => ?_⟩
  have hs := hloaded.wellFormed_iff.mpr hnodup
  refine ⟨hs, remove_contains s, fun db hdb => ?_⟩
  subst hdb
  exact (List.mergeSort_perm _ _).nodup_iff.mpr (VectorStore.nodup_liveIds hs.distinct)

/-- Two live slots of one component, both with the id 7. -/
def sharedId : VectorStore where
  vectors := ⟨1, [[Component.zero], [Component.one]], Nat.one_ne_zero, one_le_kMaxDimension,
    by decide, by decide⟩
  norms := [Component.zero, Component.one]
  live := [true, true]
  localToId := [7, 7]
  idToLocal := ∅
  liveCount := 2
  normalizes := false

theorem sharedId_file :
    ∃ s, readVectorFile (writeVectorFile sharedId) = .ok s ∧
      parseVectorFileHeader (writeVectorFile sharedId) (writeVectorFile sharedId).length =
        .ok (vectorHeaderOf sharedId) := by
  have hparse := parseVectorFileHeader_write sharedId (by decide)
  obtain ⟨s, -, hread⟩ := readVectorFile_eq hparse
  have hlive : fileLive (writeVectorFile sharedId) (vectorHeaderOf sharedId) = [true, true] := by
    rw [fileLive, (drop_writeVectorFile sharedId).2.2.2]
    decide
  rw [hlive] at hread
  exact ⟨s, hread, hparse⟩

theorem sharedId_liveIds :
    fileLiveIds (writeVectorFile sharedId) (vectorHeaderOf sharedId) = [7, 7] := by
  rw [fileLiveIds, fileLive, fileIds, (drop_writeVectorFile sharedId).2.2.2,
    (drop_writeVectorFile sharedId).2.1]
  decide

/-- One id in two live slots passes every check. -/
theorem readVectorFile_accepts_shared_id :
    ¬ ∀ (bytes : Bytes) (s : VectorStore), readVectorFile bytes = .ok s → KeepsIds s := by
  intro hall
  obtain ⟨s, hread, hparse⟩ := sharedId_file
  obtain ⟨header, hparse', hloaded⟩ := readVectorFile_eq_ok hread
  cases hparse.symm.trans hparse'
  have hnodup := hloaded.wellFormed_iff.mp (hall _ s hread).1
  rw [sharedId_liveIds] at hnodup
  exact absurd hnodup (by decide)

theorem readVectorFile_keepsIds_shared_id :
    ∃ (s : VectorStore) (header : VectorFileHeader),
      readVectorFile (writeVectorFile sharedId) = .ok s ∧
      (KeepsIds s ↔ (fileLiveIds (writeVectorFile sharedId) header).Nodup) := by
  obtain ⟨s, hread, -⟩ := sharedId_file
  obtain ⟨header, -, hiff⟩ := readVectorFile_keepsIds_iff hread
  exact ⟨s, header, hread, hiff⟩

end Vectors

section Index
variable {K : Type} [BEq K] [LT K] [DecidableLT K] (p : Platform K)

/-- Whatever is in index.hnsw, `open` loads it or builds the index anew, unless its
header is in order and announces more upper links than a vector can hold. -/
theorem open_succeeds_iff {env : Environment} {d : Directory} {t : Tables} {c : DatabaseConfig}
    {s : VectorStore} {n : Nat} (hq : env.Quiet) (ht : d.metadata.Holds t)
    (hc : configOf t = .ok c) (hn : nextIdOf t = .ok n)
    (hs : storeOf c d.files.vectors = .ok s) (hdim : s.dimension = c.dimension) :
    (∃ db d', exec (openDatabase p env) d = (.ok db, d') ∧
      OpenedFrom p env t c s d.files.index db) ↔ ¬ TooLarge c s d.files.index := by
  have hcount : s.Counted := by
    cases hv : d.files.vectors with
    | none =>
      rw [hv] at hs
      exact (VectorStore.create_ok hs).2.2.2.counted
    | some bytes =>
      rw [hv] at hs
      obtain ⟨header, -, hloaded⟩ := readVectorFile_eq_ok hs
      exact hloaded.counted
  have hopen := openDatabase_spec p env
    (F := fun f => f.vectors = d.files.vectors ∧ f.index = d.files.index) (fun _ hf => hf)
    (fun _ hf => hf.1) (fun _ hf => hf.2) hc hn hs hdim hcount d ⟨⟨rfl, rfl⟩, ht⟩
  rcases hexec : exec (openDatabase p env) d with ⟨r, d'⟩
  rw [hexec] at hopen
  cases r with
  | ok db => exact ⟨fun _ => hopen.2.2.2 hq, fun _ => ⟨db, d', rfl, hopen.2.2.1⟩⟩
  | error e =>
    refine ⟨fun ⟨db, _, h, _⟩ => ?_, fun h => absurd (hopen.2.2 hq) h⟩
    cases h

/-- An empty database whose index.hnsw is that file. -/
def inflatedDirectory (s : VectorStore) : Directory :=
  ⟨⟨some (writeVectorFile s), some ⟨inflatedIndex, []⟩, false, 0⟩, .fresh (newTables unitConfig)⟩

theorem tooLarge_inflatedIndex {s : VectorStore} (hs : s.slotCount = 0) :
    TooLarge unitConfig s (some ⟨inflatedIndex, []⟩) :=
  ⟨rfl, _, rfl, inflatedHeader, parse_inflatedIndex, rfl, rfl, hs.symm, by decide⟩

theorem exists_emptyStore :
    ∃ s : VectorStore, s.dimension = unitConfig.dimension ∧ s.slotCount = 0 ∧ s.Consistent := by
  obtain ⟨s, -, hdim, -, hcount, hs⟩ := @VectorStore.create_eq 1 false (by decide)
    (by decide)
  exact ⟨s, hdim, hcount, hs⟩

theorem configOf_newTables : configOf (newTables unitConfig) = .ok unitConfig :=
  (configured_newTables unitConfig).configOf unitConfig_valid unitConfig_sized

theorem open_rejects_inflated_index :
    ¬ ∀ (d : Directory) (t : Tables) (c : DatabaseConfig) (s : VectorStore) (n : Nat),
      d.metadata.Holds t → configOf t = .ok c → nextIdOf t = .ok n →
      storeOf c d.files.vectors = .ok s → s.dimension = c.dimension →
      ∃ db d', exec (openDatabase unitPlatform faultless) d = (.ok db, d') := by
  intro hall
  obtain ⟨s, hdim, hcount, hs⟩ := exists_emptyStore
  obtain ⟨id, hid⟩ := (configured_newTables unitConfig).2
  obtain ⟨db, d', hexec⟩ := hall (inflatedDirectory s) _ _ s _ (MetadataStore.holds_fresh _)
    configOf_newTables (nextIdOf_eq hid) (readVectorFile_write hs) hdim
  have hopen := openDatabase_spec unitPlatform faultless
    (F := fun f => f.vectors = some (writeVectorFile s) ∧ f.index = some ⟨inflatedIndex, []⟩)
    (fun _ hf => hf) (fun _ hf => hf.1) (fun _ hf => hf.2) configOf_newTables (nextIdOf_eq hid)
    (readVectorFile_write hs) hdim hs.counted (inflatedDirectory s)
    ⟨⟨rfl, rfl⟩, MetadataStore.holds_fresh _⟩
  rw [hexec] at hopen
  exact hopen.2.2.2 quiet_faultless (tooLarge_inflatedIndex hcount)

/-- Two vectors, saved. -/
def twoSaved : List (Event × Environment) :=
  [(.create unitConfig unitConfig_sized, faultless),
    (.call (.insert 0 [Component.one] ∅), faultless),
    (.call (.insert 1 [Component.zero] ∅), faultless), (.call .flush, faultless)]

/-- A directory whose index.hnsw has lost its last byte. -/
def cutOff (d : Disk) (file : IndexFile) : Directory :=
  { d.directory with files := { d.files with index := some ⟨file.bytes.dropLast, file.addedFor⟩ } }

/-- The index of two vectors is built anew where its file is cut off. -/
theorem open_succeeds_cut_off_index : ∃ (h : Handle) (file : IndexFile) (s : VectorStore)
    (db : Database) (d' : Directory),
    h.files.index = some file ∧ kHnswFileHeaderSize < file.bytes.length ∧ s.slotCount = 2 ∧
      exec (openDatabase unitPlatform faultless) (cutOff h.disk file) = (.ok db, d') ∧
      OpenedFrom unitPlatform faultless h.disk.tables unitConfig s
        (some ⟨file.bytes.dropLast, file.addedFor⟩) db := by
  obtain ⟨h, -, htest⟩ := exists_reachable unitPlatform
    (fun _ _ _ => True) (fun _ _ _ => trivial)
    (show (State.afterAll unitPlatform twoSaved .absent).handle?.map (fun h =>
      decide (configOf h.disk.tables = .ok unitConfig ∧ nextIdOf h.disk.tables = .ok 2) &&
      ((storeOf unitConfig h.files.vectors).toOption.any fun s =>
        decide (s.slotCount = 2 ∧ s.dimension = 1)) &&
      h.files.index.any fun file => decide (kHnswFileHeaderSize < file.bytes.length) &&
        !(parseHnswFileHeader file.bytes.dropLast file.bytes.dropLast.length).isOk) =
          some true by decide +kernel)
  simp only [Bool.and_eq_true, decide_eq_true_eq, Option.any_eq_true, Except.toOption_eq_some]
    at htest
  obtain ⟨⟨⟨hconfig, hnext⟩, s, hs, hcount, hdim⟩, file, hfile, hlength, hbroken⟩ := htest
  have hiff := open_succeeds_iff unitPlatform (d := cutOff h.disk file) quiet_faultless
    (MetadataStore.holds_fresh _) hconfig hnext hs hdim
  obtain ⟨db, d', hexec, hopened⟩ := hiff.mpr fun ⟨_, cut, hcut, f, hparse, _⟩ => by
    cases hcut
    rw [hparse] at hbroken
    cases hbroken
  exact ⟨h, file, s, db, d', hfile, hlength, hcount, hexec, hopened⟩

end Index

end VectorDb.Db
