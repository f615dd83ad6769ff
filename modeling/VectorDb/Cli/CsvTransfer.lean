import VectorDb.Cli.ImportExport
import VectorDb.Util.CsvRoundTrip

/-!
`command_export` and `command_import` of src/cli/commands.cpp with `--csv`: which databases go
from one to another through a text file.
-/
set_option autoImplicit false

namespace VectorDb.Cli

open VectorDb.Lib VectorDb.Storage VectorDb.Util VectorDb.Db Throwing

section Commands
variable {K : Type} [BEq K] [LT K] [DecidableLT K] (p : Platform K) (env : Environment)

/-- `command_export` with `--csv`, with the contents of the file it writes. -/
def commandExportCsv : Db.Call Text := do
  let batch ← exportBatch env
  fromExcept (writeVectorCsv batch.vectors batch.ids)

/-- `command_import` with `--csv`, from the contents of the file at `path`; `csvIds` is
`--csv-ids`. -/
def commandImportCsv (strtof : Text → FloatConversion) (path : String) (csvIds : Bool)
    (startId : Option VectorId) (file : Text) : Db.Call Unit := do
  let batch ← fromExcept (readVectorCsv strtof path csvIds file)
  importBatch p env startId batch

end Commands

section Export
variable {K : Type} [BEq K] [LT K] [DecidableLT K] (p : Platform K) {env : Environment}

/-- The components of the vectors that a database holds. -/
def HoldsComponent (d : Database) (P : BitVec 32 → Prop) : Prop :=
  ∃ id v, d.store.get? id = some v ∧ ∃ x ∈ v, P x

theorem findNonFinite_eq {v : FloatVector} (h : findNonFinite v = v.length) :
    ∀ x ∈ v, Component.isFinite x = true := by
  intro x hx
  have hall := List.findIdx_eq_length.mp h x hx
  simpa using hall

theorem exported_finite {batch : VectorBatch}
    (hrows : ∀ row ∈ batch.vectors.rows, validateVector row batch.vectors.dimension = .ok ()) :
    AllFinite batch.vectors := by
  intro row hrow
  have hvalid := hrows row hrow
  unfold validateVector at hvalid
  split at hvalid
  · cases hvalid
  · split at hvalid
    · cases hvalid
    next hfinite => exact findNonFinite_eq (not_not.mp hfinite)

theorem mem_exported {d : Database} (hs : d.store.Consistent) {batch : VectorBatch}
    (hb : Exported d batch) {row : FloatVector} :
    row ∈ batch.vectors.rows ↔ ∃ id, d.store.get? id = some row := by
  rw [hb.rows, List.mem_map]
  constructor
  · rintro ⟨id, hid, rfl⟩
    obtain ⟨v, hv⟩ := (mem_allIds hs id).mp hid
    exact ⟨id, by rw [hv]; rfl⟩
  · rintro ⟨id, hv⟩
    exact ⟨id, (mem_allIds hs id).mpr ⟨row, hv⟩, by rw [hv]; rfl⟩

theorem exec_commandExportCsv (hq : env.Quiet) {h : Handle} (hh : HandleSound False h) :
    ∃ (batch : VectorBatch) (file : Text) (n : Nat × (Prepared → Bool)),
      Exported h.db batch ∧
      writeVectorCsv batch.vectors batch.ids = .ok file ∧
      exec (commandExportCsv env) h = (.ok file, h.ticked n) := by
  obtain ⟨batch, n, hb, hexec⟩ := exec_exportBatch hq hh
  have hwrite := writeVectorCsv_eq_ok.mpr ⟨.inr hb.size, rfl⟩
  refine ⟨batch, _, n, hb, hwrite, ?_⟩
  rw [commandExportCsv, exec_bind_ok hexec, exec_fromExcept, hwrite]

end Export

section Transfer
variable {K : Type} [BEq K] [LT K] [DecidableLT K] (p : Platform K)
  {strtof : Text → FloatConversion}

/-- A database that does not normalize goes through a text file into an empty one with its
dimension where each of its components is zero or above the smallest normal float; where one of
them is subnormal the import gives an error and takes nothing. -/
theorem csv_transfer (hlaws : StrtofLaws strtof) {h : Handle} {env : Environment}
    (hr : (runs p fun _ _ _ => True).Reachable (.opened h)) (hn : h.db.config.normalize = false)
    (hq : env.Quiet) (hsome : h.db.size ≠ 0) :
    ∃ file h', exec (commandExportCsv env) h = (.ok file, h') ∧ h'.db = h.db ∧
      ∀ (g : Handle) (env' : Environment) (path : String),
        (runs p fun _ _ _ => True).Reachable (.opened g) → g.db.store.slotCount = 0 →
        g.db.config.dimension = h.db.config.dimension → g.db.config.normalize = false →
        env'.Quiet →
          ((¬ HoldsComponent h.db fun x => ¬ IsClear x) →
            ∃ g', exec (commandImportCsv p env' strtof path true none file) g = (.ok (), g') ∧
              SameVectors h.db g'.db) ∧
          (HoldsComponent h.db IsSubnormal →
            ∃ e, exec (commandImportCsv p env' strtof path true none file) g = (.error e, g)) := by
  have hh : HandleSound False h := (reachable_accepted p hr).1
  have hs := hh.database.store.consistent
  obtain ⟨batch, file, n, hb, hwrite, hexec⟩ := exec_commandExportCsv hq hh
  have hvalid := hb.valid p hr hn
  have hfinite := exported_finite hvalid
  have hids : batch.ids ≠ [] := by
    rw [hb.ids, ← List.length_pos_iff, length_allIds hs]
    exact Nat.pos_of_ne_zero hsome
  have hisEmpty : (!batch.ids.isEmpty) = true := by simpa using hids
  refine ⟨file, _, hexec, rfl, fun g env' path hg hslots hdim hgn hq' => ⟨fun hclear => ?_, ?_⟩⟩
  · have hrows : batch.vectors.rows ≠ [] := by
      intro hnil
      have hsize := hb.size
      rw [VectorArray.size, hnil] at hsize
      exact hids (List.length_eq_zero_iff.mp hsize)
    have hread := readVectorCsv_written hlaws hfinite path hwrite hrows fun row hrow x hx => by
      by_contra hno
      obtain ⟨id, hid⟩ := (mem_exported hs hb).mp hrow
      exact hclear ⟨id, row, hid, x, hx, hno⟩
    rw [hisEmpty] at hread
    have hgs : HandleSound False g := (reachable_accepted p hg).1
    have hstart : Imported batch 0 g :=
      imported_zero hgs hslots (hdim.trans hb.dimension.symm) hgn
    obtain ⟨g', t, himport, hstore, ht⟩ := exec_importBatch p hq' hstart hb.size
      (hb.ids ▸ nodup_allIds hs) hvalid
    obtain ⟨hall, hget⟩ := sameVectors_imported hs hb ht
    refine ⟨g', ?_, ?_, fun id => by rw [hstore, hget]⟩
    · rw [commandImportCsv, exec_bind, exec_fromExcept, hread]
      exact himport
    · rw [← hall, Database.allIds, hstore, Database.allIds]
  · rintro ⟨id, row, hid, x, hx, hsub⟩
    have hnever := readVectorCsv_subnormal hlaws hfinite path hwrite
      ((mem_exported hs hb).mpr ⟨id, hid⟩) hx hsub
    rw [hisEmpty] at hnever
    cases hread : readVectorCsv strtof path true file with
    | ok batch' => exact absurd hread (hnever batch')
    | error e =>
      refine ⟨e, ?_⟩
      rw [commandImportCsv, exec_bind, exec_fromExcept, hread]

/-- One vector, through a text file into a database that was just made. -/
theorem csv_transfer_one_vector : ∃ (h g g' : Handle) (file : Text),
    h.db.store.get? 0 = some [Component.one] ∧
    (exec (commandExportCsv faultless) h).1 = .ok file ∧
    exec (commandImportCsv unitPlatform faultless decimalStrtof "export.csv" true none file) g =
      (.ok (), g') ∧ SameVectors h.db g'.db := by
  obtain ⟨h₀, h₁, hone⟩ := exists_unitVector ∅ (by simp)
  have hr := hone.reachable unitPlatform (fun _ _ _ => True) unitConfig_sized trivial trivial
  have hr₀ := hone.made unitPlatform (fun _ _ _ => True) unitConfig_sized trivial
  obtain ⟨made, hmade, hat⟩ := hone.empty
  have hslots : h₀.db.store.slotCount = 0 := by rw [hat.db]; exact hmade.slotCount
  have hconfig₀ : h₀.db.config = unitConfig := by rw [hat.db]; exact hmade.config
  have hconfig := hone.config unitPlatform
  have hempty : h₀.db.store.Consistent :=
    (reachable_sound unitPlatform hr₀ : HandleSound False h₀).database.store.consistent
  have hnormalizes : h₀.db.store.normalizes = false := by
    rw [hat.db]
    exact hmade.store.normalizes
  obtain ⟨grown, t, -, hgrown, hat'⟩ := hone.one
  have hstore : h₁.db.store = grown.store := by rw [hat'.db]
  have hget : ∀ id, h₁.db.store.get? id = if id = 0 then some [Component.one] else none := by
    intro id
    have hnew : h₀.db.store.contains 0 = false := by
      rw [VectorStore.contains, find_empty hempty hslots]
      rfl
    rw [hstore, hgrown.store.get? hempty hnew, storedForm_of_not_normalizes hnormalizes,
      VectorStore.get?, find_empty hempty hslots]
    rfl
  have hsize : h₁.db.size ≠ 0 := by
    rw [Database.size, hstore, hgrown.store.liveCount, if_pos rfl]
    exact Nat.succ_ne_zero _
  have hclear : ¬ HoldsComponent h₁.db fun x => ¬ IsClear x := by
    rintro ⟨id, v, hv, x, hx, hno⟩
    rw [hget] at hv
    split at hv
    · cases hv
      rw [List.mem_singleton.mp hx] at hno
      exact hno (.inr (by decide))
    · cases hv
  obtain ⟨file, h', hexport, -, himport⟩ := csv_transfer unitPlatform decimalStrtof_laws hr
    (by rw [hconfig]; rfl) quiet_faultless hsize
  obtain ⟨g', himported, hsame⟩ := (himport h₀ faultless "export.csv" hr₀ hslots
    (by rw [hconfig₀, hconfig]) (by rw [hconfig₀]; rfl) quiet_faultless).1 hclear
  exact ⟨h₁, h₀, g', file, hget 0, by rw [hexport], himported, hsame⟩

end Transfer

end VectorDb.Cli
