import VectorDb.Util.CsvFloats

/-!
`write_vector_csv` of src/util/vector_io.cpp, and which vectors are read back from what it
writes.
-/
set_option autoImplicit false

namespace VectorDb.Util

open VectorDb.Lib VectorDb.Persistence VectorDb.Storage VectorDb.Cli

/-- "# VectorDB CSV: ", "id," where there are ids, and "dimension " with the dimension. -/
def csvHeader (dimension : Dimension) (ids : List VectorId) : Text :=
  [35, 32, 86, 101, 99, 116, 111, 114, 68, 66, 32, 67, 83, 86, 58, 32] ++
    (if ids = [] then [] else [105, 100, 44]) ++
    [100, 105, 109, 101, 110, 115, 105, 111, 110, 32] ++ decimalDigits dimension

/-- One turn of the loop, without the line break. -/
def csvRow (vectors : VectorArray) (ids : List VectorId) (i : LocalId) : Text :=
  (if ids = [] then [] else decimalDigits (ids.getD i 0).val ++ [44]) ++
    [44].intercalate ((vectors.row i).map componentText)

/-- `write_vector_csv`, with the contents of the file. -/
def writeVectorCsv (vectors : VectorArray) (ids : List VectorId) : Except Error Text := do
  check (ids = [] ∨ ids.length = vectors.size)
    (.invalidArgument "id count does not match vector count")
  return csvHeader vectors.dimension ids ++ [10] ++
    (List.range vectors.size).flatMap fun i => csvRow vectors ids i ++ [10]

section Written
variable {vectors : VectorArray} {ids : List VectorId} {i : LocalId}

def AllFinite (vectors : VectorArray) : Prop :=
  ∀ row ∈ vectors.rows, ∀ x ∈ row, Component.isFinite x = true

theorem writeVectorCsv_eq_ok {file : Text} : writeVectorCsv vectors ids = .ok file ↔
    (ids = [] ∨ ids.length = vectors.size) ∧ file = csvHeader vectors.dimension ids ++ [10] ++
      (List.range vectors.size).flatMap fun i => csvRow vectors ids i ++ [10] := by
  unfold writeVectorCsv check
  split
  next h => simp [h, bind, Except.bind, pure, Except.pure, eq_comm]
  next h => simp [h, bind, Except.bind]

/-- The fields of a line. -/
def rowFields (vectors : VectorArray) (ids : List VectorId) (i : LocalId) : List Text :=
  (if ids = [] then [] else [decimalDigits (ids.getD i 0).val]) ++
    (vectors.row i).map componentText

theorem row_ne_nil (hi : i < vectors.size) : vectors.row i ≠ [] := by
  intro h
  have hlen := vectors.length_rows _ (VectorArray.row_mem hi)
  rw [h] at hlen
  exact vectors.dimension_pos hlen.symm

theorem csvRow_eq (hi : i < vectors.size) :
    csvRow vectors ids i = [44].intercalate (rowFields vectors ids i) := by
  have hne : (vectors.row i).map componentText ≠ [] := by simpa using row_ne_nil hi
  unfold csvRow rowFields
  split
  · rfl
  · rw [List.singleton_append, List.intercalate_cons_of_ne_nil hne]

/-- Lines with a break after each, as a text that is split there. -/
theorem flatMap_lines (lines : List Text) :
    lines.flatMap (· ++ [10]) = [10].intercalate (lines ++ [[]]) := by
  induction lines with
  | nil => rfl
  | cons line lines ih =>
    rw [List.flatMap_cons, List.cons_append, List.intercalate_cons_of_ne_nil (by simp), ih]

theorem mem_intercalate {c x : Byte} {fields : List Text} (h : c ∈ [x].intercalate fields) :
    c = x ∨ ∃ field ∈ fields, c ∈ field := by
  induction fields with
  | nil => cases h
  | cons field fields ih =>
    by_cases hne : fields = []
    · subst hne
      rw [List.intercalate_singleton] at h
      exact .inr ⟨field, List.mem_cons_self, h⟩
    · rw [List.intercalate_cons_of_ne_nil hne, List.mem_append, List.mem_append] at h
      rcases h with (h | h) | h
      · exact .inr ⟨field, List.mem_cons_self, h⟩
      · exact .inl (List.mem_singleton.mp h)
      · obtain hx | ⟨field', hmem, hc⟩ := ih h
        · exact .inl hx
        · exact .inr ⟨field', List.mem_cons_of_mem _ hmem, hc⟩

/-- What is printed has neither blanks nor separators. -/
theorem numeral_char {c : Byte} (h : isNumeral c = true) :
    c ≠ 10 ∧ c ≠ 44 ∧ c ≠ 35 ∧ isCsvBlank c = false := by
  revert c
  decide +kernel

theorem trim_eq {field : Text} (h : ∀ c ∈ field, isCsvBlank c = false) : trim field = field := by
  have hdrop : ∀ text : Text, (∀ c ∈ text, isCsvBlank c = false) →
      text.dropWhile isCsvBlank = text := by
    intro text htext
    cases text with
    | nil => rfl
    | cons c text => simp [htext c List.mem_cons_self]
  rw [trim, hdrop field h, hdrop _ (by simpa using h), List.reverse_reverse]

section Fields
variable (hfinite : AllFinite vectors) (hi : i < vectors.size)
include hfinite hi

theorem mem_rowFields {field : Text} (h : field ∈ rowFields vectors ids i) :
    field ≠ [] ∧ ∀ c ∈ field, isNumeral c = true := by
  rw [rowFields, List.mem_append, List.mem_map] at h
  rcases h with h | ⟨x, hx, rfl⟩
  · split at h
    · cases h
    · rw [List.mem_singleton.mp h]
      exact ⟨decimalDigits_ne_nil _, fun c hc => isNumeral_decimalDigits hc⟩
  · have hx := hfinite _ (VectorArray.row_mem hi) x hx
    exact ⟨componentText_ne_nil hx, fun c hc => isNumeral_componentText hx hc⟩

theorem csvFields_csvRow : csvFields (csvRow vectors ids i) = rowFields vectors ids i := by
  have hne : rowFields vectors ids i ≠ [] := by
    refine List.append_ne_nil_of_right_ne_nil _ ?_
    simpa using row_ne_nil hi
  have hcomma : ∀ field ∈ rowFields vectors ids i, 44 ∉ field := fun field hfield hmem =>
    (numeral_char ((mem_rowFields hfinite hi hfield).2 44 hmem)).2.1 rfl
  rw [csvFields, csvRow_eq hi, List.splitOn_intercalate 44 hcomma hne]
  refine (List.map_congr_left fun field hfield => trim_eq fun c hc => ?_).trans (List.map_id _)
  exact (numeral_char ((mem_rowFields hfinite hi hfield).2 c hc)).2.2.2

theorem newline_csvRow : 10 ∉ csvRow vectors ids i := by
  intro hmem
  rw [csvRow_eq hi] at hmem
  rcases mem_intercalate hmem with hcomma | ⟨field, hfield, hc⟩
  · exact absurd hcomma (by decide)
  · exact (numeral_char ((mem_rowFields hfinite hi hfield).2 10 hc)).1 rfl

theorem isContent_csvRow : isContent (csvRow vectors ids i) = true := by
  have hhead : ∃ c rest, csvRow vectors ids i = c :: rest ∧ isNumeral c = true := by
    have hmem := fun field => @mem_rowFields vectors ids i hfinite hi field
    rw [csvRow_eq hi]
    rcases hfields : rowFields vectors ids i with _ | ⟨field, fields⟩
    · exact absurd hfields (List.append_ne_nil_of_right_ne_nil _ (by simpa using row_ne_nil hi))
    · obtain ⟨hne, hall⟩ := hmem field (hfields ▸ List.mem_cons_self)
      obtain ⟨c, rest, rfl⟩ := List.exists_cons_of_ne_nil hne
      have hc := hall c List.mem_cons_self
      cases fields with
      | nil => exact ⟨c, rest, List.intercalate_singleton, hc⟩
      | cons next fields => exact ⟨c, _, List.intercalate_cons_cons, hc⟩
  obtain ⟨c, rest, hrow, hc⟩ := hhead
  obtain ⟨-, -, hcomment, hblank⟩ := numeral_char hc
  rw [isContent, hrow]
  simp [hblank, hcomment]

end Fields

theorem newline_csvHeader (dimension : Dimension) : 10 ∉ csvHeader dimension ids := by
  intro hmem
  rw [csvHeader, List.mem_append] at hmem
  rcases hmem with hmem | hmem
  · split at hmem <;> exact absurd hmem (by decide)
  · exact (numeral_char (isNumeral_decimalDigits hmem)).1 rfl

theorem isContent_csvHeader (dimension : Dimension) : isContent (csvHeader dimension ids) = false := by
  rfl

/-- The lines that are read are the lines of the vectors. -/
theorem contentLines_written {file : Text} (hfinite : AllFinite vectors)
    (hfile : writeVectorCsv vectors ids = .ok file) :
    contentLines file = (List.range vectors.size).map (csvRow vectors ids) := by
  obtain ⟨-, rfl⟩ := writeVectorCsv_eq_ok.mp hfile
  have hlines : csvHeader vectors.dimension ids ++ [10] ++
      (List.range vectors.size).flatMap (fun i => csvRow vectors ids i ++ [10]) =
      [10].intercalate (csvHeader vectors.dimension ids ::
        ((List.range vectors.size).map (csvRow vectors ids) ++ [[]])) := by
    rw [List.intercalate_cons_of_ne_nil (by simp), ← flatMap_lines, List.flatMap_map]
  have hbreak : ∀ line ∈ csvHeader vectors.dimension ids ::
      ((List.range vectors.size).map (csvRow vectors ids) ++ [[]]), 10 ∉ line := by
    intro line hline
    simp only [List.mem_cons, List.mem_append, List.mem_map, List.mem_range] at hline
    rcases hline with rfl | ⟨i, hi, rfl⟩ | hline
    · exact newline_csvHeader _
    · exact newline_csvRow hfinite hi
    · rw [hline.resolve_right (by simp)]
      exact List.not_mem_nil
  have hcontent : ∀ line ∈ (List.range vectors.size).map (csvRow vectors ids),
      isContent line = true := by
    intro line hline
    obtain ⟨i, hi, rfl⟩ := List.mem_map.mp hline
    exact isContent_csvRow hfinite (List.mem_range.mp hi)
  rw [contentLines, hlines, List.splitOn_intercalate 10 hbreak (by simp),
    List.filter_cons_of_neg (by simp [isContent_csvHeader]), List.filter_append,
    List.filter_eq_self.mpr hcontent]
  exact List.append_nil _

end Written

section Reading
variable {strtof : Text → FloatConversion} {vectors : VectorArray} {ids : List VectorId}
  {i : LocalId}

/-- Zero, or above the smallest normal float. -/
def IsClear (x : BitVec 32) : Prop := magnitude x = 0 ∨ 8388608 < magnitude x

def IsSubnormal (x : BitVec 32) : Prop := 0 < magnitude x ∧ magnitude x < 8388608

theorem readFloats_clear (hlaws : StrtofLaws strtof) {row : FloatVector}
    (hfinite : ∀ x ∈ row, Component.isFinite x = true) (hclear : ∀ x ∈ row, IsClear x) :
    readFloats strtof (row.map componentText) = some row := by
  induction row with
  | nil => rfl
  | cons x row ih =>
    have hx := stof_componentText hlaws (hfinite x List.mem_cons_self)
      (hclear x List.mem_cons_self)
    have hrest := ih (fun y hy => hfinite y (List.mem_cons_of_mem _ hy))
      fun y hy => hclear y (List.mem_cons_of_mem _ hy)
    rw [readFloats] at hrest ⊢
    rw [List.map_cons, List.mapM_cons, hx, hrest]
    rfl

theorem readFloats_subnormal (hlaws : StrtofLaws strtof) {row : FloatVector} {x : BitVec 32}
    (hfinite : Component.isFinite x = true) (hmem : x ∈ row) (hx : IsSubnormal x) :
    readFloats strtof (row.map componentText) = none := by
  induction row with
  | nil => cases hmem
  | cons y row ih =>
    rw [readFloats, List.map_cons, List.mapM_cons]
    rcases List.mem_cons.mp hmem with rfl | hmem
    · rw [stof_subnormal hlaws hfinite hx.1 hx.2]
      rfl
    · have hrest := ih hmem
      rw [readFloats] at hrest
      rw [hrest]
      cases (stof strtof (componentText y)).map Prod.fst <;> rfl

theorem stoull_decimalDigits (id : VectorId) :
    (stoull (decimalDigits id.val)).map Prod.fst = some id := by
  refine (spelledId_eq_some ?_).2
  have hdigits := isDigit_decimalDigits id.val
  have hskip : (decimalDigits id.val).dropWhile isSpace = decimalDigits id.val := by
    cases hcons : decimalDigits id.val with
    | nil => rfl
    | cons c rest =>
      have hc := (digit_char c (hdigits c (hcons ▸ List.mem_cons_self))).2.2.2
      simp [hc]
  rw [spelledId, hskip, stripSign_digits hdigits]
  dsimp only
  rw [readDigits_decimalDigits, if_pos ⟨decimalDigits_ne_nil _, List.all_eq_true.mpr hdigits,
    id.isLt, by simp⟩, Fin.ofNat_val_eq_self]

theorem reading_csvRow (hfinite : AllFinite vectors) (hi : i < vectors.size) :
    reading strtof (!ids.isEmpty) (csvRow vectors ids i) =
      (readFloats strtof ((vectors.row i).map componentText)).map fun row =>
        (if ids = [] then [] else [ids.getD i 0], row) := by
  have htokens : csvTokens (csvRow vectors ids i) = rowFields vectors ids i := by
    rw [csvTokens, csvFields_csvRow hfinite hi, List.filter_eq_self]
    intro field hfield
    simpa using (mem_rowFields hfinite hi hfield).1
  rw [reading, htokens, rowFields]
  cases ids with
  | nil => rfl
  | cons id rest =>
    obtain ⟨read, hread, hid⟩ :=
      Option.map_eq_some_iff.mp (stoull_decimalDigits ((id :: rest).getD i 0))
    rw [if_pos (by simp), if_neg (by simp)]
    simp only [List.singleton_append, hread, Option.bind_some]
    rw [hid]
    rfl

end Reading

section RoundTrip
variable {strtof : Text → FloatConversion} (hlaws : StrtofLaws strtof) {vectors : VectorArray}
  {ids : List VectorId} (hfinite : AllFinite vectors)
include hlaws hfinite

/-- What is read of clear components is what was written. -/
theorem reading_clear (hclear : ∀ row ∈ vectors.rows, ∀ x ∈ row, IsClear x) {i : LocalId}
    (hi : i < vectors.size) : reading strtof (!ids.isEmpty) (csvRow vectors ids i) =
      some (if ids = [] then [] else [ids.getD i 0], vectors.row i) := by
  have hmem := VectorArray.row_mem hi
  rw [reading_csvRow hfinite hi, readFloats_clear hlaws (hfinite _ hmem) (hclear _ hmem)]
  rfl

/-- The rows and the ids that the lines give. -/
theorem written_rows (hclear : ∀ row ∈ vectors.rows, ∀ x ∈ row, IsClear x)
    (hids : ids = [] ∨ ids.length = vectors.size) :
    keptRows strtof (!ids.isEmpty) ((List.range vectors.size).map (csvRow vectors ids)) =
        vectors.rows ∧
      ((List.range vectors.size).map (csvRow vectors ids)).flatMap
        (lineIds strtof (!ids.isEmpty)) = ids := by
  have hline : ∀ i ∈ List.range vectors.size,
      lineRow strtof (!ids.isEmpty) (csvRow vectors ids i) = vectors.row i ∧
        lineIds strtof (!ids.isEmpty) (csvRow vectors ids i) =
          if ids = [] then [] else [ids.getD i 0] := fun i hi =>
    lineRow_of_reading (reading_clear hlaws hfinite hclear (List.mem_range.mp hi))
  have hrange : ∀ {α : Type} (l : List α) (d : α),
      (List.range l.length).map (fun i => l.getD i d) = l := by
    intro α l d
    refine List.ext_getElem (by simp) fun i h₁ h₂ => ?_
    simp [h₂]
  constructor
  · have hrows : (List.range vectors.size).map (fun i => vectors.row i) = vectors.rows :=
      hrange vectors.rows []
    have hread : (List.range vectors.size).map
        (lineRow strtof (!ids.isEmpty) ∘ csvRow vectors ids) = vectors.rows :=
      (List.map_congr_left fun i hi => (hline i hi).1).trans hrows
    rw [keptRows, List.map_map, hread, List.filter_eq_self]
    intro row hrow
    have hlen := vectors.length_rows row hrow
    have hpos := vectors.dimension_pos
    simpa using fun hnil : row = [] => hpos (by rw [← hlen, hnil]; rfl)
  · rw [List.flatMap_map, List.flatMap_congr fun i hi => (hline i hi).2]
    rcases hids with rfl | hlen
    · simp
    · by_cases hnil : ids = []
      · rw [hnil]
        simp
      · simp only [if_neg hnil]
        rw [← hlen, ← List.map_eq_flatMap]
        exact hrange ids 0

/-- Vectors whose components are all clear are read back as they were written, with their ids. -/
theorem readVectorCsv_written (path : String) {file : Text}
    (hfile : writeVectorCsv vectors ids = .ok file) (hne : vectors.rows ≠ [])
    (hclear : ∀ row ∈ vectors.rows, ∀ x ∈ row, IsClear x) :
    readVectorCsv strtof path (!ids.isEmpty) file = .ok ⟨vectors, ids⟩ := by
  have hlines := contentLines_written hfinite hfile
  obtain ⟨hrows, hids⟩ := written_rows hlaws hfinite hclear (writeVectorCsv_eq_ok.mp hfile).1
  rw [← hlines] at hrows hids
  have hrefused : ¬ Refused strtof (!ids.isEmpty) file := by
    intro hrefused
    cases hrefused with
    | malformed hline hnone =>
      rw [hlines] at hline
      obtain ⟨i, hi, rfl⟩ := List.mem_map.mp hline
      rw [reading_clear hlaws hfinite hclear (List.mem_range.mp hi)] at hnone
      cases hnone
    | uneven ha hb hlen =>
      rw [hrows] at ha hb
      exact hlen ((vectors.length_rows _ ha).trans (vectors.length_rows _ hb).symm)
    | empty hempty => exact hne (hrows.symm.trans hempty)
    | wide ha hlt =>
      rw [hrows] at ha
      exact absurd (vectors.length_rows _ ha ▸ vectors.dimension_le) (not_le.mpr hlt)
    | many hlt =>
      rw [hrows] at hlt
      exact absurd vectors.count_le (not_le.mpr hlt)
  obtain ⟨batch, hbatch⟩ := @exists_readVectorCsv strtof path _ _ hrefused
  obtain ⟨-, hkept, -, hfound⟩ := readVectorCsv_eq_ok hbatch
  obtain ⟨read, found⟩ := batch
  have hsame : read.rows = vectors.rows := hkept.trans hrows
  have hdimension : read.dimension = vectors.dimension := by
    obtain ⟨row, hrow⟩ := List.exists_mem_of_ne_nil _ hne
    rw [← vectors.length_rows row hrow, read.length_rows row (hsame ▸ hrow)]
  rw [hbatch, VectorArray.ext hdimension hsame, show found = ids from hfound.trans hids]

/-- A file with a component between zero and the normal floats is never read. -/
theorem readVectorCsv_subnormal (path : String) {file : Text}
    (hfile : writeVectorCsv vectors ids = .ok file) {row : FloatVector} {x : BitVec 32}
    (hrow : row ∈ vectors.rows) (hmem : x ∈ row) (hx : IsSubnormal x) (batch : VectorBatch) :
    readVectorCsv strtof path (!ids.isEmpty) file ≠ .ok batch := by
  intro hbatch
  obtain ⟨i, hi, rfl⟩ := List.mem_iff_getElem.mp hrow
  have hrow' : vectors.row i = vectors.rows[i] := List.getD_eq_getElem _ _ hi
  refine not_refused hbatch (@Refused.malformed strtof _ file (csvRow vectors ids i) ?_ ?_)
  · rw [contentLines_written hfinite hfile]
    exact List.mem_map_of_mem (List.mem_range.mpr hi)
  · rw [reading_csvRow hfinite hi,
      readFloats_subnormal hlaws (hfinite _ hrow x hmem) (hrow' ▸ hmem) hx]
    rfl

end RoundTrip

/-- An export whose components are zero or above the smallest normal float is read back as it
was, with the ids where it has some; one with a subnormal component is not read at all. -/
theorem csv_round_trip {strtof : Text → FloatConversion} (hlaws : StrtofLaws strtof)
    (path : String) {vectors : VectorArray} {ids : List VectorId} {file : Text}
    (hfinite : AllFinite vectors) (hfile : writeVectorCsv vectors ids = .ok file) :
    (vectors.rows ≠ [] → (∀ row ∈ vectors.rows, ∀ x ∈ row, IsClear x) →
        readVectorCsv strtof path (!ids.isEmpty) file = .ok ⟨vectors, ids⟩) ∧
      ((∃ row ∈ vectors.rows, ∃ x ∈ row, IsSubnormal x) →
        ∀ batch, readVectorCsv strtof path (!ids.isEmpty) file ≠ .ok batch) := by
  refine ⟨fun hne hclear => readVectorCsv_written hlaws hfinite path hfile hne hclear, ?_⟩
  rintro ⟨row, hrow, x, hmem, hx⟩ batch
  exact readVectorCsv_subnormal hlaws hfinite path hfile hrow hmem hx batch

/-- The vectors (1, -0) and (0.1, `last`). -/
def csvVectors (last : BitVec 32) : VectorArray :=
  ⟨2, [[0x3f800000#32, 0x80000000#32], [0x3dcccccd#32, last]], by decide, by decide, by
    rw [List.length_cons, List.length_singleton]
    decide, by simp⟩

theorem exists_written (last : BitVec 32) :
    ∃ file, writeVectorCsv (csvVectors last) [7, 3] = .ok file :=
  ⟨_, writeVectorCsv_eq_ok.mpr ⟨.inr rfl, rfl⟩⟩

theorem forall_csvVectors {P : BitVec 32 → Prop} (h₁ : P 0x3f800000#32) (h₂ : P 0x80000000#32)
    (h₃ : P 0x3dcccccd#32) {last : BitVec 32} (hlast : P last) :
    ∀ row ∈ (csvVectors last).rows, ∀ x ∈ row, P x := by
  have hpair : ∀ {x y : BitVec 32}, P x → P y → ∀ z ∈ [x, y], P z := fun hx hy =>
    List.forall_mem_cons.mpr ⟨hx, List.forall_mem_singleton.mpr hy⟩
  exact List.forall_mem_cons.mpr ⟨hpair h₁ h₂, List.forall_mem_singleton.mpr (hpair h₃ hlast)⟩

theorem csv_round_trip_two_vectors :
    (∃ file, writeVectorCsv (csvVectors 0x42280000#32) [7, 3] = .ok file ∧
      readVectorCsv decimalStrtof "export.csv" true file =
        .ok ⟨csvVectors 0x42280000#32, [7, 3]⟩) ∧
    ∃ file, writeVectorCsv (csvVectors 1#32) [7, 3] = .ok file ∧
      ∀ batch, readVectorCsv decimalStrtof "export.csv" true file ≠ .ok batch := by
  constructor
  · obtain ⟨file, hfile⟩ := exists_written 0x42280000#32
    have hfinite : AllFinite (csvVectors 0x42280000#32) :=
      forall_csvVectors (by decide) (by decide) (by decide) (by decide)
    exact ⟨file, hfile, (csv_round_trip decimalStrtof_laws "export.csv" hfinite hfile).1
      (List.cons_ne_nil _ _) (forall_csvVectors (.inr (by decide)) (.inl (by decide))
        (.inr (by decide)) (.inr (by decide)))⟩
  · obtain ⟨file, hfile⟩ := exists_written 1#32
    have hfinite : AllFinite (csvVectors 1#32) :=
      forall_csvVectors (by decide) (by decide) (by decide) (by decide)
    exact ⟨file, hfile, (csv_round_trip decimalStrtof_laws "export.csv" hfinite hfile).2
      ⟨_, List.mem_cons_of_mem _ List.mem_cons_self, 1#32,
        List.mem_cons_of_mem _ List.mem_cons_self, by decide, by decide⟩⟩

end VectorDb.Util
