import VectorDb.Cli.Commands
import VectorDb.Util.VectorIo

/-!
`read_vector_csv` of src/util/vector_io.cpp, and for which texts what it returns is what
the lines say.
-/
set_option autoImplicit false

namespace VectorDb.Util

open VectorDb.Lib VectorDb.Persistence VectorDb.Storage VectorDb.Cli

/-- What `strtof` makes of a C string: the float, how many characters it took for it, and
whether it set `ERANGE`. -/
structure FloatConversion where
  value : BitVec 32
  consumed : Nat
  outOfRange : Bool
  deriving DecidableEq, Repr

/-- What `std::getline` gives until the stream fails: behind the last delimiter there has to
be a character. -/
def getlines (delimiter : Byte) (text : Text) : List Text :=
  let parts := text.splitOn delimiter
  if parts.getLast? = some [] then parts.dropLast else parts

/-- A character of `" \t\r"`. -/
def isCsvBlank (c : Byte) : Bool := c == 32 || c == 9 || c == 13

def trim (field : Text) : Text :=
  ((field.dropWhile isCsvBlank).reverse.dropWhile isCsvBlank).reverse

/-- Neither a blank line nor a comment. -/
def isContent (line : Text) : Bool :=
  match line.dropWhile isCsvBlank with
  | [] => false
  | c :: _ => c != 35

/-- `std::stoull` in base 10, with the number of characters it consumed; `none` where it throws.
What follows a minus is negated. -/
def stoull (text : Text) : Option (VectorId × Nat) :=
  let signed := stripSign ((cString text).dropWhile isSpace)
  let digits := signed.2.takeWhile isDigit
  let id := Fin.ofNat 18446744073709551616 (readDigits digits)
  if digits = [] then none
  else if readDigits digits < 18446744073709551616 then
    some (if signed.1 then -id else id,
      (cString text).length - (signed.2.dropWhile isDigit).length)
  else none

/-- The variables of the loop over the fields of a line. -/
structure CsvLine where
  ids : List VectorId
  values : FloatVector
  firstField : Bool

/-- The variables of the loop over the lines. -/
structure CsvRows where
  rows : List FloatVector
  ids : List VectorId
  lineNumber : Nat

section Read
variable (strtof : Text → FloatConversion)

/-- `std::stof`, as `stoull`. -/
def stof (text : Text) : Option (BitVec 32 × Nat) :=
  let c := strtof (cString text)
  if c.consumed = 0 then none else if c.outOfRange then none else some (c.value, c.consumed)

variable (path : String)

def csvError (lineNumber : Nat) (what : String) : Error :=
  .invalidArgument ("'" ++ path ++ "' line " ++ toString lineNumber ++ ": " ++ what)

variable (withIds : Bool)

/-- A field that is not blank. -/
def readToken (lineNumber : Nat) (s : CsvLine) (token : Text) : Except Error CsvLine :=
  if withIds && s.firstField then
    match stoull token with
    | some (id, _) => .ok { s with ids := s.ids ++ [id], firstField := false }
    | none => .error (csvError path lineNumber ("'" ++ asText token ++ "' is not a valid id"))
  else
    match stof strtof token with
    | some (value, _) => .ok { s with values := s.values ++ [value], firstField := false }
    | none => .error (csvError path lineNumber ("'" ++ asText token ++ "' is not a number"))

/-- One turn of the loop over the fields. -/
def readField (lineNumber : Nat) (s : CsvLine) (field : Text) : Except Error CsvLine :=
  if trim field = [] then .ok s
  else readToken strtof path withIds lineNumber s (trim field)

/-- One turn of the loop over the lines. -/
def readLine (s : CsvRows) (line : Text) : Except Error CsvRows := do
  let lineNumber := s.lineNumber + 1
  if isContent line then
    let fields ← (getlines 44 line).foldlM (readField strtof path withIds lineNumber)
      ⟨s.ids, [], true⟩
    if fields.values = [] then return ⟨s.rows, fields.ids, lineNumber⟩
    let first := s.rows.headD fields.values
    check (fields.values.length = first.length) (csvError path lineNumber
      ("has " ++ toString fields.values.length ++ " components but the first row had " ++
        toString first.length))
    return ⟨s.rows ++ [fields.values], fields.ids, lineNumber⟩
  else return { s with lineNumber }

/-- `read_vector_csv` on a file's contents. -/
def readVectorCsv (file : Text) : Except Error VectorBatch := do
  let s ← (getlines 10 file).foldlM (readLine strtof path withIds) ⟨[], [], 0⟩
  match s.rows with
  | [] => .error (.invalidArgument ("'" ++ path ++ "' contains no vectors"))
  | first :: _ =>
    -- the cast to `Dimension` keeps 32 bits
    let vectors ← VectorArray.create (first.length % 4294967296)
    return ⟨← s.rows.foldlM VectorArray.pushBack vectors, s.ids⟩

end Read

section Spelled
variable (strtof : Text → FloatConversion)

/-- The lines that are to give a vector. -/
def contentLines (file : Text) : List Text := (file.splitOn 10).filter isContent

/-- The fields of a line, without the blanks around them. -/
def csvFields (line : Text) : List Text := (line.splitOn 44).map trim

/-- The float that a field spells from its first character to its last. -/
def spelledFloat (token : Text) : Option (BitVec 32) :=
  match stof strtof token with
  | some (value, consumed) => if token ≠ [] ∧ consumed = token.length then some value else none
  | none => none

/-- The id that a field spells in decimal digits. -/
def spelledId (token : Text) : Option VectorId :=
  let signed := stripSign (token.dropWhile isSpace)
  let n := readDigits signed.2
  if signed.2 ≠ [] ∧ signed.2.all isDigit = true ∧ n < 18446744073709551616 ∧
      (signed.1 = true → n = 0) then
    some (Fin.ofNat 18446744073709551616 n)
  else none

/-- The fields of the line are the components of the row. -/
def SpellsRow (line : Text) (row : FloatVector) : Prop :=
  (csvFields line).map (spelledFloat strtof) = row.map some

/-- The first field is the id, and the others are the components of the row. -/
def SpellsEntry (line : Text) (entry : VectorId × FloatVector) : Prop :=
  ∃ first rest, csvFields line = first :: rest ∧ spelledId first = some entry.1 ∧
    rest.map (spelledFloat strtof) = entry.2.map some

/-- Each line has its own row and, with ids, its own id. -/
def Corresponds (withIds : Bool) (file : Text) (batch : VectorBatch) : Prop :=
  if withIds then
    ∃ entries : List (VectorId × FloatVector), batch.ids = entries.map Prod.fst ∧
      batch.vectors.rows = entries.map Prod.snd ∧
      List.Forall₂ (SpellsEntry strtof) (contentLines file) entries
  else List.Forall₂ (SpellsRow strtof) (contentLines file) batch.vectors.rows

end Spelled

section Reading
variable (strtof : Text → FloatConversion) (withIds : Bool)

/-- The fields of a line that are not blank. -/
def csvTokens (line : Text) : List Text := (csvFields line).filter (· ≠ [])

/-- The floats at the front of some fields, where each begins with one. -/
def readFloats (tokens : List Text) : Option FloatVector :=
  tokens.mapM fun token => (stof strtof token).map Prod.fst

/-- What a line adds to the ids and which components it has, where none of its fields is
refused. -/
def reading (line : Text) : Option (List VectorId × FloatVector) :=
  if withIds then
    match csvTokens line with
    | [] => some ([], [])
    | token :: tokens =>
      (stoull token).bind fun id => (readFloats strtof tokens).map fun row => ([id.1], row)
  else (readFloats strtof (csvTokens line)).map fun row => ([], row)

def lineIds (line : Text) : List VectorId := ((reading strtof withIds line).map Prod.fst).getD []

def lineRow (line : Text) : FloatVector := ((reading strtof withIds line).map Prod.snd).getD []

/-- The rows of the lines that have components. -/
def keptRows (lines : List Text) : List FloatVector :=
  (lines.map (lineRow strtof withIds)).filter (· ≠ [])

/-- The texts that the code does not take. -/
inductive Refused (file : Text) : Prop where
  | malformed {line : Text} : line ∈ contentLines file → reading strtof withIds line = none →
      Refused file
  | uneven {a b : FloatVector} : a ∈ keptRows strtof withIds (contentLines file) →
      b ∈ keptRows strtof withIds (contentLines file) → a.length ≠ b.length → Refused file
  | empty : keptRows strtof withIds (contentLines file) = [] → Refused file
  | wide {a : FloatVector} : a ∈ keptRows strtof withIds (contentLines file) →
      kMaxDimension < a.length → Refused file
  | many : kMaxVectorCount < (keptRows strtof withIds (contentLines file)).length → Refused file

/-- No field is missing, and each is spelled to its end. -/
def WellFormed (line : Text) : Prop :=
  if withIds then
    ∃ first rest, csvFields line = first :: rest ∧ (spelledId first).isSome = true ∧ rest ≠ [] ∧
      ∀ field ∈ rest, (spelledFloat strtof field).isSome = true
  else ∀ field ∈ csvFields line, (spelledFloat strtof field).isSome = true

end Reading

section Lines

theorem getlines_cases (delimiter : Byte) (text : Text) :
    getlines delimiter text = text.splitOn delimiter ∨
      text.splitOn delimiter = getlines delimiter text ++ [[]] := by
  unfold getlines
  dsimp only
  split
  next hlast => exact .inr (List.dropLast_append_getLast? _ hlast).symm
  next => exact .inl rfl

theorem filter_getlines (file : Text) :
    (getlines 10 file).filter isContent = contentLines file := by
  rw [contentLines]
  rcases getlines_cases 10 file with h | h
  · rw [h]
  · rw [h, List.filter_append]
    exact (List.append_nil _).symm

theorem filter_trim_getlines (line : Text) :
    ((getlines 44 line).map trim).filter (· ≠ []) = csvTokens line := by
  rw [csvTokens, csvFields]
  rcases getlines_cases 44 line with h | h
  · rw [h]
  · rw [h, List.map_append, List.filter_append]
    exact (List.append_nil _).symm

variable {strtof : Text → FloatConversion} {path : String} {withIds : Bool} {lineNumber : Nat}

/-- Blank fields are passed over. -/
theorem foldlM_readField (fields : List Text) (s : CsvLine) :
    fields.foldlM (readField strtof path withIds lineNumber) s =
      ((fields.map trim).filter (· ≠ [])).foldlM (readToken strtof path withIds lineNumber) s := by
  induction fields generalizing s with
  | nil => rfl
  | cons field fields ih =>
    rw [List.foldlM_cons, List.map_cons, readField]
    by_cases hblank : trim field = []
    · rw [if_pos hblank, List.filter_cons_of_neg (by simpa using hblank)]
      exact ih s
    · rw [if_neg hblank, List.filter_cons_of_pos (by simpa using hblank), List.foldlM_cons]
      exact congrArg _ (funext ih)

/-- Behind the id, or where there is none, every field is a component. -/
theorem foldlM_readToken (tokens : List Text) {s : CsvLine}
    (hs : (withIds && s.firstField) = false) :
    (tokens.foldlM (readToken strtof path withIds lineNumber) s).toOption.map
        (fun t => (t.ids, t.values)) =
      (readFloats strtof tokens).map fun row => (s.ids, s.values ++ row) := by
  induction tokens generalizing s with
  | nil => simp [readFloats, pure, Except.pure, Except.toOption]
  | cons token tokens ih =>
    rw [readFloats, List.mapM_cons, List.foldlM_cons, readToken, hs]
    cases hstof : stof strtof token with
    | none => rfl
    | some read =>
      have hnext := @ih { s with values := s.values ++ [read.1], firstField := false } (by simp)
      rw [readFloats] at hnext
      refine hnext.trans ?_
      cases tokens.mapM fun token => (stof strtof token).map Prod.fst with
      | none => rfl
      | some row => simp

/-- The loop over the fields of one line. -/
theorem foldlM_fields (line : Text) (ids : List VectorId) :
    ((getlines 44 line).foldlM (readField strtof path withIds lineNumber)
        ⟨ids, [], true⟩).toOption.map (fun t => (t.ids, t.values)) =
      (reading strtof withIds line).map fun r => (ids ++ r.1, r.2) := by
  rw [foldlM_readField, filter_trim_getlines, reading]
  cases withIds with
  | false =>
    rw [foldlM_readToken _ (by simp)]
    simp [Function.comp_def]
  | true =>
    cases csvTokens line with
    | nil => simp [pure, Except.pure, Except.toOption]
    | cons token tokens =>
      rw [List.foldlM_cons, readToken, if_pos (by rfl), if_pos rfl]
      dsimp only
      cases stoull token with
      | none => rfl
      | some id =>
        refine (foldlM_readToken (s := ⟨ids ++ [id.1], [], false⟩) tokens (by simp)).trans ?_
        simp [Function.comp_def]

/-- All rows have one length. -/
def Even (rows : List FloatVector) : Prop := ∀ a ∈ rows, ∀ b ∈ rows, a.length = b.length

theorem even_append_iff {rows : List FloatVector} {row : FloatVector} (h : Even rows) :
    Even (rows ++ [row]) ↔ row.length = (rows.headD row).length := by
  cases rows with
  | nil => simp [Even]
  | cons first rows =>
    constructor
    · intro heven
      exact heven row (by simp) first (by simp)
    · intro hlen a ha b hb
      have hfirst : ∀ c ∈ first :: rows ++ [row], c.length = first.length := by
        intro c hc
        rcases List.mem_append.mp hc with hc | hc
        · exact h c hc first (by simp)
        · rw [List.mem_singleton.mp hc]
          exact hlen
      exact (hfirst a ha).trans (hfirst b hb).symm

/-- What one line does. -/
theorem readLine_eq (s : CsvRows) (line : Text) :
    (readLine strtof path withIds s line).toOption =
      if isContent line then
        match reading strtof withIds line with
        | none => none
        | some (ids, row) =>
          if row = [] then some ⟨s.rows, s.ids ++ ids, s.lineNumber + 1⟩
          else if row.length = (s.rows.headD row).length then
            some ⟨s.rows ++ [row], s.ids ++ ids, s.lineNumber + 1⟩
          else none
      else some { s with lineNumber := s.lineNumber + 1 } := by
  rw [readLine]
  by_cases hcontent : isContent line = true
  · rw [if_pos hcontent, if_pos hcontent]
    have hfields := @foldlM_fields strtof path withIds (s.lineNumber + 1) line s.ids
    rcases hfold : (getlines 44 line).foldlM
        (readField strtof path withIds (s.lineNumber + 1)) ⟨s.ids, [], true⟩ with e | t
    · rw [hfold] at hfields
      cases hread : reading strtof withIds line with
      | none => rfl
      | some r =>
        rw [hread] at hfields
        cases hfields
    · rw [hfold] at hfields
      cases hread : reading strtof withIds line with
      | none =>
        rw [hread] at hfields
        cases hfields
      | some r =>
        rw [hread] at hfields
        obtain ⟨hids, hvalues⟩ := Prod.ext_iff.mp (Option.some.inj hfields)
        dsimp only at hids hvalues
        simp only [bind, Except.bind, hids, hvalues]
        by_cases hrow : r.2 = []
        · rw [if_pos hrow, if_pos hrow]
          rfl
        · rw [if_neg hrow, if_neg hrow]
          by_cases hlen : r.2.length = (s.rows.headD r.2).length
          · rw [if_pos hlen, check, if_pos hlen]
            rfl
          · rw [if_neg hlen, check, if_neg hlen]
            rfl
  · rw [if_neg hcontent, if_neg hcontent]
    rfl

theorem Even.of_append {rows rest : List FloatVector} (h : Even (rows ++ rest)) : Even rows :=
  fun a ha b hb => h a (List.mem_append_left _ ha) b (List.mem_append_left _ hb)

theorem foldlM_toOption_cons {σ : Type} (f : σ → Text → Except Error σ) (s t : σ) (line : Text)
    (lines : List Text) : ((line :: lines).foldlM f s).toOption = some t ↔
      ∃ next, (f s line).toOption = some next ∧ (lines.foldlM f next).toOption = some t := by
  rw [List.foldlM_cons]
  cases hf : f s line with
  | error e => simp [bind, Except.bind, Except.toOption]
  | ok next => simp [bind, Except.bind, Except.toOption]

/-- The loop over the lines keeps the rows that there are, as long as it is not thrown out. -/
theorem foldlM_readLine_iff (lines : List Text) {s t : CsvRows} (hs : Even s.rows) :
    (lines.foldlM (readLine strtof path withIds) s).toOption = some t ↔
      (∀ line ∈ lines.filter isContent, reading strtof withIds line ≠ none) ∧
        Even (s.rows ++ keptRows strtof withIds (lines.filter isContent)) ∧
        t = ⟨s.rows ++ keptRows strtof withIds (lines.filter isContent),
          s.ids ++ (lines.filter isContent).flatMap (lineIds strtof withIds),
          s.lineNumber + lines.length⟩ := by
  induction lines generalizing s with
  | nil => simp [keptRows, hs, pure, Except.pure, Except.toOption, eq_comm]
  | cons line lines ih =>
    rw [foldlM_toOption_cons, readLine_eq]
    by_cases hcontent : isContent line = true
    · rw [if_pos hcontent, List.filter_cons_of_pos hcontent, List.flatMap_cons, keptRows,
        List.map_cons]
      cases hread : reading strtof withIds line with
      | none => simp [hread]
      | some r =>
        have hids : lineIds strtof withIds line = r.1 := by rw [lineIds, hread]; rfl
        have hrow : lineRow strtof withIds line = r.2 := by rw [lineRow, hread]; rfl
        rw [hids, hrow]
        dsimp only
        by_cases hempty : r.2 = []
        · rw [if_pos hempty, List.filter_cons_of_neg (by simpa using hempty), ← keptRows]
          simp only [Option.some.injEq, exists_eq_left']
          rw [@ih ⟨s.rows, s.ids ++ r.1, s.lineNumber + 1⟩ hs]
          simp [hread, Nat.add_assoc, Nat.add_comm 1]
        · rw [if_neg hempty, List.filter_cons_of_pos (by simpa using hempty), ← keptRows]
          by_cases hlen : r.2.length = (s.rows.headD r.2).length
          · have hnext := (even_append_iff hs).mpr hlen
            rw [if_pos hlen]
            simp only [Option.some.injEq, exists_eq_left']
            rw [@ih ⟨s.rows ++ [r.2], s.ids ++ r.1, s.lineNumber + 1⟩ hnext]
            simp [hread, Nat.add_assoc, Nat.add_comm 1]
          · rw [if_neg hlen]
            refine iff_of_false (by simp) ?_
            rintro ⟨-, heven, -⟩
            rw [← List.singleton_append, ← List.append_assoc] at heven
            exact hlen ((even_append_iff hs).mp heven.of_append)
    · rw [if_neg hcontent, List.filter_cons_of_neg hcontent]
      simp only [Option.some.injEq, exists_eq_left']
      rw [@ih { s with lineNumber := s.lineNumber + 1 } hs]
      simp [Nat.add_assoc, Nat.add_comm 1]

/-- What the code returns, and when. -/
theorem readVectorCsv_eq_ok {file : Text} {batch : VectorBatch}
    (h : readVectorCsv strtof path withIds file = .ok batch) :
    (∀ line ∈ contentLines file, reading strtof withIds line ≠ none) ∧
      batch.vectors.rows = keptRows strtof withIds (contentLines file) ∧
      batch.vectors.rows ≠ [] ∧
      batch.ids = (contentLines file).flatMap (lineIds strtof withIds) := by
  rw [readVectorCsv, Except.bind_eq_ok] at h
  obtain ⟨s, hfold, hrest⟩ := h
  have hloop : ((getlines 10 file).foldlM (readLine strtof path withIds) ⟨[], [], 0⟩).toOption =
      some s := by rw [hfold]; rfl
  rw [foldlM_readLine_iff _ (by simp [Even]), filter_getlines] at hloop
  obtain ⟨hread, -, rfl⟩ := hloop
  dsimp only [List.nil_append] at hrest
  generalize hrows : keptRows strtof withIds (contentLines file) = rows at hrest
  cases rows with
  | nil => cases hrest
  | cons first rows =>
    dsimp only at hrest
    rw [Except.bind_eq_ok] at hrest
    obtain ⟨a, ha, hrest⟩ := hrest
    rw [Except.bind_eq_ok] at hrest
    obtain ⟨b, hb, hbatch⟩ := hrest
    cases hbatch
    have hempty : a.rows = [] := by
      rw [VectorArray.create] at ha
      split_ifs at ha
      cases ha
      rfl
    have hpushed := (VectorArray.foldlM_pushBack_ok hb).2
    rw [hempty, List.nil_append] at hpushed
    exact ⟨hread, hpushed, by simp [hpushed], rfl⟩

/-- Only the texts of these kinds are refused. -/
theorem exists_readVectorCsv {file : Text} (h : ¬ Refused strtof withIds file) :
    ∃ batch, readVectorCsv strtof path withIds file = .ok batch := by
  have hread : ∀ line ∈ contentLines file, reading strtof withIds line ≠ none :=
    fun line hline hnone => h (.malformed hline hnone)
  have heven : Even (keptRows strtof withIds (contentLines file)) := fun a ha b hb =>
    not_not.mp fun hne => h (.uneven ha hb hne)
  have hloop := (@foldlM_readLine_iff strtof path withIds (getlines 10 file) ⟨[], [], 0⟩ _
    (by simp [Even])).mpr
      ⟨by rw [filter_getlines]; exact hread, by rw [filter_getlines]; simpa using heven, rfl⟩
  rw [filter_getlines] at hloop
  cases hfold : (getlines 10 file).foldlM (readLine strtof path withIds) ⟨[], [], 0⟩ with
  | error e =>
    rw [hfold] at hloop
    cases hloop
  | ok s =>
    rw [hfold] at hloop
    have hs := Option.some.inj hloop
    rw [readVectorCsv, hfold]
    simp only [bind, Except.bind, hs, List.nil_append]
    generalize hrows : keptRows strtof withIds (contentLines file) = rows at heven
    cases rows with
    | nil => exact absurd (.empty hrows) h
    | cons first rows =>
      have hfirst : first ∈ keptRows strtof withIds (contentLines file) := by
        rw [hrows]
        exact List.mem_cons_self
      have hpos : first.length ≠ 0 := by
        rw [keptRows, List.mem_filter] at hfirst
        simpa using hfirst.2
      have hwide : first.length ≤ kMaxDimension := not_lt.mp fun hlt => h (.wide hfirst hlt)
      have hmany : (first :: rows).length ≤ kMaxVectorCount := by
        refine not_lt.mp fun hlt => h (.many ?_)
        rw [hrows]
        exact hlt
      have hcast : first.length % 4294967296 = first.length := by
        have hmax : kMaxDimension < 4294967296 := by decide
        exact Nat.mod_eq_of_lt (hwide.trans_lt hmax)
      obtain ⟨a, ha, hdim, hempty⟩ := VectorArray.create_ok hpos hwide
      obtain ⟨b, hb⟩ := @VectorArray.exists_foldlM_pushBack a (first :: rows)
        (fun row hrow => (heven row hrow first List.mem_cons_self).trans hdim.symm)
        (by simpa [VectorArray.size, hempty] using hmany)
      refine ⟨⟨b, (contentLines file).flatMap (lineIds strtof withIds)⟩, ?_⟩
      simp only [hcast, ha, hb]
      rfl

end Lines

section Correspondence
variable {strtof : Text → FloatConversion} {path : String} {withIds : Bool} {line file : Text}

theorem spelledFloat_eq_some {token : Text} {value : BitVec 32}
    (h : spelledFloat strtof token = some value) :
    token ≠ [] ∧ (stof strtof token).map Prod.fst = some value := by
  rw [spelledFloat] at h
  cases hstof : stof strtof token with
  | none =>
    rw [hstof] at h
    cases h
  | some read =>
    rw [hstof] at h
    dsimp only at h
    split_ifs at h with hwhole
    cases h
    exact ⟨hwhole.1, rfl⟩

/-- Of a field that is a number to its end `stoull` takes all digits. -/
theorem spelledId_eq_some {token : Text} {id : VectorId} (h : spelledId token = some id) :
    token ≠ [] ∧ (stoull token).map Prod.fst = some id := by
  rw [spelledId] at h
  rcases hsign : stripSign (token.dropWhile isSpace) with ⟨negative, digits⟩
  rw [hsign] at h
  dsimp only at h
  split_ifs at h with hdigits
  obtain ⟨hne, hall, hrange, hnegative⟩ := hdigits
  rw [List.all_eq_true] at hall
  have hbehind : 0 ∉ token.dropWhile isSpace := by
    rcases stripSign_cases (token.dropWhile isSpace) with ⟨d, heq, hs⟩ | ⟨d, heq, hs⟩ | hs <;>
      rw [hsign] at hs <;> cases hs
    · exact heq ▸ (sign_head (.inl rfl) hall).1
    · exact heq ▸ (sign_head (.inr rfl) hall).1
    · exact not_mem_zero_of_digits hall
  have hnul : 0 ∉ token := by
    intro hmem
    rw [← List.takeWhile_append_dropWhile (p := isSpace) (l := token), List.mem_append] at hmem
    rcases hmem with hmem | hmem
    · exact absurd (List.mem_takeWhile_imp hmem) (by decide)
    · exact hbehind hmem
  have htoken : token ≠ [] := by
    rintro rfl
    cases hsign
    exact hne rfl
  refine ⟨htoken, ?_⟩
  rw [stoull, cString_eq hnul, hsign]
  dsimp only
  rw [List.takeWhile_eq_self_iff.mpr hall, if_neg hne, if_pos hrange, ← h]
  cases negative with
  | false => rfl
  | true => simp [hnegative rfl]

/-- Fields that are spelled to their ends are read for what they spell, and none is blank. -/
theorem readFloats_of_spelled {tokens : List Text} {row : FloatVector}
    (h : tokens.map (spelledFloat strtof) = row.map some) :
    readFloats strtof tokens = some row ∧ tokens.filter (· ≠ []) = tokens := by
  induction tokens generalizing row with
  | nil =>
    cases row with
    | nil => exact ⟨rfl, rfl⟩
    | cons x row => cases h
  | cons token tokens ih =>
    cases row with
    | nil => cases h
    | cons x row =>
      rw [List.map_cons, List.map_cons, List.cons.injEq] at h
      obtain ⟨hne, hread⟩ := spelledFloat_eq_some h.1
      obtain ⟨hrest, hfilter⟩ := ih h.2
      refine ⟨?_, by rw [List.filter_cons_of_pos (by simpa using hne), hfilter]⟩
      rw [readFloats] at hrest ⊢
      rw [List.mapM_cons, hread, hrest]
      rfl

theorem reading_of_spellsRow {row : FloatVector} (h : SpellsRow strtof line row) :
    reading strtof false line = some ([], row) := by
  obtain ⟨hread, hfilter⟩ := readFloats_of_spelled h
  rw [reading, if_neg (by simp), csvTokens, hfilter, hread]
  rfl

theorem reading_of_spellsEntry {entry : VectorId × FloatVector}
    (h : SpellsEntry strtof line entry) :
    reading strtof true line = some ([entry.1], entry.2) := by
  obtain ⟨first, rest, hfields, hid, hrow⟩ := h
  obtain ⟨hne, hread⟩ := spelledId_eq_some hid
  obtain ⟨hrest, hfilter⟩ := readFloats_of_spelled hrow
  obtain ⟨read, hread, hfst⟩ := Option.map_eq_some_iff.mp hread
  rw [reading, if_pos rfl, csvTokens, hfields, List.filter_cons_of_pos (by simpa using hne), hfilter]
  simp [hread, hrest, hfst]

theorem exists_map_some {α β : Type} {l : List α} {f : α → Option β}
    (h : ∀ a ∈ l, (f a).isSome = true) : ∃ r : List β, l.map f = r.map some := by
  induction l with
  | nil => exact ⟨[], rfl⟩
  | cons a l ih =>
    obtain ⟨b, hb⟩ := Option.isSome_iff_exists.mp (h a List.mem_cons_self)
    obtain ⟨r, hr⟩ := ih fun c hc => h c (List.mem_cons_of_mem _ hc)
    exact ⟨b :: r, by rw [List.map_cons, List.map_cons, hb, hr]⟩

theorem ne_nil_of_map_some {α β : Type} {l : List α} {f : α → Option β} {r : List β}
    (h : l.map f = r.map some) : l ≠ [] ↔ r ≠ [] := by
  have hlen : l.length = r.length := by simpa using congrArg List.length h
  rw [← List.length_pos_iff, hlen, List.length_pos_iff]

theorem csvFields_ne_nil (line : Text) : csvFields line ≠ [] := by
  simp [csvFields, List.splitOn_ne_nil]

/-- A line is well formed where it spells a row with components. -/
theorem wellFormed_false_iff :
    WellFormed strtof false line ↔ ∃ row, SpellsRow strtof line row ∧ row ≠ [] := by
  rw [WellFormed, if_neg (by simp)]
  constructor
  · intro h
    obtain ⟨row, hrow⟩ := exists_map_some h
    exact ⟨row, hrow, (ne_nil_of_map_some hrow).mp (csvFields_ne_nil line)⟩
  · rintro ⟨row, hrow, -⟩ field hfield
    have hmem := List.mem_map_of_mem (f := spelledFloat strtof) hfield
    rw [hrow] at hmem
    obtain ⟨x, -, hx⟩ := List.mem_map.mp hmem
    rw [← hx]
    rfl

theorem wellFormed_true_iff :
    WellFormed strtof true line ↔ ∃ entry, SpellsEntry strtof line entry ∧ entry.2 ≠ [] := by
  rw [WellFormed, if_pos rfl]
  constructor
  · rintro ⟨first, rest, hfields, hfirst, hne, hrest⟩
    obtain ⟨id, hid⟩ := Option.isSome_iff_exists.mp hfirst
    obtain ⟨row, hrow⟩ := exists_map_some hrest
    exact ⟨(id, row), ⟨first, rest, hfields, hid, hrow⟩, (ne_nil_of_map_some hrow).mp hne⟩
  · rintro ⟨entry, ⟨first, rest, hfields, hid, hrow⟩, hne⟩
    refine ⟨first, rest, hfields, by rw [hid]; rfl, (ne_nil_of_map_some hrow).mpr hne, ?_⟩
    intro field hfield
    have hmem := List.mem_map_of_mem (f := spelledFloat strtof) hfield
    rw [hrow] at hmem
    obtain ⟨x, -, hx⟩ := List.mem_map.mp hmem
    rw [← hx]
    rfl

theorem lineRow_of_reading {ids : List VectorId} {row : FloatVector}
    (h : reading strtof withIds line = some (ids, row)) :
    lineRow strtof withIds line = row ∧ lineIds strtof withIds line = ids := by
  simp [lineRow, lineIds, h]

/-- From lines that are well formed each row is kept. -/
theorem forall₂_spellsRow {lines : List Text} (h : ∀ line ∈ lines, WellFormed strtof false line) :
    List.Forall₂ (SpellsRow strtof) lines (keptRows strtof false lines) := by
  induction lines with
  | nil => exact .nil
  | cons line lines ih =>
    obtain ⟨row, hrow, hne⟩ := wellFormed_false_iff.mp (h line List.mem_cons_self)
    have hrest := ih fun l hl => h l (List.mem_cons_of_mem _ hl)
    rw [keptRows, List.map_cons, (lineRow_of_reading (reading_of_spellsRow hrow)).1,
      List.filter_cons_of_pos (by simpa using hne)]
    exact .cons hrow hrest

/-- With ids each line also gives one id. -/
theorem forall₂_spellsEntry {lines : List Text} (h : ∀ line ∈ lines, WellFormed strtof true line) :
    ∃ entries : List (VectorId × FloatVector), List.Forall₂ (SpellsEntry strtof) lines entries ∧
      keptRows strtof true lines = entries.map Prod.snd ∧
      lines.flatMap (lineIds strtof true) = entries.map Prod.fst := by
  induction lines with
  | nil => exact ⟨[], .nil, rfl, rfl⟩
  | cons line lines ih =>
    obtain ⟨entry, hentry, hne⟩ := wellFormed_true_iff.mp (h line List.mem_cons_self)
    obtain ⟨entries, hrest, hrows, hids⟩ := ih fun l hl => h l (List.mem_cons_of_mem _ hl)
    obtain ⟨hrow, hid⟩ := lineRow_of_reading (reading_of_spellsEntry hentry)
    refine ⟨entry :: entries, .cons hentry hrest, ?_, ?_⟩
    · rw [keptRows, List.map_cons, hrow, List.filter_cons_of_pos (by simpa using hne), ← keptRows,
        hrows, List.map_cons]
    · rw [List.flatMap_cons, hid, hids, List.map_cons, List.singleton_append]

theorem exists_mem_of_forall₂ {α β : Type} {R : α → β → Prop} {l : List α} {r : List β}
    (h : List.Forall₂ R l r) {a : α} (ha : a ∈ l) : ∃ b ∈ r, R a b := by
  induction h with
  | nil => cases ha
  | @cons a' b' l' r' hab _ ih =>
    rcases List.mem_cons.mp ha with rfl | ha
    · exact ⟨b', List.mem_cons_self, hab⟩
    · obtain ⟨b, hb, hr⟩ := ih ha
      exact ⟨b, List.mem_cons_of_mem _ hb, hr⟩

/-- What is returned is never from a text of the refused kinds. -/
theorem not_refused {batch : VectorBatch} (h : readVectorCsv strtof path withIds file = .ok batch) :
    ¬ Refused strtof withIds file := by
  obtain ⟨hread, hrows, hne, -⟩ := readVectorCsv_eq_ok h
  intro hrefused
  cases hrefused with
  | malformed hline hnone => exact hread _ hline hnone
  | uneven ha hb hlen =>
    rw [← hrows] at ha hb
    exact hlen ((batch.vectors.length_rows _ ha).trans (batch.vectors.length_rows _ hb).symm)
  | empty hempty => exact hne (hrows.trans hempty)
  | wide ha hlt =>
    rw [← hrows] at ha
    exact absurd (batch.vectors.length_rows _ ha ▸ batch.vectors.dimension_le) (not_le.mpr hlt)
  | many hlt =>
    rw [← hrows] at hlt
    exact absurd batch.vectors.count_le (not_le.mpr hlt)

theorem corresponds_of_wellFormed {batch : VectorBatch}
    (h : readVectorCsv strtof path withIds file = .ok batch)
    (hlines : ∀ line ∈ contentLines file, WellFormed strtof withIds line) :
    Corresponds strtof withIds file batch := by
  obtain ⟨-, hrows, -, hids⟩ := readVectorCsv_eq_ok h
  cases withIds with
  | false =>
    rw [Corresponds, if_neg (by simp), hrows]
    exact forall₂_spellsRow hlines
  | true =>
    obtain ⟨entries, hspells, hkept, hfound⟩ := forall₂_spellsEntry hlines
    rw [Corresponds, if_pos rfl]
    exact ⟨entries, hids.trans hfound, hrows.trans hkept, hspells⟩

theorem wellFormed_of_corresponds {batch : VectorBatch}
    (h : Corresponds strtof withIds file batch) :
    ∀ line ∈ contentLines file, WellFormed strtof withIds line := by
  intro line hline
  have hne : ∀ row ∈ batch.vectors.rows, row ≠ [] := by
    rintro row hrow rfl
    exact batch.vectors.dimension_pos (batch.vectors.length_rows _ hrow).symm
  cases withIds with
  | false =>
    rw [Corresponds, if_neg (by simp)] at h
    obtain ⟨row, hrow, hspells⟩ := exists_mem_of_forall₂ h hline
    exact wellFormed_false_iff.mpr ⟨row, hspells, hne row hrow⟩
  | true =>
    rw [Corresponds, if_pos rfl] at h
    obtain ⟨entries, -, hrows, hforall⟩ := h
    obtain ⟨entry, hentry, hspells⟩ := exists_mem_of_forall₂ hforall hline
    refine wellFormed_true_iff.mpr ⟨entry, hspells, hne _ ?_⟩
    rw [hrows]
    exact List.mem_map_of_mem hentry

end Correspondence

/-- What is returned has for each line its own id and components exactly where the text is
refused, or no line has a field that is missing or not spelled to its end. -/
theorem readVectorCsv_corresponds_iff (strtof : Text → FloatConversion) (path : String)
    (withIds : Bool) (file : Text) :
    (∀ batch, readVectorCsv strtof path withIds file = .ok batch →
        Corresponds strtof withIds file batch) ↔
      Refused strtof withIds file ∨
        ∀ line ∈ contentLines file, WellFormed strtof withIds line := by
  constructor
  · intro h
    by_cases hrefused : Refused strtof withIds file
    · exact .inl hrefused
    · obtain ⟨batch, hbatch⟩ := @exists_readVectorCsv strtof path withIds file hrefused
      exact .inr (wellFormed_of_corresponds (h batch hbatch))
  · rintro (hrefused | hlines) batch hbatch
    · exact absurd hrefused (not_refused hbatch)
    · exact corresponds_of_wellFormed hbatch hlines

/-- `strtof` on texts that begin with a natural below 2^24. -/
def naturalStrtof (text : Text) : FloatConversion :=
  let digits := text.takeWhile isDigit
  let n := readDigits digits
  ⟨if n = 0 then 0#32 else BitVec.ofNat 32 ((126 + n.log2) * 2 ^ 23 + n * 2 ^ (23 - n.log2)),
    digits.length, false⟩

/-- "7" has an id and no components, and its id goes to the vector of "8,5". -/
theorem readVectorCsv_shifts_ids : ∃ batch,
    readVectorCsv naturalStrtof "import.csv" true [55, 10, 56, 44, 53, 10] = .ok batch ∧
      batch.ids = [7, 8] ∧ batch.vectors.rows = [[0x40a00000#32]] ∧
      ¬ Corresponds naturalStrtof true [55, 10, 56, 44, 53, 10] batch := by
  let vectors : VectorArray :=
    ⟨1, [[0x40a00000#32]], Nat.one_ne_zero, one_le_kMaxDimension, by decide, by decide⟩
  have hread : readVectorCsv naturalStrtof "import.csv" true [55, 10, 56, 44, 53, 10] =
      .ok ⟨vectors, [7, 8]⟩ := by rfl
  refine ⟨_, hread, rfl, rfl, fun h => ?_⟩
  rw [Corresponds, if_pos rfl] at h
  obtain ⟨entries, hids, hrows, -⟩ := h
  have hlength : entries.length = 2 := by simpa using (congrArg List.length hids).symm
  have hsize : entries.length = 1 := by simpa [vectors] using (congrArg List.length hrows).symm
  omega

end VectorDb.Util
