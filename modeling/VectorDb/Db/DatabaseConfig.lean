import VectorDb.Index.HnswConfig
import VectorDb.Storage.MetadataStore

/-!
The configuration of a database, and how it is kept as text in the metadata
store's `schema_info` table.
-/
set_option autoImplicit false

namespace VectorDb.Db

open VectorDb.Lib VectorDb.Storage VectorDb.Index Throwing

structure DatabaseConfig where
  dimension : Dimension
  metric : Metric
  indexType : IndexType
  hnsw : HnswConfig
  normalize : Bool
  deriving DecidableEq, Repr

def DatabaseConfig.validate (c : DatabaseConfig) : Except Error Unit :=
  if c.dimension = 0 ∨ kMaxDimension < c.dimension then
    .error (.invalidArgument ("dimension must be between 1 and " ++ toString kMaxDimension ++
      " (got " ++ toString c.dimension ++ ")"))
  else if c.indexType = .hnsw then c.hnsw.validate
  else .ok ()

def kKeyDimension : String := "dimension"

def kKeyMetric : String := "metric"

def kKeyIndexType : String := "index_type"

def kKeyNormalize : String := "normalize"

def kKeyHnswM : String := "hnsw_m"

def kKeyHnswEfConstruction : String := "hnsw_ef_construction"

def kKeyHnswEfSearch : String := "hnsw_ef_search"

def kKeyHnswSeed : String := "hnsw_seed"

def kKeyNextId : String := "next_auto_id"

/-- `std::isspace` in the C locale. -/
def isSpace (c : Char) : Bool :=
  c == ' ' || (9 ≤ c.toNat && c.toNat ≤ 13)

/-- `std::stoull`; `none` where it throws. -/
def stoull (text : String) : Option Nat :=
  let chars := text.toList.dropWhile isSpace
  let negative := chars.head? == some '-'
  let digits := (if negative || chars.head? == some '+' then chars.drop 1 else chars).takeWhile
    Char.isDigit
  let value := Nat.ofDigitChars 10 digits 0
  if digits.isEmpty || 18446744073709551616 ≤ value then none
  else if negative then some ((18446744073709551616 - value) % 18446744073709551616)
  else some value

/-- A number that was written in decimal is read as it was. -/
theorem stoull_toString {n : Nat} (h : n < 18446744073709551616) : stoull (toString n) = some n := by
  have hchars : (toString n).toList = Nat.toDigits 10 n := Nat.toList_repr
  have hdigit : ∀ c ∈ Nat.toDigits 10 n, c.isDigit = true := fun c hc =>
    Nat.isDigit_of_mem_toDigits (by decide) (by decide) hc
  have hne : Nat.toDigits 10 n ≠ [] := List.ne_nil_of_length_pos Nat.length_toDigits_pos
  have hvalue : Nat.ofDigitChars 10 (Nat.toDigits 10 n) 0 = n := Nat.ofDigitChars_ten_toDigits
  unfold stoull
  rw [hchars]
  generalize Nat.toDigits 10 n = digits at *
  cases digits with
  | nil => exact absurd rfl hne
  | cons c digits =>
    have hc := hdigit c (by simp)
    have hspace : isSpace c = false := by
      have hge : 48 ≤ c.toNat := by
        simp only [Char.isDigit, ge_iff_le, Bool.and_eq_true, decide_eq_true_eq] at hc
        exact hc.1
      have hblank : c ≠ ' ' := by
        rintro rfl
        exact absurd hge (by decide)
      simp [isSpace, hblank]
      omega
    have hsign : c ≠ '-' ∧ c ≠ '+' := by
      constructor
      · rintro rfl
        exact absurd hc (by decide)
      · rintro rfl
        exact absurd hc (by decide)
    have htake : (c :: digits).takeWhile Char.isDigit = c :: digits :=
      List.takeWhile_eq_self_iff.mpr hdigit
    simp [hspace, hsign.1, hsign.2, htake, hvalue, h]

def parseU64 (text : Option String) (key : String) : Except Error Nat :=
  match text with
  | none => .error (.corruption ("database configuration is missing '" ++ key ++ "'"))
  | some text =>
    match stoull text with
    | none => .error (.corruption ("database configuration key '" ++ key ++
        "' is not a number: '" ++ text ++ "'"))
    | some value => .ok value

/-- What `persist_config` writes, in its order. -/
def DatabaseConfig.entries (c : DatabaseConfig) (nextAutoId : VectorId) : List (String × String) :=
  [(kKeyDimension, toString c.dimension), (kKeyMetric, metricName c.metric),
    (kKeyIndexType, indexTypeName c.indexType), (kKeyNormalize, if c.normalize then "1" else "0"),
    (kKeyHnswM, toString c.hnsw.m), (kKeyHnswEfConstruction, toString c.hnsw.efConstruction),
    (kKeyHnswEfSearch, toString c.hnsw.efSearch), (kKeyHnswSeed, toString c.hnsw.seed.toNat),
    (kKeyNextId, toString nextAutoId.val)]

section Calls
variable (faults : Faults)

def persistConfig (c : DatabaseConfig) (nextAutoId : VectorId) : MetadataStore.Call Unit :=
  MetadataStore.inTransaction faults
    ((c.entries nextAutoId).forM fun entry => MetadataStore.setConfig faults entry.1 entry.2)

/-- A key of the configuration that holds a number. -/
def readNumber (key : String) : MetadataStore.Call Nat := do
  fromExcept (parseU64 (← MetadataStore.getConfig faults key) key)

/-- A key of the configuration that holds a name. -/
def readName {α : Type} (key what : String) (parse : String → Option α) :
    MetadataStore.Call α := do
  let text ← MetadataStore.getConfig faults key
  fromExcept (match text.bind parse with
    | some value => .ok value
    | none => .error (.corruption ("database configuration has an unknown " ++ what ++ " '" ++
        text.getD "<missing>" ++ "'")))

/-- What `open` reads before it touches a file. -/
def readConfig : MetadataStore.Call DatabaseConfig := do
  let dimension ← readNumber faults kKeyDimension
  let metric ← readName faults kKeyMetric "metric" parseMetric
  let indexType ← readName faults kKeyIndexType "index type" parseIndexType
  let normalize ← MetadataStore.getConfig faults kKeyNormalize
  let m ← readNumber faults kKeyHnswM
  let efConstruction ← readNumber faults kKeyHnswEfConstruction
  let efSearch ← readNumber faults kKeyHnswEfSearch
  let seed ← readNumber faults kKeyHnswSeed
  let config : DatabaseConfig :=
    ⟨dimension % 4294967296, metric, indexType,
      ⟨m, efConstruction, efSearch, BitVec.ofNat 64 seed⟩, normalize.getD "0" == "1"⟩
  fromExcept config.validate
  return config

end Calls

end VectorDb.Db
