import VectorDb.Core.Error

/-!
Metadata values, the columns they are bound to in a row of the metadata table,
and what a row reads back as.
-/
set_option autoImplicit false

namespace VectorDb.Storage

abbrev Text := Bytes

/-- `std::variant<std::monostate, std::int64_t, double, std::string>`, the
integer in two's complement and the double as its bit pattern. -/
inductive MetadataValue where
  | null : MetadataValue
  | integer (n : BitVec 64) : MetadataValue
  | real (bits : BitVec 64) : MetadataValue
  | text (s : Text) : MetadataValue
  deriving DecidableEq, Repr

/-- `std::map<std::string, MetadataValue>`: byte-wise ordered keys. -/
abbrev Metadata := Std.ExtTreeMap Text MetadataValue compare

def typeOf : MetadataValue → Nat
  | .null => 0
  | .integer _ => 1
  | .real _ => 2
  | .text _ => 3

/-- The value columns of one row of the metadata table; `none` is SQL's NULL. -/
structure Row where
  valueType : Nat
  intValue : Option (BitVec 64)
  realValue : Option (BitVec 64)
  textValue : Option Text
  deriving DecidableEq, Repr

def isNaN (bits : BitVec 64) : Bool :=
  bits.extractLsb' 52 11 == 0x7ff#11 && bits.extractLsb' 0 52 != 0#52

def negativeZero : BitVec 64 := 0x8000000000000000#64

/-- What a REAL column holds for a bound double: SQLite has no NaN, which it
stores as NULL, and keeps whole numbers as integers, which have no `-0.0`. -/
def storedReal (bits : BitVec 64) : Option (BitVec 64) :=
  if isNaN bits then none else if bits = negativeZero then some 0#64 else some bits

/-- `Impl::bind_value`. -/
def bindValue (value : MetadataValue) : Row :=
  match value with
  | .null => ⟨typeOf value, none, none, none⟩
  | .integer n => ⟨typeOf value, some n, none, none⟩
  | .real bits => ⟨typeOf value, none, storedReal bits, none⟩
  | .text s => ⟨typeOf value, none, none, some s⟩

/-- The switch of `MetadataStore::get`; a NULL column reads as zero or as an
empty string. -/
def Row.value? (row : Row) : Option MetadataValue :=
  match row.valueType with
  | 0 => some .null
  | 1 => some (.integer (row.intValue.getD 0#64))
  | 2 => some (.real (row.realValue.getD 0#64))
  | 3 => some (.text (row.textValue.getD []))
  | _ => none

/-- What a value reads back as once it went through a row. -/
def MetadataValue.stored : MetadataValue → MetadataValue
  | .real bits => .real ((storedReal bits).getD 0#64)
  | value => value

@[simp] theorem bindValue_value? (value : MetadataValue) :
    (bindValue value).value? = some value.stored := by
  cases value <;> rfl

/-- The table gives the value back as it was. -/
def MetadataValue.Kept (value : MetadataValue) : Prop := value.stored = value

instance (value : MetadataValue) : Decidable value.Kept :=
  inferInstanceAs (Decidable (_ = _))

end VectorDb.Storage
