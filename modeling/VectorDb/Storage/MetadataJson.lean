import VectorDb.Storage.Metadata
import VectorDb.Lib.GeneralFormat
import VectorDb.Lib.Json

/-!
Metadata values as JSON: `to_json_string` of src/storage/metadata.cpp.
-/
set_option autoImplicit false

namespace VectorDb.Storage

open VectorDb.Lib

/-- What `std::snprintf` leaves in a buffer, its NUL aside. -/
def snprintf (bufferSize : Nat) (text : Bytes) : Bytes := text.take (bufferSize - 1)

/-- `\\u%04x`. -/
def unicodeEscape (c : Byte) : Bytes :=
  [92, 117, hexDigit (c.val / 4096 % 16), hexDigit (c.val / 256 % 16), hexDigit (c.val / 16 % 16),
    hexDigit (c.val % 16)]

/-- The switch of both escapers, with a buffer of this size for the control characters. -/
def escapeCharacter (bufferSize : Nat) (character : Byte) : Bytes :=
  if character = 34 then [92, 34]
  else if character = 92 then [92, 92]
  else if character = 10 then [92, 110]
  else if character = 13 then [92, 114]
  else if character = 9 then [92, 116]
  else if character.val < 0x20 then snprintf bufferSize (unicodeEscape character)
  else [character]

def quoted (bufferSize : Nat) (text : Bytes) : Bytes :=
  34 :: (text.flatMap (escapeCharacter bufferSize) ++ [34])

/-- `"null"`. -/
def nullText : Bytes := [110, 117, 108, 108]

def isFiniteReal (bits : BitVec 64) : Bool := bits.extractLsb' 52 11 != 0x7ff#11

/-- `out << held` of a finite double. -/
def realText (bits : BitVec 64) : Bytes :=
  let exponent := (bits.extractLsb' 52 11).toNat
  let fraction := (bits.extractLsb' 0 52).toNat
  let significand := if exponent = 0 then fraction else 2 ^ 52 + fraction
  let exponent := max exponent 1
  (if bits.msb then [45] else []) ++
    generalFormat (significand * 2 ^ (exponent - 1075)) (2 ^ (1075 - exponent))

def toJsonString : MetadataValue → Bytes
  | .integer n => decimal n.toInt
  | .real bits => if isFiniteReal bits then realText bits else nullText
  | .text s => quoted 7 s
  | .null => nullText

section Escapes
variable {bufferSize : Nat} (hsize : 7 ≤ bufferSize)
include hsize

/-- Seven bytes hold the escape and its NUL. -/
theorem snprintf_unicodeEscape (c : Byte) :
    snprintf bufferSize (unicodeEscape c) = unicodeEscape c := by
  rw [snprintf, List.take_of_length_le]
  rw [unicodeEscape, List.length_cons, List.length_cons]
  simp only [List.length_cons, List.length_nil]
  omega

theorem escapeCharacter_eq (c : Byte) : escapeCharacter bufferSize c = escapeCharacter 7 c := by
  rw [escapeCharacter, escapeCharacter, snprintf_unicodeEscape hsize,
    snprintf_unicodeEscape le_rfl]

/-- A character is escaped by a backslash and one more, by its code, or not at all. -/
theorem escapeCharacter_cases (c : Byte) :
    (∃ e, simpleEscape e = some c ∧ 32 ≤ e.val ∧ escapeCharacter bufferSize c = [92, e]) ∨
    (c.val < 32 ∧ escapeCharacter bufferSize c =
      [92, 117, hexDigit 0, hexDigit 0, hexDigit (c.val / 16), hexDigit (c.val % 16)]) ∨
    (c ≠ 34 ∧ c ≠ 92 ∧ 32 ≤ c.val ∧ escapeCharacter bufferSize c = [c]) := by
  rw [escapeCharacter, snprintf_unicodeEscape hsize]
  split
  next h => exact .inl ⟨34, by subst h; decide, by decide, rfl⟩
  split
  next h => exact .inl ⟨92, by subst h; decide, by decide, rfl⟩
  split
  next h => exact .inl ⟨110, by subst h; decide, by decide, rfl⟩
  split
  next h => exact .inl ⟨114, by subst h; decide, by decide, rfl⟩
  split
  next h => exact .inl ⟨116, by subst h; decide, by decide, rfl⟩
  split
  next hcontrol =>
    refine .inr (.inl ⟨hcontrol, ?_⟩)
    rw [unicodeEscape, show c.val / 4096 % 16 = 0 by omega, show c.val / 256 % 16 = 0 by omega,
      show c.val / 16 % 16 = c.val / 16 by omega]
  next hquote hescape _ _ _ hcontrol =>
    exact .inr (.inr ⟨hquote, hescape, Nat.le_of_not_lt hcontrol, rfl⟩)

/-- An escaped character is read as the character it was. -/
theorem readJsonText_escapeCharacter (c : Byte) (rest : Bytes) :
    readJsonText (escapeCharacter bufferSize c ++ rest) =
      (readJsonText rest).map fun r => (c :: r.1, r.2) := by
  rcases escapeCharacter_cases hsize c with ⟨e, he, -, heq⟩ | ⟨hlt, heq⟩ |
    ⟨hquote, hescape, hle, heq⟩
  · rw [heq]
    exact readJsonText_simple he
  · rw [heq]
    exact readJsonText_unit (by omega)
  · rw [heq]
    exact readJsonText_plain hquote hescape hle

/-- Nothing in an escaped character ends a literal. -/
theorem scanQuoted_escapeCharacter (c : Byte) (rest : Bytes) :
    (scanQuoted 92 34 (escapeCharacter bufferSize c ++ rest)).2 =
      (scanQuoted (92 : Byte) 34 rest).2 := by
  have hne : (92 : Byte) ≠ 34 := by decide
  have hdigit : ∀ d, d < 16 → hexDigit d ≠ 34 ∧ hexDigit d ≠ 92 := by decide
  rcases escapeCharacter_cases hsize c with ⟨e, -, -, heq⟩ | ⟨hlt, heq⟩ |
    ⟨hquote, hescape, -, heq⟩
  · rw [heq, List.cons_append, List.singleton_append, scanQuoted_escape hne]
  · obtain ⟨hzero, hzero'⟩ := hdigit 0 (by decide)
    obtain ⟨hhigh, hhigh'⟩ := hdigit (c.val / 16) (by omega)
    obtain ⟨hlow, hlow'⟩ := hdigit (c.val % 16) (by omega)
    rw [heq]
    simp only [List.cons_append, List.nil_append]
    rw [scanQuoted_escape hne, scanQuoted_cons hzero hzero', scanQuoted_cons hzero hzero',
      scanQuoted_cons hhigh hhigh', scanQuoted_cons hlow hlow']
  · rw [heq, List.singleton_append, scanQuoted_cons hquote hescape]

theorem le_of_mem_escapeCharacter {c d : Byte} (h : d ∈ escapeCharacter bufferSize c) :
    32 ≤ d.val := by
  have hdigit : ∀ d, d < 16 → 32 ≤ (hexDigit d).val := by decide
  rcases escapeCharacter_cases hsize c with ⟨e, -, hle, heq⟩ | ⟨hlt, heq⟩ | ⟨-, -, hle, heq⟩
  · rw [heq, List.mem_cons, List.mem_singleton] at h
    rcases h with rfl | rfl
    · decide
    · exact hle
  · rw [heq] at h
    simp only [List.mem_cons, List.not_mem_nil, or_false] at h
    rcases h with rfl | rfl | rfl | rfl | rfl | rfl
    · decide
    · decide
    · exact hdigit 0 (by decide)
    · exact hdigit 0 (by decide)
    · exact hdigit _ (by omega)
    · exact hdigit _ (by omega)
  · rw [heq, List.mem_singleton] at h
    rwa [h]

theorem quoted_eq (text : Bytes) : quoted bufferSize text = quoted 7 text := by
  rw [quoted, quoted, funext (escapeCharacter_eq hsize)]

/-- What is between the quotes: no control characters, and no quote that would end it. -/
theorem quoted_closed (text : Bytes) :
    ∃ body, quoted bufferSize text = 34 :: (body ++ [34]) ∧ (∀ c ∈ body, 32 ≤ c.val) ∧
      ∀ rest : Bytes, (scanQuoted 92 34 (body ++ 34 :: rest)).2 = 34 :: rest := by
  refine ⟨text.flatMap (escapeCharacter bufferSize), rfl, fun c hc => ?_, fun rest => ?_⟩
  · obtain ⟨d, -, hd⟩ := List.mem_flatMap.mp hc
    exact le_of_mem_escapeCharacter hsize hd
  · induction text with
    | nil => rw [List.flatMap_nil, List.nil_append, scanQuoted_quote]
    | cons c text ih =>
      rw [List.flatMap_cons, List.append_assoc, scanQuoted_escapeCharacter hsize, ih]

/-- A literal is read as the text it was made of, whatever follows. -/
theorem readJsonString_quoted (text rest : Bytes) :
    readJsonString (quoted bufferSize text ++ rest) = some (text, rest) := by
  rw [quoted, List.cons_append, readJsonString, if_pos rfl, List.append_assoc,
    List.singleton_append]
  induction text with
  | nil =>
    rw [List.flatMap_nil, List.nil_append, readJsonText.eq_def]
    rfl
  | cons c text ih =>
    rw [List.flatMap_cons, List.append_assoc, readJsonText_escapeCharacter hsize, ih]
    rfl

end Escapes

section Scalars

theorem isToken_of_numeral {t : Bytes} (hne : t ≠ []) (h : ∀ c ∈ t, isNumeral c = true) :
    IsToken t := by
  refine ⟨hne, fun c hc => ⟨?_, ?_, ?_⟩⟩ <;>
  · rintro rfl
    exact absurd (h _ hc) (by decide)

theorem isToken_nullText : IsToken nullText := by
  refine ⟨List.cons_ne_nil _ _, ?_⟩
  simp [nullText]

theorem isToken_decimal (n : Int) : IsToken (decimal n) := by
  unfold decimal
  split
  · refine isToken_of_numeral (List.cons_ne_nil _ _) fun c hc => ?_
    rw [List.mem_cons] at hc
    rcases hc with rfl | hc
    · rfl
    · exact isNumeral_decimalDigits hc
  · exact isToken_of_numeral (decimalDigits_ne_nil _) fun c hc => isNumeral_decimalDigits hc

theorem isToken_realText (bits : BitVec 64) : IsToken (realText bits) := by
  refine isToken_of_numeral ?_ fun c hc => ?_
  · exact List.append_ne_nil_of_right_ne_nil _ (generalFormat_ne_nil _ _)
  · rw [realText, List.mem_append] at hc
    rcases hc with hc | hc
    · split at hc
      · rw [List.mem_singleton.mp hc]
        rfl
      · cases hc
    · exact isNumeral_generalFormat hc

/-- A value as a reader of JSON sees it. -/
def MetadataValue.scalar : MetadataValue → JsonScalar
  | .text s => .text s
  | value => .token (toJsonString value)

theorem readScalar_toJsonString (value : MetadataValue) {e : Byte} (he : e = 44 ∨ e = 125)
    (rest : Bytes) :
    readScalar (toJsonString value ++ e :: rest) = some (value.scalar, e :: rest) := by
  cases value with
  | null => exact readScalar_token isToken_nullText he
  | integer n => exact readScalar_token (isToken_decimal n.toInt) he
  | real bits =>
    refine readScalar_token ?_ he
    rw [toJsonString]
    split
    · exact isToken_realText bits
    · exact isToken_nullText
  | text s =>
    have hread := readJsonString_quoted le_rfl s (e :: rest)
    have hhead : (quoted 7 s ++ e :: rest).head? = some 34 := rfl
    rw [toJsonString, readScalar, if_pos hhead, hread]
    rfl

end Scalars

end VectorDb.Storage
