import VectorDb.Storage.FilterGrammar
import VectorDb.Storage.FilterNumbers

/-!
`read_metadata` of src/cli/commands.cpp, and how the filter language types the same tokens.
-/
set_option autoImplicit false

namespace VectorDb.Cli

open VectorDb.Lib VectorDb.Storage

/-- What a C function sees of a string. -/
def cString (text : Text) : Text := text.takeWhile (· ≠ 0)

/-- What `strtod` makes of a C string: the double, how many characters it took for it, and
whether it set `ERANGE`. -/
structure Conversion where
  value : BitVec 64
  consumed : Nat
  outOfRange : Bool
  deriving DecidableEq, Repr

/-- The digits after a sign, and whether the sign is a minus. -/
def stripSign (text : Text) : Bool × Text :=
  match text with
  | [] => (false, [])
  | c :: digits => if c = 45 then (true, digits) else if c = 43 then (false, digits) else (false, text)

/-- `std::stoll` in base 10, with the number of characters it consumed; `none` where it throws. -/
def stoll (text : Text) : Option (BitVec 64 × Nat) :=
  let signed := stripSign ((cString text).dropWhile isSpace)
  let digits := signed.2.takeWhile isDigit
  let n : Int := if signed.1 then -readDigits digits else readDigits digits
  if digits = [] then none
  else if -9223372036854775808 ≤ n ∧ n < 9223372036854775808 then
    some (BitVec.ofInt 64 n, (cString text).length - (signed.2.dropWhile isDigit).length)
  else none

section Read
variable (strtod : Text → Conversion)

/-- `std::stod`, as `stoll`. -/
def stod (text : Text) : Option (BitVec 64 × Nat) :=
  let c := strtod (cString text)
  if c.consumed = 0 then none else if c.outOfRange then none else some (c.value, c.consumed)

/-- The double of a token where `strtod` stops at the NUL that ends it. -/
def takenWhole (token : Text) : Option (BitVec 64) :=
  let c := strtod (cString token)
  if c.consumed = (cString token).length then some c.value else none

/-- The value of one `--meta key=text`. -/
def readValue (text : Text) : MetadataValue :=
  if 2 ≤ text.length ∧ text.head? = some kDoubleQuote ∧ text.getLast? = some kDoubleQuote then
    .text ((text.drop 1).take (text.length - 2))
  else
    match stoll text with
    | some (integer, consumed) => if consumed = text.length then .integer integer else readReal text
    | none => readReal text
where
  readReal (text : Text) : MetadataValue :=
    match stod strtod text with
    | some (real, consumed) => if consumed = text.length then .real real else .text text
    | none => .text text

/-- `read_metadata`, from the pairs that `--meta` was given. -/
def readMetadata (entries : List (Text × Text)) : Metadata :=
  entries.foldl (fun metadata entry => metadata.insert entry.1 (readValue strtod entry.2)) ∅

/-- What is known of `strtod`: it takes no more than there is, and a decimal integer with a plus
sign it takes whole, for the nearest double. -/
structure StrtodLaws : Prop where
  consumed_le : ∀ s, (strtod s).consumed ≤ s.length
  positive : ∀ digits, digits ≠ [] → (∀ c ∈ digits, isDigit c = true) →
    readDigits digits < 9223372036854775808 →
      strtod (43 :: digits) =
        ⟨realOfInteger (BitVec.ofNat 64 (readDigits digits)), digits.length + 1, false⟩

end Read

/-- A decimal integer of 64 bits, with any sign. -/
def IsSignedInteger (token : Text) (n : Int) : Prop :=
  IsInteger token n ∨ ∃ digits, token = 43 :: digits ∧ digits ≠ [] ∧
    (∀ c ∈ digits, isDigit c = true) ∧ n = readDigits digits ∧ n < 9223372036854775808

section Strings

theorem length_cString_le (text : Text) : (cString text).length ≤ text.length :=
  (List.takeWhile_sublist _).length_le

theorem cString_eq {text : Text} (h : 0 ∉ text) : cString text = text := by
  refine List.takeWhile_eq_self_iff.mpr fun c hc => ?_
  have hne : c ≠ 0 := fun hzero => h (hzero ▸ hc)
  simpa using hne

theorem cString_eq_of_length {text : Text} (h : (cString text).length = text.length) :
    cString text = text ∧ 0 ∉ text := by
  have heq : cString text = text := (List.takeWhile_prefix _).eq_of_length h
  refine ⟨heq, fun hmem => ?_⟩
  have hzero := List.takeWhile_eq_self_iff.mp heq 0 hmem
  simp at hzero

theorem digit_char : ∀ c : Byte, isDigit c = true → c ≠ 0 ∧ c ≠ 43 ∧ c ≠ 45 ∧ isSpace c = false := by
  decide +kernel

theorem not_mem_zero_of_digits {digits : Text} (h : ∀ c ∈ digits, isDigit c = true) :
    0 ∉ digits := fun hmem => (digit_char 0 (h 0 hmem)).1 rfl

theorem stripSign_digits {text : Text} (h : ∀ c ∈ text, isDigit c = true) :
    stripSign text = (false, text) := by
  cases text with
  | nil => rfl
  | cons c digits =>
    obtain ⟨-, hplus, hminus, -⟩ := digit_char c (h c List.mem_cons_self)
    rw [stripSign, if_neg hminus, if_neg hplus]

theorem stoll_eq {text : Text} (hnul : 0 ∉ text) (hspace : ∀ c ∈ text.head?, isSpace c = false)
    {negative : Bool} {digits : Text} (hsign : stripSign text = (negative, digits))
    (hne : digits ≠ []) (hdigits : ∀ c ∈ digits, isDigit c = true) :
    stoll text =
      let n : Int := if negative then -readDigits digits else readDigits digits
      if -9223372036854775808 ≤ n ∧ n < 9223372036854775808 then
        some (BitVec.ofInt 64 n, text.length)
      else none := by
  have hskip : text.dropWhile isSpace = text := by
    cases text with
    | nil => rfl
    | cons c text => simp [hspace c rfl]
  have htake : digits.takeWhile isDigit = digits := List.takeWhile_eq_self_iff.mpr hdigits
  have hdrop : digits.dropWhile isDigit = [] := List.dropWhile_eq_nil_iff.mpr hdigits
  simp only [stoll, cString_eq hnul, hskip, hsign, htake, hdrop, if_neg hne, List.length_nil,
    Nat.sub_zero]

theorem sign_head {sign : Byte} (hsign : sign = 45 ∨ sign = 43) {digits : Text}
    (h : ∀ c ∈ digits, isDigit c = true) :
    0 ∉ sign :: digits ∧ ∀ c ∈ (sign :: digits).head?, isSpace c = false := by
  refine ⟨fun hmem => ?_, fun c hc => ?_⟩
  · rcases List.mem_cons.mp hmem with hzero | hmem
    · rcases hsign with rfl | rfl <;> cases hzero
    · exact not_mem_zero_of_digits h hmem
  · cases hc
    rcases hsign with rfl | rfl <;> decide

theorem IsSignedInteger.stoll {text : Text} {n : Int} (h : IsSignedInteger text n) :
    stoll text = some (BitVec.ofInt 64 n, text.length) := by
  have hspaces : ∀ digits : Text, (∀ c ∈ digits, isDigit c = true) →
      ∀ c ∈ digits.head?, isSpace c = false := fun digits hdigits c hc =>
    (digit_char c (hdigits c (List.mem_of_mem_head? hc))).2.2.2
  rcases h with ⟨hread, hrange⟩ | ⟨digits, rfl, hne, hdigits, rfl, hhigh⟩
  · rcases readDecimal_eq_some_iff.mp hread with
      ⟨digits, rfl, hne, hdigits, rfl⟩ | ⟨hne, hdigits, rfl⟩
    · obtain ⟨hnul, hspace⟩ := sign_head (.inl rfl) hdigits
      rw [stoll_eq hnul hspace (show stripSign (45 :: digits) = (true, digits) from rfl) hne hdigits]
      exact if_pos hrange
    · rw [stoll_eq (not_mem_zero_of_digits hdigits) (hspaces text hdigits)
        (stripSign_digits hdigits) hne hdigits]
      exact if_pos hrange
  · obtain ⟨hnul, hspace⟩ := sign_head (.inr rfl) hdigits
    rw [stoll_eq hnul hspace (show stripSign (43 :: digits) = (false, digits) from rfl) hne hdigits]
    exact if_pos ⟨by omega, hhigh⟩

theorem stripSign_cases (text : Text) :
    (∃ digits, text = 45 :: digits ∧ stripSign text = (true, digits)) ∨
      (∃ digits, text = 43 :: digits ∧ stripSign text = (false, digits)) ∨
      stripSign text = (false, text) := by
  cases text with
  | nil => exact .inr (.inr rfl)
  | cons c digits =>
    by_cases hminus : c = 45
    · subst hminus
      exact .inl ⟨digits, rfl, rfl⟩
    · by_cases hplus : c = 43
      · subst hplus
        exact .inr (.inl ⟨digits, rfl, rfl⟩)
      · exact .inr (.inr (by rw [stripSign, if_neg hminus, if_neg hplus]))

theorem stoll_eq_some {text : Text} {bits : BitVec 64} {consumed : Nat}
    (h : stoll text = some (bits, consumed)) :
    ∃ negative digits, stripSign ((cString text).dropWhile isSpace) = (negative, digits) ∧
      digits.takeWhile isDigit ≠ [] ∧
      ∃ n : Int, n = (if negative then -(readDigits (digits.takeWhile isDigit) : Int)
          else readDigits (digits.takeWhile isDigit)) ∧
        (-9223372036854775808 ≤ n ∧ n < 9223372036854775808) ∧ bits = BitVec.ofInt 64 n ∧
        consumed = (cString text).length - (digits.dropWhile isDigit).length := by
  rcases hsign : stripSign ((cString text).dropWhile isSpace) with ⟨negative, digits⟩
  simp only [Cli.stoll, hsign] at h
  by_cases hne : digits.takeWhile isDigit = []
  · rw [if_pos hne] at h
    cases h
  rw [if_neg hne] at h
  generalize hn : (if negative = true then -(readDigits (digits.takeWhile isDigit) : Int)
    else readDigits (digits.takeWhile isDigit)) = n at h
  by_cases hrange : -9223372036854775808 ≤ n ∧ n < 9223372036854775808
  · rw [if_pos hrange] at h
    obtain ⟨hbits, hconsumed⟩ := Prod.ext_iff.mp (Option.some.inj h)
    exact ⟨negative, digits, rfl, hne, n, hn.symm, hrange, hbits.symm, hconsumed.symm⟩
  · rw [if_neg hrange] at h
    cases h

/-- Only signed integers does `stoll` consume to their end. -/
theorem isSignedInteger_of_stoll {text : Text} {bits : BitVec 64}
    (hspace : ∀ c ∈ text.head?, isSpace c = false) (h : stoll text = some (bits, text.length)) :
    ∃ n, IsSignedInteger text n ∧ bits = BitVec.ofInt 64 n := by
  have hskip : text.dropWhile isSpace = text := by
    cases text with
    | nil => rfl
    | cons c text => simp [hspace c rfl]
  have hle := length_cString_le text
  obtain ⟨negative, digits, hsign, hne, n, hn, hrange, hbits, hconsumed⟩ := stoll_eq_some h
  obtain ⟨heq, -⟩ := @cString_eq_of_length text (by omega)
  rw [heq, hskip] at hsign
  rw [heq] at hconsumed
  have hshort : digits.length ≤ text.length := by
    rcases stripSign_cases text with ⟨rest, rfl, hs⟩ | ⟨rest, rfl, hs⟩ | hs <;>
      rw [hs] at hsign <;> cases hsign <;> simp
  have hleft : digits.dropWhile isDigit = [] := by
    by_contra hsome
    have hpos := List.length_pos_iff.mpr hsome
    have htotal := (List.dropWhile_sublist (l := digits) isDigit).length_le
    omega
  have hdigits := List.dropWhile_eq_nil_iff.mp hleft
  rw [List.takeWhile_eq_self_iff.mpr hdigits] at hne hn
  refine ⟨n, ?_, hbits⟩
  rcases stripSign_cases text with ⟨rest, rfl, hs⟩ | ⟨rest, rfl, hs⟩ | hs <;>
    rw [hs] at hsign <;> cases hsign
  · exact .inl ⟨readDecimal_eq_some_iff.mpr (.inl ⟨digits, rfl, hne, hdigits, hn⟩), hrange⟩
  · exact .inr ⟨digits, rfl, hne, hdigits, hn, hrange.2⟩
  · exact .inl ⟨readDecimal_eq_some_iff.mpr (.inr ⟨hne, hdigits, hn⟩), hrange⟩

end Strings

section Compare

theorem compareValues_same_number {stored wanted : MetadataValue} {bits : BitVec 64}
    (hs : stored.number? = some bits) (hw : wanted.number? = some bits) :
    compareValues stored wanted = some .eq := by
  simp [compareValues, hs, hw, realLess]

/-- What the table makes of a double still compares as equal to it. -/
theorem compareValues_stored_real (bits : BitVec 64) :
    compareValues (MetadataValue.real bits).stored (.real bits) = some .eq := by
  simp only [MetadataValue.stored, storedReal]
  by_cases hnan : isNaN bits = true
  · rw [compareValues_isNaN hnan (.inr rfl)]
    rfl
  · rw [if_neg hnan]
    by_cases hzero : bits = negativeZero
    · rw [if_pos hzero, hzero]
      decide
    · rw [if_neg hzero]
      exact compareValues_same_number rfl rfl

end Compare

section Typing
variable {strtod : Text → Conversion} {token : Text}

/-- The token is an integer, or no real, or a real that a double can hold. -/
def TypedAlike (strtod : Text → Conversion) (token : Text) : Prop :=
  (∃ n, IsSignedInteger token n) ∨ takenWhole strtod token = none ∨
    (0 ∉ token ∧ (strtod token).outOfRange = false)

/-- The token is not written between double quotes. -/
theorem readValue_bare (hquote : ∀ c ∈ token.head?, c ≠ kDoubleQuote) :
    readValue strtod token =
      match stoll token with
      | some (integer, consumed) =>
        if consumed = token.length then .integer integer else readValue.readReal strtod token
      | none => readValue.readReal strtod token := by
  rw [readValue, if_neg]
  rintro ⟨-, hhead, -⟩
  exact hquote _ hhead rfl

theorem readValue_integer (hquote : ∀ c ∈ token.head?, c ≠ kDoubleQuote) {n : Int}
    (h : IsSignedInteger token n) : readValue strtod token = .integer (BitVec.ofInt 64 n) := by
  rw [readValue_bare hquote, h.stoll]
  exact if_pos rfl

theorem readValue_not_integer (hquote : ∀ c ∈ token.head?, c ≠ kDoubleQuote)
    (hspace : ∀ c ∈ token.head?, isSpace c = false) (h : ∀ n, ¬ IsSignedInteger token n) :
    readValue strtod token = readValue.readReal strtod token := by
  rw [readValue_bare hquote]
  rcases hstoll : stoll token with _ | ⟨bits, consumed⟩
  · rfl
  · refine if_neg ?_
    rintro rfl
    obtain ⟨n, hn, -⟩ := isSignedInteger_of_stoll hspace hstoll
    exact h n hn

theorem stod_eq_some {read : BitVec 64 × Nat} (h : stod strtod token = some read) :
    read.1 = (strtod (cString token)).value ∧ read.2 = (strtod (cString token)).consumed := by
  simp only [stod] at h
  split_ifs at h
  cases h
  exact ⟨rfl, rfl⟩

/-- `stod` gives the double that `strtod` takes whole, or throws where there is a NUL in the
token or the double is out of range. -/
theorem readReal_eq (hlaws : StrtodLaws strtod) (hne : token ≠ []) :
    readValue.readReal strtod token =
      match takenWhole strtod token with
      | some bits =>
        if 0 ∉ token ∧ (strtod token).outOfRange = false then .real bits else .text token
      | none => .text token := by
  have hpos := List.length_pos_iff.mpr hne
  have hle := hlaws.consumed_le (cString token)
  have hshort := length_cString_le token
  by_cases hnul : 0 ∈ token
  · have hlt : (cString token).length < token.length :=
      lt_of_le_of_ne hshort fun heq => (cString_eq_of_length heq).2 hnul
    have hconsumed : (strtod (cString token)).consumed ≠ token.length := by omega
    have hright : (match takenWhole strtod token with
        | some bits =>
          if 0 ∉ token ∧ (strtod token).outOfRange = false then MetadataValue.real bits
          else .text token
        | none => .text token) = .text token := by
      cases takenWhole strtod token with
      | none => rfl
      | some bits => exact if_neg fun hfits => hfits.1 hnul
    rw [hright, readValue.readReal]
    cases hstod : stod strtod token with
    | none => rfl
    | some read =>
      obtain ⟨-, hread⟩ := stod_eq_some hstod
      exact if_neg fun heq => hconsumed (hread.symm.trans heq)
  · have hstring := cString_eq hnul
    simp only [readValue.readReal, stod, takenWhole, hstring]
    by_cases hwhole : (strtod token).consumed = token.length
    · have hzero : (strtod token).consumed ≠ 0 := by omega
      rw [if_neg hzero, if_pos hwhole]
      cases hrange : (strtod token).outOfRange with
      | true => simp
      | false => simp [hnul, hwhole]
    · rw [if_neg hwhole]
      by_cases hzero : (strtod token).consumed = 0
      · rw [if_pos hzero]
      · rw [if_neg hzero]
        by_cases hrange : (strtod token).outOfRange = true
        · rw [if_pos hrange]
        · rw [if_neg hrange]
          exact if_neg hwhole

/-- A signed integer is read as an equal number by the filter language. -/
theorem parseValue_signedInteger (hlaws : StrtodLaws strtod) {n : Int}
    (h : IsSignedInteger token n) :
    (parseValue (takenWhole strtod) token false).number? =
      some (realOfInteger (BitVec.ofInt 64 n)) := by
  rcases h with h | ⟨digits, rfl, hne, hdigits, rfl, hhigh⟩
  · rw [parseValue_bareTyped _ (.integer h)]
    rfl
  · have hnot : ∀ m, ¬ IsInteger (43 :: digits) m := by
      rintro m ⟨hread, -⟩
      rcases readDecimal_eq_some_iff.mp hread with ⟨rest, heq, -⟩ | ⟨-, hall, -⟩
      · exact absurd (List.cons.inj heq).1 (by decide)
      · have hplus := hall 43 List.mem_cons_self
        revert hplus
        decide
    have hstring := cString_eq (sign_head (.inr rfl) hdigits).1
    have hwhole : takenWhole strtod (43 :: digits) =
        some (realOfInteger (BitVec.ofNat 64 (readDigits digits))) := by
      rw [takenWhole, hstring, hlaws.positive digits hne hdigits (by omega)]
      exact if_pos rfl
    rw [parseValue_bareTyped _ (.real hnot hwhole)]
    rfl

/-- The two rules agree, up to the number a value stands for, or one sees a real where the other
sees a text. -/
theorem compareValues_readValue (hlaws : StrtodLaws strtod) (hne : token ≠ [])
    (hquote : ∀ c ∈ token.head?, c ≠ kDoubleQuote)
    (hspace : ∀ c ∈ token.head?, isSpace c = false) :
    (TypedAlike strtod token →
      compareValues (readValue strtod token) (parseValue (takenWhole strtod) token false) =
          some .eq ∧
        compareValues (readValue strtod token).stored
          (parseValue (takenWhole strtod) token false) = some .eq) ∧
    (¬ TypedAlike strtod token →
      ∃ bits, readValue strtod token = .text token ∧
        parseValue (takenWhole strtod) token false = .real bits) := by
  by_cases hinteger : ∃ n, IsSignedInteger token n
  · obtain ⟨n, hn⟩ := hinteger
    have hnumber := parseValue_signedInteger hlaws hn
    refine ⟨fun _ => ?_, fun hnot => absurd (.inl ⟨n, hn⟩) hnot⟩
    rw [readValue_integer hquote hn]
    exact ⟨compareValues_same_number rfl hnumber, compareValues_same_number rfl hnumber⟩
  · rw [not_exists] at hinteger
    have hnot : ∀ n, ¬ IsInteger token n := fun n hn => hinteger n (.inl hn)
    rw [readValue_not_integer hquote hspace hinteger, readReal_eq hlaws hne]
    cases hwhole : takenWhole strtod token with
    | none =>
      refine ⟨fun _ => ?_, fun halike => absurd (.inr (.inl hwhole)) halike⟩
      rw [parseValue_bareTyped _ (.text hnot hwhole)]
      simp [compareValues, MetadataValue.number?, MetadataValue.stored]
    | some bits =>
      rw [parseValue_bareTyped _ (.real hnot hwhole)]
      dsimp only
      refine ⟨fun halike => ?_, fun halike => ?_⟩
      · rcases halike with ⟨n, hn⟩ | hnone | hfits
        · exact absurd hn (hinteger n)
        · rw [hwhole] at hnone
          cases hnone
        · rw [if_pos hfits]
          exact ⟨compareValues_same_number rfl rfl, compareValues_stored_real bits⟩
      · rw [if_neg fun hfits => halike (.inr (.inr hfits))]
        exact ⟨bits, rfl, rfl⟩

end Typing

/-- The value that `--meta key=token` stores passes the filter `key == token`, as it is and as
the table gives it back, if and only if the token is an integer, or no real, or a real that a
double can hold. -/
theorem readMetadata_matches_iff {strtod : Text → Conversion} (hlaws : StrtodLaws strtod)
    {key token : Text} (hkey : key ≠ [] ∧ ∀ c ∈ key, isKeyChar c = true) (hne : token ≠ [])
    (hspace : ∀ c ∈ token, isSpace c = false)
    (hquote : ∀ c ∈ token.head?, c ≠ kDoubleQuote ∧ c ≠ kSingleQuote) :
    ∃ filter, Filter.parse (takenWhole strtod) (key ++ [32] ++ [61, 61] ++ [32] ++ token) =
        .ok filter ∧
      (filter.matches (readMetadata strtod [(key, token)]) = true ↔
        (∃ n, IsSignedInteger token n) ∨ takenWhole strtod token = none ∨
          (0 ∉ token ∧ (strtod token).outOfRange = false)) ∧
      (filter.matches ((readMetadata strtod [(key, token)]).map fun _ value => value.stored) =
          true ↔
        (∃ n, IsSignedInteger token n) ∨ takenWhole strtod token = none ∨
          (0 ∉ token ∧ (strtod token).outOfRange = false)) := by
  let c : FilterCondition := ⟨key, .equal, parseValue (takenWhole strtod) token false⟩
  obtain ⟨halike, hother⟩ := compareValues_readValue hlaws hne (fun d hd => (hquote d hd).1)
    fun d hd => hspace d (List.mem_of_mem_head? hd)
  have hblank : IsBlank [32] := by simp [IsBlank, isSpace]
  have hop : ([61, 61], FilterOp.equal) ∈ kOperators := by decide
  have hvalue : ValueWritten (takenWhole strtod) c.value token := by
    obtain ⟨d, rest, rfl⟩ := List.exists_cons_of_ne_nil hne
    exact .bare (hquote d rfl).1 (hquote d rfl).2 hspace (bareTyped_parseValue _ _)
  have hparse := @Filter.parse_of_written (takenWhole strtod) _ [] _ (by simp [IsBlank])
    (@FilterWritten.last _ c _ [] (@ConditionWritten.mk _ c [32] [61, 61] [32] token hkey
      hop hblank hblank hvalue fun _ => by simp) (by simp [IsBlank]))
  rw [List.append_nil, List.nil_append] at hparse
  have hmatches : ∀ stored : MetadataValue,
      (TypedAlike strtod token → compareValues stored c.value = some .eq) →
      (¬ TypedAlike strtod token → compareValues stored c.value = none) →
      (Filter.matches [c] ((∅ : Metadata).insert key stored) = true ↔ TypedAlike strtod token) := by
    intro stored hyes hno
    have hone : Filter.matches [c] ((∅ : Metadata).insert key stored) =
        c.matches ((∅ : Metadata).insert c.key stored) := by simp [Filter.matches, c]
    rw [hone, FilterCondition.matches_insert]
    by_cases h : TypedAlike strtod token
    · rw [hyes h]
      simp [h, c, FilterOp.holds]
    · rw [hno h]
      simp [h]
  have hread : readMetadata strtod [(key, token)] =
      (∅ : Metadata).insert key (readValue strtod token) := rfl
  have hstored : ((∅ : Metadata).insert key (readValue strtod token)).map
      (fun _ value => value.stored) = (∅ : Metadata).insert key (readValue strtod token).stored := by
    apply Std.ExtTreeMap.ext_getElem?
    intro other
    by_cases hsame : key = other <;> simp [hsame]
  refine ⟨[c], hparse, ?_, ?_⟩
  · rw [hread]
    refine hmatches _ (fun h => (halike h).1) fun h => ?_
    obtain ⟨bits, htext, hreal⟩ := hother h
    rw [htext, show c.value = .real bits from hreal]
    rfl
  · rw [hread, hstored]
    refine hmatches _ (fun h => (halike h).2) fun h => ?_
    obtain ⟨bits, htext, hreal⟩ := hother h
    rw [htext, show c.value = .real bits from hreal]
    rfl

/-- Signed integers, and one double that is out of range. -/
def simpleStrtod (text : Text) : Conversion :=
  match text with
  | 43 :: digits =>
    if digits ≠ [] ∧ digits.all isDigit = true then
      ⟨realOfInteger (BitVec.ofNat 64 (readDigits digits)), digits.length + 1, false⟩
    else ⟨0, 0, false⟩
  | _ =>
    -- "1e999" is taken for infinity
    if text = [49, 101, 57, 57, 57] then ⟨0x7FF0000000000000, 5, true⟩ else ⟨0, 0, false⟩

theorem simpleStrtod_laws : StrtodLaws simpleStrtod where
  consumed_le s := by
    unfold simpleStrtod
    split
    · split_ifs <;> simp
    · split_ifs with htext
      · rw [htext]
        decide
      · exact Nat.zero_le _
  positive digits hne hdigits _ := if_pos ⟨hne, List.all_eq_true.mpr hdigits⟩

/-- "+5" is the integer 5 on the command line and the real 5.0 in a filter. -/
theorem readMetadata_matches_plus :
    ∃ filter, Filter.parse (takenWhole simpleStrtod) [107, 32, 61, 61, 32, 43, 53] = .ok filter ∧
      filter.matches (readMetadata simpleStrtod [([107], [43, 53])]) = true := by
  obtain ⟨filter, hparse, hmatches, -⟩ := @readMetadata_matches_iff simpleStrtod simpleStrtod_laws
    [107] [43, 53] (by simp [isKeyChar, isAlpha]) (by decide) (by simp [isSpace])
    (by simp [kDoubleQuote, kSingleQuote])
  exact ⟨filter, hparse, hmatches.mpr (.inr (.inr ⟨by decide, by decide⟩))⟩

/-- "1e999" is stored as a text, and the filter looks for the real infinity. -/
theorem readMetadata_out_of_range :
    StrtodLaws simpleStrtod ∧
      readMetadata simpleStrtod [([107], [49, 101, 57, 57, 57])] =
        (∅ : Metadata).insert [107] (.text [49, 101, 57, 57, 57]) ∧
      Filter.parse (takenWhole simpleStrtod) [107, 32, 61, 61, 32, 49, 101, 57, 57, 57] =
        .ok [⟨[107], .equal, .real 0x7FF0000000000000⟩] ∧
      Filter.matches [⟨[107], .equal, .real 0x7FF0000000000000⟩]
        (readMetadata simpleStrtod [([107], [49, 101, 57, 57, 57])]) = false := by
  have hvalue : readValue simpleStrtod [49, 101, 57, 57, 57] = .text [49, 101, 57, 57, 57] := by
    decide +kernel
  have hread : readMetadata simpleStrtod [([107], [49, 101, 57, 57, 57])] =
      (∅ : Metadata).insert [107] (.text [49, 101, 57, 57, 57]) := by
    rw [← hvalue]
    rfl
  refine ⟨simpleStrtod_laws, hread, by decide +kernel, ?_⟩
  rw [hread]
  have hone := FilterCondition.matches_insert ⟨[107], .equal, .real 0x7FF0000000000000⟩
    (.text [49, 101, 57, 57, 57])
  simp only [Filter.matches, List.all_cons, List.all_nil, Bool.and_true]
  exact hone

end VectorDb.Cli
