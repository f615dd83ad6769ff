import VectorDb.Storage.FilterGrammar

/-!
What a filter's own text parses to.
-/
set_option autoImplicit false

namespace VectorDb.Storage

open VectorDb.Lib

variable (showReal : BitVec 64 → Text) (strtod : Text → Option (BitVec 64))
variable {expression left : Text}

theorem number_char : ∀ c : Byte, c = 45 ∨ isDigit c = true →
    isSpace c = false ∧ c ≠ kDoubleQuote ∧ c ≠ kSingleQuote := by decide +kernel

section Parts

theorem isBlank_space : IsBlank [32] := by simp [IsBlank, isSpace]

theorem symbol_mem (op : FilterOp) : (op.symbol, op) ∈ kOperators := by cases op <;> decide

theorem parseKey_space {key : Text} (hne : key ≠ []) (hkey : ∀ b ∈ key, isKeyChar b = true) :
    parseKey expression (key ++ 32 :: left) = .ok (key, 32 :: left) :=
  parseKey_append hne hkey fun b hb => by
    cases hb
    decide

theorem parseOp_symbol (op : FilterOp) :
    parseOp expression (32 :: op.symbol ++ 32 :: left) = .ok (op, 32 :: left) :=
  parseOp_append isBlank_space (symbol_mem op) (by simp)

theorem parseToken_number {n : Int} (hleft : ∀ c ∈ left.head?, isSpace c = true) :
    parseToken expression (32 :: decimal n ++ left) = .ok (decimal n, false, left) := by
  have hchars : ∀ c ∈ decimal n, isSpace c = false := fun c hc =>
    (number_char c (decimal_chars n c hc)).1
  cases hdecimal : decimal n with
  | nil => exact absurd hdecimal (decimal_ne_nil n)
  | cons c digits =>
    obtain ⟨-, hdouble, hsingle⟩ := number_char c (decimal_chars n c (by simp [hdecimal]))
    exact parseToken_bare isBlank_space hdouble hsingle (hdecimal ▸ hchars) hleft

theorem parseValue_decimal (n : BitVec 64) :
    parseValue strtod (decimal n.toInt) false = .integer n := by
  have hlow := BitVec.le_two_mul_toInt (x := n)
  have hhigh := BitVec.two_mul_toInt_lt (x := n)
  have hread : fromChars (decimal n.toInt) = some n := by
    rw [fromChars, readDecimal_decimal]
    simp only
    rw [if_pos (by omega), BitVec.ofInt_toInt]
  simp [parseValue, hread]

theorem parseToken_quoted (text : Text) :
    parseToken expression (32 :: kDoubleQuote :: text ++ kDoubleQuote :: left) =
      match scanQuoted kBackslash kDoubleQuote (text ++ kDoubleQuote :: left) with
      | (_, []) => .error (parseError expression [] "unterminated quoted value")
      | (token, _ :: rest) => .ok (token, true, rest) :=
  parseToken_quote isBlank_space (.inl rfl)

end Parts

section Conditions
variable {c : FilterCondition}

theorem parseCondition_number {n : BitVec 64} (hkey : c.HasKey) (hvalue : c.value = .integer n)
    (hleft : ∀ b ∈ left.head?, isSpace b = true) :
    parseCondition strtod expression (c.toText showReal ++ left) = .ok (c, left) := by
  have htext : c.toText showReal ++ left =
      c.key ++ 32 :: (c.op.symbol ++ 32 :: (decimal n.toInt ++ left)) := by
    simp [FilterCondition.toText, hvalue, toDisplayString]
  have hop : parseOp expression (32 :: (c.op.symbol ++ 32 :: (decimal n.toInt ++ left))) =
      .ok (c.op, 32 :: (decimal n.toInt ++ left)) := parseOp_symbol c.op
  have htoken : parseToken expression (32 :: (decimal n.toInt ++ left)) =
      .ok (decimal n.toInt, false, left) := parseToken_number hleft
  simp only [parseCondition, htext, parseKey_space hkey.1 hkey.2, bind, Except.bind, hop, htoken,
    parseValue_decimal]
  rw [← hvalue]

/-- A text is parsed up to the first quote that is not escaped. -/
theorem parseCondition_text {text : Text} (hkey : c.HasKey) (hvalue : c.value = .text text) :
    parseCondition strtod expression (c.toText showReal ++ left) =
      match scanQuoted kBackslash kDoubleQuote (text ++ kDoubleQuote :: left) with
      | (_, []) => .error (parseError expression [] "unterminated quoted value")
      | (token, _ :: rest) => .ok (⟨c.key, c.op, .text token⟩, rest) := by
  have htext : c.toText showReal ++ left =
      c.key ++ 32 :: (c.op.symbol ++ 32 :: (kDoubleQuote :: (text ++ kDoubleQuote :: left))) := by
    simp [FilterCondition.toText, hvalue]
  have hop : parseOp expression
      (32 :: (c.op.symbol ++ 32 :: (kDoubleQuote :: (text ++ kDoubleQuote :: left)))) =
        .ok (c.op, 32 :: (kDoubleQuote :: (text ++ kDoubleQuote :: left))) := parseOp_symbol c.op
  have htoken : parseToken expression (32 :: (kDoubleQuote :: (text ++ kDoubleQuote :: left))) = _ :=
    parseToken_quoted text
  simp only [parseCondition, htext, parseKey_space hkey.1 hkey.2, bind, Except.bind, hop, htoken]
  rcases scanQuoted kBackslash kDoubleQuote (text ++ kDoubleQuote :: left) with ⟨token, rest⟩
  cases rest <;> simp [parseValue]

/-- The value is a text without quotes and backslashes, or no text. -/
def FilterCondition.Plain (c : FilterCondition) : Prop :=
  ∀ text, c.value = .text text → kDoubleQuote ∉ text ∧ kBackslash ∉ text

/-- The value is a text or an integer. -/
def FilterCondition.TextOrInteger (c : FilterCondition) : Prop :=
  (∃ text, c.value = .text text) ∨ ∃ n, c.value = .integer n

theorem parseCondition_plain (hkey : c.HasKey) (hvalue : c.TextOrInteger) (hplain : c.Plain)
    (hleft : ∀ b ∈ left.head?, isSpace b = true) :
    parseCondition strtod expression (c.toText showReal ++ left) = .ok (c, left) := by
  rcases hvalue with ⟨text, hvalue⟩ | ⟨n, hvalue⟩
  · obtain ⟨hquote, hescape⟩ := hplain text hvalue
    rw [parseCondition_text showReal strtod hkey hvalue, scanQuoted_plain hquote hescape]
    simp [← hvalue]
  · exact parseCondition_number showReal strtod hkey hvalue hleft

/-- Where the value is no plain text, another one is read. -/
theorem parseCondition_not_plain {d : FilterCondition} {rest : Text} (hkey : c.HasKey)
    (hplain : ¬ c.Plain)
    (h : parseCondition strtod expression (c.toText showReal ++ left) = .ok (d, rest)) :
    d ≠ c := by
  simp only [FilterCondition.Plain, not_forall] at hplain
  obtain ⟨text, hvalue, hspecial⟩ := hplain
  rw [parseCondition_text showReal strtod hkey hvalue] at h
  have hscan := scanQuoted_eq_self_iff (show kBackslash ≠ kDoubleQuote by decide) text left
  rintro rfl
  split at h
  · cases h
  next token _ _ heq =>
    have hd := (Prod.ext_iff.mp (Except.ok.inj h)).1
    have htoken : token = text := by
      have := (congrArg FilterCondition.value hd).trans hvalue
      simpa using this
    rw [heq] at hscan
    exact hspecial (hscan.mp htoken)

end Conditions

/-- A filter that was parsed is one condition, and then none or what was parsed of the rest. -/
theorem parseConditions_cases {expression rest : Text} {filter : Filter}
    (h : parseConditions strtod expression rest = .ok filter) :
    ∃ c left tail, parseCondition strtod expression rest = .ok (c, left) ∧ filter = c :: tail ∧
      (tail = [] ∨ ∃ rest, parseConditions strtod expression rest = .ok tail) := by
  rw [parseConditions_eq] at h
  cases hcondition : parseCondition strtod expression rest with
  | error e =>
    rw [hcondition] at h
    cases h
  | ok parsed =>
    obtain ⟨c, left⟩ := parsed
    rw [hcondition] at h
    simp only [bind, Except.bind] at h
    split at h
    · cases h
      exact ⟨c, left, [], rfl, rfl, .inl rfl⟩
    · split at h
      · split at h
        · cases h
        next htail =>
          cases h
          exact ⟨c, left, _, rfl, rfl, .inr ⟨_, htail⟩⟩
      · cases h

/-- The "and" that `toText` writes between two conditions. -/
theorem parseConditions_and_text {expression rest left : Text} {c : FilterCondition}
    (h : parseCondition strtod expression rest = .ok (c, 32 :: 97 :: 110 :: 100 :: 32 :: left)) :
    parseConditions strtod expression rest = (do
      let filter ← parseConditions strtod expression left
      .ok (c :: filter)) :=
  @parseConditions_and strtod expression rest [32] [97, 110, 100] [32] left c h isBlank_space
    (by decide) isBlank_space (by simp)

/-- The conditions of a filter read back from its text exactly when its texts are plain. -/
theorem parseConditions_toText_iff (expression : Text) {filter : Filter} (hne : filter ≠ [])
    (hkeys : ∀ c ∈ filter, c.HasKey) (hvalues : ∀ c ∈ filter, c.TextOrInteger) :
    parseConditions strtod expression (filter.toText showReal) = .ok filter ↔
      ∀ c ∈ filter, c.Plain := by
  induction filter with
  | nil => exact absurd rfl hne
  | cons c filter ih =>
    have hkey := hkeys c List.mem_cons_self
    have hvalue := hvalues c List.mem_cons_self
    have hplain : ∀ {left g}, parseConditions strtod expression (c.toText showReal ++ left) =
        .ok (c :: g) → c.Plain := by
      intro left g h
      obtain ⟨d, rest, tail, hrest, heq, _⟩ := parseConditions_cases strtod h
      by_contra hnot
      exact parseCondition_not_plain showReal strtod hkey hnot hrest (List.cons.inj heq).1.symm
    cases filter with
    | nil =>
      have htext : Filter.toText showReal [c] = c.toText showReal ++ [] :=
        (List.append_nil _).symm
      rw [htext, List.forall_mem_singleton]
      refine ⟨hplain, fun h => ?_⟩
      exact parseConditions_last strtod
        (parseCondition_plain showReal strtod hkey hvalue h (by simp)) (by simp [IsBlank])
    | cons d filter =>
      have ih := ih (List.cons_ne_nil d filter) (fun e he => hkeys e (List.mem_cons_of_mem c he))
        fun e he => hvalues e (List.mem_cons_of_mem c he)
      have hgo : c.Plain →
          parseConditions strtod expression (Filter.toText showReal (c :: d :: filter)) = (do
            let g ← parseConditions strtod expression (Filter.toText showReal (d :: filter))
            .ok (c :: g)) := fun h =>
        parseConditions_and_text strtod (parseCondition_plain showReal strtod hkey hvalue h
          (by simp [isSpace]))
      rw [List.forall_mem_cons, ← ih]
      constructor
      · intro h
        have hc := hplain h
        refine ⟨hc, ?_⟩
        rw [hgo hc] at h
        cases hrest : parseConditions strtod expression (Filter.toText showReal (d :: filter)) with
        | error e =>
          rw [hrest] at h
          cases h
        | ok g =>
          rw [hrest] at h
          cases h
          rfl
      · intro h
        rw [hgo h.1, h.2]
        rfl

/-- Every condition that is parsed has a key. -/
theorem parseCondition_hasKey {expression rest left : Text} {c : FilterCondition}
    (h : parseCondition strtod expression rest = .ok (c, left)) : c.HasKey := by
  simp only [parseCondition, bind, Except.bind] at h
  split at h
  · cases h
  next hkey =>
    simp only [parseKey] at hkey
    split at hkey
    · cases hkey
    next hne =>
      cases hkey
      split at h
      · cases h
      · split at h
        · cases h
        · cases h
          exact ⟨hne, fun b hb => List.mem_takeWhile_imp hb⟩

theorem parseConditions_hasKey {expression rest : Text} {filter : Filter}
    (h : parseConditions strtod expression rest = .ok filter) :
    filter ≠ [] ∧ ∀ c ∈ filter, c.HasKey := by
  induction filter generalizing rest with
  | nil =>
    obtain ⟨c, left, tail, _, heq, _⟩ := parseConditions_cases strtod h
    cases heq
  | cons c filter ih =>
    obtain ⟨d, left, tail, hcondition, heq, hrest⟩ := parseConditions_cases strtod h
    cases heq
    refine ⟨List.cons_ne_nil c filter, List.forall_mem_cons.mpr
      ⟨parseCondition_hasKey strtod hcondition, ?_⟩⟩
    rcases hrest with rfl | ⟨rest, hrest⟩
    · simp
    · exact (ih hrest).2

/-- A filter of texts and integers that was parsed is parsed again from its own text exactly
when no text has a double quote or a backslash. -/
theorem Filter.parse_toText_iff {expression : Text} {filter : Filter}
    (h : Filter.parse strtod expression = .ok filter)
    (hvalues : ∀ c ∈ filter, c.TextOrInteger) :
    Filter.parse strtod (filter.toText showReal) = .ok filter ↔
      ∀ c ∈ filter, ∀ text, c.value = .text text → kDoubleQuote ∉ text ∧ kBackslash ∉ text := by
  unfold Filter.parse at h
  split at h
  · cases h
    simp [Filter.parse, Filter.toText]
  · obtain ⟨hne, hkeys⟩ := parseConditions_hasKey strtod h
    have hskip : skipSpaces (filter.toText showReal) = filter.toText showReal := by
      obtain ⟨c, tail, rfl⟩ := List.exists_cons_of_ne_nil hne
      have hkey := hkeys c List.mem_cons_self
      cases tail <;>
        simpa [Filter.toText, FilterCondition.toText] using skipSpaces_key hkey.1 hkey.2 _
    have hsome : filter.toText showReal ≠ [] := by
      obtain ⟨c, tail, rfl⟩ := List.exists_cons_of_ne_nil hne
      cases tail <;> simp [Filter.toText, FilterCondition.toText]
    rw [Filter.parse, hskip, if_neg hsome]
    exact parseConditions_toText_iff showReal strtod _ hne hkeys hvalues

/-- `a=='x'` comes back as `a == "x"`. -/
theorem Filter.parse_toText_iff_single :
    Filter.parse (fun _ => none) (Filter.toText (fun _ => []) [⟨[97], .equal, .text [120]⟩]) =
      .ok [⟨[97], .equal, .text [120]⟩] := by
  have h : Filter.parse (fun _ => none) [97, 61, 61, 39, 120, 39] =
      .ok [⟨[97], .equal, .text [120]⟩] := parseConditions_last (fun _ => none) rfl (by simp [IsBlank])
  exact (parse_toText_iff (fun _ => []) (fun _ => none) h
    (by simp [FilterCondition.TextOrInteger])).mpr (by simp [kDoubleQuote, kBackslash])

/-- `a=='x"y'` does not. -/
theorem Filter.quotes_not_escaped :
    ¬ ∀ (showReal : BitVec 64 → Text) (strtod : Text → Option (BitVec 64)) (expression : Text)
      (filter : Filter), Filter.parse strtod expression = .ok filter →
        (∀ c ∈ filter, c.TextOrInteger) →
          Filter.parse strtod (filter.toText showReal) = .ok filter := by
  intro hall
  have h : Filter.parse (fun _ => none) [97, 61, 61, 39, 120, 34, 121, 39] =
      .ok [⟨[97], .equal, .text [120, 34, 121]⟩] := parseConditions_last (fun _ => none) rfl (by simp [IsBlank])
  have hvalues : ∀ c ∈ ([⟨[97], .equal, .text [120, 34, 121]⟩] : Filter), c.TextOrInteger := by
    simp [FilterCondition.TextOrInteger]
  have hkeys : ∀ c ∈ ([⟨[97], .equal, .text [120, 34, 121]⟩] : Filter), c.HasKey := by
    simp [FilterCondition.HasKey, isKeyChar, isAlpha]
  have hplain := (parseConditions_toText_iff (fun _ => []) (fun _ => none) _ (by simp) hkeys
    hvalues).mp (hall (fun _ => []) (fun _ => none) _ _ h hvalues)
  simpa [kDoubleQuote] using (hplain _ List.mem_cons_self _ rfl).1

end VectorDb.Storage
