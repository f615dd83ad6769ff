import VectorDb.Lib.Throwing
import VectorDb.Storage.FilterText

/-!
The texts that `Filter::parse` takes for a filter, and that it takes them for that one.
-/
set_option autoImplicit false

namespace VectorDb.Storage

open VectorDb.Lib Throwing

def IsBlank (text : Text) : Prop := ∀ c ∈ text, isSpace c = true

/-- The text between two quotes, for the value it stands for: a quote or a backslash has a
backslash before it, and any other character may have one. -/
inductive Escapes (quote : Byte) : Text → Text → Prop where
  | nil : Escapes quote [] []
  | plain {c : Byte} {text written : Text} : c ≠ quote → c ≠ kBackslash →
      Escapes quote text written → Escapes quote (c :: text) (c :: written)
  | escaped {c : Byte} {text written : Text} :
      Escapes quote text written → Escapes quote (c :: text) (kBackslash :: c :: written)

section Grammar
variable (strtod : Text → Option (BitVec 64))

/-- A decimal integer of 64 bits. -/
def IsInteger (token : Text) (n : Int) : Prop :=
  readDecimal token = some n ∧ -9223372036854775808 ≤ n ∧ n < 9223372036854775808

/-- The type a bare token has: integer before real, and real before text. -/
inductive BareTyped (token : Text) : MetadataValue → Prop where
  | integer {n : Int} : IsInteger token n → BareTyped token (.integer (BitVec.ofInt 64 n))
  | real {bits : BitVec 64} : (∀ n, ¬ IsInteger token n) → strtod token = some bits →
      BareTyped token (.real bits)
  | text : (∀ n, ¬ IsInteger token n) → strtod token = none → BareTyped token (.text token)

/-- How a value is written: quoted where it is a text, and bare where its token has its type. -/
inductive ValueWritten : MetadataValue → Text → Prop where
  | quoted {quote : Byte} {text written : Text} : quote = kDoubleQuote ∨ quote = kSingleQuote →
      Escapes quote text written → ValueWritten (.text text) (quote :: written ++ [quote])
  | bare {c : Byte} {token : Text} {value : MetadataValue} : c ≠ kDoubleQuote →
      c ≠ kSingleQuote → (∀ d ∈ c :: token, isSpace d = false) →
      BareTyped strtod (c :: token) value → ValueWritten value (c :: token)

def FilterCondition.HasKey (c : FilterCondition) : Prop :=
  c.key ≠ [] ∧ ∀ b ∈ c.key, isKeyChar b = true

/-- How a condition is written, with any blanks between its parts. -/
inductive ConditionWritten (c : FilterCondition) : Text → Prop where
  | mk {before symbol after value : Text} : c.HasKey → (symbol, c.op) ∈ kOperators →
      IsBlank before → IsBlank after → ValueWritten strtod c.value value →
      (value.head? = some 61 → after ≠ []) →
      ConditionWritten c (c.key ++ before ++ symbol ++ after ++ value)

/-- How a filter is written: its conditions, with an "and" in any letters between blanks. -/
inductive FilterWritten : Filter → Text → Prop where
  | last {c : FilterCondition} {text trailing : Text} :
      ConditionWritten strtod c text → IsBlank trailing → FilterWritten [c] (text ++ trailing)
  | cons {c : FilterCondition} {filter : Filter} {text before keyword after rest : Text} :
      ConditionWritten strtod c text → IsBlank before → before ≠ [] →
      keyword.map toLower = [97, 110, 100] → IsBlank after → after ≠ [] →
      FilterWritten filter rest →
      FilterWritten (c :: filter) (text ++ before ++ keyword ++ after ++ rest)

end Grammar

section Scan

/-- A scanner takes what it is for, up to where something else begins. -/
theorem takeWhile_append_stop {α : Type} {p : α → Bool} {l rest : List α}
    (hl : ∀ a ∈ l, p a = true) (hrest : ∀ a ∈ rest.head?, p a = false) :
    (l ++ rest).takeWhile p = l := by
  rw [List.takeWhile_append_of_pos hl]
  cases rest with
  | nil => simp
  | cons a rest => simp [hrest a rfl]

theorem dropWhile_append_stop {α : Type} {p : α → Bool} {l rest : List α}
    (hl : ∀ a ∈ l, p a = true) (hrest : ∀ a ∈ rest.head?, p a = false) :
    (l ++ rest).dropWhile p = rest := by
  rw [List.dropWhile_append_of_pos hl]
  cases rest with
  | nil => simp
  | cons a rest => simp [hrest a rfl]

@[simp] theorem skipSpaces_nil : skipSpaces [] = [] := rfl

@[simp] theorem skipSpaces_space (rest : Text) : skipSpaces (32 :: rest) = skipSpaces rest := rfl

theorem skipSpaces_cons {c : Byte} (h : isSpace c = false) (rest : Text) :
    skipSpaces (c :: rest) = c :: rest := by
  simp [skipSpaces, h]

theorem skipSpaces_blank {blank rest : Text} (h : IsBlank blank) :
    skipSpaces (blank ++ rest) = skipSpaces rest :=
  List.dropWhile_append_of_pos h

theorem skipSpaces_all {blank : Text} (h : IsBlank blank) : skipSpaces blank = [] := by
  have hskip := @skipSpaces_blank blank [] h
  rwa [List.append_nil, skipSpaces_nil] at hskip

theorem isSpace_of_isKeyChar : ∀ c : Byte, isKeyChar c = true → isSpace c = false := by
  decide +kernel

theorem not_isKeyChar_of_isSpace : ∀ c : Byte, isSpace c = true → isKeyChar c = false := by
  decide +kernel

theorem isAlpha_of_toLower : ∀ c : Byte, toLower c = 97 ∨ toLower c = 110 ∨ toLower c = 100 →
    isAlpha c = true ∧ isSpace c = false := by
  decide +kernel

theorem not_isAlpha_of_isSpace : ∀ c : Byte, isSpace c = true → isAlpha c = false := by
  decide +kernel

/-- What quotes enclose is read up to the closing one. -/
theorem Escapes.scan {quote : Byte} {text written : Text} (h : Escapes quote text written)
    (hquote : kBackslash ≠ quote) (rest : Text) :
    scanQuoted kBackslash quote (written ++ quote :: rest) = (text, quote :: rest) := by
  induction h with
  | nil => simp
  | plain hne hescape _ ih => rw [List.cons_append, scanQuoted_cons hne hescape, ih]
  | escaped _ ih => rw [List.cons_append, List.cons_append, scanQuoted_escape hquote, ih]

end Scan

section Parts
variable {expression rest : Text}

theorem skipSpaces_key {key : Text} (hne : key ≠ []) (hkey : ∀ b ∈ key, isKeyChar b = true)
    (rest : Text) : skipSpaces (key ++ rest) = key ++ rest := by
  cases key with
  | nil => exact absurd rfl hne
  | cons b key => exact skipSpaces_cons (isSpace_of_isKeyChar b (hkey b List.mem_cons_self)) _

theorem parseKey_append {key : Text} (hne : key ≠ []) (hkey : ∀ b ∈ key, isKeyChar b = true)
    (hrest : ∀ b ∈ rest.head?, isKeyChar b = false) :
    parseKey expression (key ++ rest) = .ok (key, rest) := by
  simp only [parseKey, skipSpaces_key hne hkey, takeWhile_append_stop hkey hrest,
    dropWhile_append_stop hkey hrest, if_neg hne]

/-- No operator begins like a key or with a blank. -/
theorem operator_head {symbol : Text} {op : FilterOp} (h : (symbol, op) ∈ kOperators) :
    ∃ c symbol', symbol = c :: symbol' ∧ isSpace c = false ∧ isKeyChar c = false := by
  simp only [kOperators, List.mem_cons, Prod.mk.injEq, List.not_mem_nil, or_false] at h
  rcases h with ⟨rfl, -⟩ | ⟨rfl, -⟩ | ⟨rfl, -⟩ | ⟨rfl, -⟩ | ⟨rfl, -⟩ | ⟨rfl, -⟩ | ⟨rfl, -⟩ <;>
    exact ⟨_, _, rfl, by decide, by decide⟩

/-- An operator is taken for a longer one only where an "=" follows it. -/
theorem find?_operator {symbol : Text} {op : FilterOp} (h : (symbol, op) ∈ kOperators)
    (hrest : rest.head? ≠ some 61) :
    (kOperators.find? fun entry => entry.1.isPrefixOf (symbol ++ rest)) = some (symbol, op) := by
  simp only [kOperators, List.mem_cons, Prod.mk.injEq, List.not_mem_nil, or_false] at h
  rcases h with ⟨rfl, rfl⟩ | ⟨rfl, rfl⟩ | ⟨rfl, rfl⟩ | ⟨rfl, rfl⟩ | ⟨rfl, rfl⟩ | ⟨rfl, rfl⟩ |
    ⟨rfl, rfl⟩ <;> cases rest with
    | nil => rfl
    | cons c rest =>
      have hc : c ≠ 61 := fun hc => hrest (by rw [hc]; rfl)
      simp [kOperators, List.isPrefixOf, Ne.symm hc]

theorem parseOp_append {blank symbol : Text} {op : FilterOp} (hblank : IsBlank blank)
    (h : (symbol, op) ∈ kOperators) (hrest : rest.head? ≠ some 61) :
    parseOp expression (blank ++ symbol ++ rest) = .ok (op, rest) := by
  obtain ⟨c, symbol', rfl, hspace, -⟩ := operator_head h
  have hskip : skipSpaces (c :: symbol' ++ rest) = c :: symbol' ++ rest :=
    skipSpaces_cons hspace _
  simp only [parseOp, List.append_assoc, skipSpaces_blank hblank, hskip, find?_operator h hrest,
    List.drop_left]

theorem parseToken_bare {blank token : Text} {c : Byte} (hblank : IsBlank blank)
    (hdouble : c ≠ kDoubleQuote) (hsingle : c ≠ kSingleQuote)
    (hspace : ∀ d ∈ c :: token, isSpace d = false) (hrest : ∀ d ∈ rest.head?, isSpace d = true) :
    parseToken expression (blank ++ (c :: token) ++ rest) = .ok (c :: token, false, rest) := by
  have hskip : skipSpaces (blank ++ ((c :: token) ++ rest)) = c :: (token ++ rest) := by
    rw [skipSpaces_blank hblank]
    exact skipSpaces_cons (hspace c List.mem_cons_self) _
  have htoken : ∀ d ∈ c :: token, (!isSpace d) = true := fun d hd => by simp [hspace d hd]
  have hstop : ∀ d ∈ rest.head?, (!isSpace d) = false := fun d hd => by simp [hrest d hd]
  have htake := takeWhile_append_stop htoken hstop
  have hdrop := dropWhile_append_stop htoken hstop
  rw [List.cons_append] at htake hdrop
  rw [List.append_assoc]
  simp only [parseToken, hskip, if_neg (not_or.mpr ⟨hdouble, hsingle⟩), htake, hdrop,
    if_neg (List.cons_ne_nil c token)]

/-- What follows the quote that begins a value is scanned up to the next one. -/
theorem parseToken_quote {blank text : Text} {quote : Byte} (hblank : IsBlank blank)
    (hquote : quote = kDoubleQuote ∨ quote = kSingleQuote) :
    parseToken expression (blank ++ quote :: text) =
      match scanQuoted kBackslash quote text with
      | (_, []) => .error (parseError expression [] "unterminated quoted value")
      | (token, _ :: rest) => .ok (token, true, rest) := by
  have hspace : isSpace quote = false := by
    rcases hquote with rfl | rfl <;> decide
  rw [parseToken, skipSpaces_blank hblank, skipSpaces_cons hspace]
  exact if_pos hquote

end Parts

section Written
variable (strtod : Text → Option (BitVec 64)) {expression rest : Text}

theorem fromChars_eq_some_iff {token : Text} {bits : BitVec 64} :
    fromChars token = some bits ↔ ∃ n, IsInteger token n ∧ bits = BitVec.ofInt 64 n := by
  unfold fromChars IsInteger
  cases hread : readDecimal token with
  | none => simp
  | some n =>
    by_cases hfits : -9223372036854775808 ≤ n ∧ n < 9223372036854775808
    · simp [hfits, eq_comm]
    · simp only [if_neg hfits, Option.some.injEq, reduceCtorEq, false_iff]
      rintro ⟨_, ⟨rfl, hlow, hhigh⟩, -⟩
      exact hfits ⟨hlow, hhigh⟩

theorem fromChars_eq_none {token : Text} (h : ∀ n, ¬ IsInteger token n) :
    fromChars token = none := by
  cases hchars : fromChars token with
  | none => rfl
  | some bits =>
    obtain ⟨n, hn, -⟩ := fromChars_eq_some_iff.mp hchars
    exact absurd hn (h n)

theorem bareTyped_parseValue (token : Text) :
    BareTyped strtod token (parseValue strtod token false) := by
  cases hchars : fromChars token with
  | some bits =>
    obtain ⟨n, hn, rfl⟩ := fromChars_eq_some_iff.mp hchars
    simpa [parseValue, hchars] using BareTyped.integer hn
  | none =>
    have hnot : ∀ n, ¬ IsInteger token n := fun n hn => by
      rw [fromChars_eq_some_iff.mpr ⟨n, hn, rfl⟩] at hchars
      cases hchars
    cases hreal : strtod token with
    | some bits => simpa [parseValue, hchars, hreal] using BareTyped.real hnot hreal
    | none => simpa [parseValue, hchars, hreal] using BareTyped.text hnot hreal

theorem parseValue_bareTyped {token : Text} {value : MetadataValue}
    (h : BareTyped strtod token value) : parseValue strtod token false = value := by
  cases h with
  | integer hn => simp [parseValue, fromChars_eq_some_iff.mpr ⟨_, hn, rfl⟩]
  | real hnot hreal => simp [parseValue, fromChars_eq_none hnot, hreal]
  | text hnot hreal => simp [parseValue, fromChars_eq_none hnot, hreal]

/-- The value of a token, as it follows its operator. -/
theorem parseToken_written {blank written : Text} {value : MetadataValue} (hblank : IsBlank blank)
    (h : ValueWritten strtod value written) (hrest : ∀ d ∈ rest.head?, isSpace d = true) :
    ∃ token quoted, parseToken expression (blank ++ written ++ rest) = .ok (token, quoted, rest) ∧
      parseValue strtod token quoted = value := by
  cases h with
  | @quoted quote text written hquote hescapes =>
    have hne : kBackslash ≠ quote := by
      rcases hquote with rfl | rfl <;> decide
    refine ⟨text, true, ?_, rfl⟩
    have htext : blank ++ (quote :: written ++ [quote]) ++ rest =
        blank ++ quote :: (written ++ quote :: rest) := by simp
    rw [htext, parseToken_quote hblank hquote, hescapes.scan hne]
  | @bare c token value hdouble hsingle hspace htyped =>
    exact ⟨_, false, parseToken_bare hblank hdouble hsingle hspace hrest,
      parseValue_bareTyped strtod htyped⟩

theorem ValueWritten.ne_nil {value : MetadataValue} {written : Text}
    (h : ValueWritten strtod value written) : written ≠ [] := by
  cases h <;> simp

theorem parseCondition_written {c : FilterCondition} {text : Text}
    (h : ConditionWritten strtod c text) (hrest : ∀ d ∈ rest.head?, isSpace d = true) :
    parseCondition strtod expression (text ++ rest) = .ok (c, rest) := by
  obtain ⟨hkey, hop, hbefore, hafter, hvalue, hequals⟩ := h
  next before symbol after value =>
  obtain ⟨token, quoted, htoken, hparsed⟩ : ∃ token quoted,
      parseToken expression (after ++ value ++ rest) = .ok (token, quoted, rest) ∧
        parseValue strtod token quoted = c.value := parseToken_written strtod hafter hvalue hrest
  have hhead : ∀ b ∈ (before ++ symbol ++ (after ++ value ++ rest)).head?,
      isKeyChar b = false := by
    obtain ⟨d, symbol', rfl, -, hd⟩ := operator_head hop
    cases before with
    | nil => simpa using hd
    | cons b before => simpa using not_isKeyChar_of_isSpace b (hbefore b List.mem_cons_self)
  have hnext : (after ++ value ++ rest).head? ≠ some 61 := by
    cases after with
    | nil =>
      cases value with
      | nil => exact absurd rfl (hvalue.ne_nil strtod)
      | cons d value => exact fun hd => hequals hd rfl
    | cons d after =>
      intro hd
      have hspace := hafter d List.mem_cons_self
      cases hd
      revert hspace
      decide
  have htext : c.key ++ before ++ symbol ++ after ++ value ++ rest =
      c.key ++ (before ++ symbol ++ (after ++ value ++ rest)) := by simp
  simp only [parseCondition, htext, parseKey_append hkey.1 hkey.2 hhead, bind, Except.bind,
    parseOp_append hbefore hop hnext, htoken, hparsed]

end Written

section Loop
variable (strtod : Text → Option (BitVec 64))

/-- One turn of the loop. -/
theorem parseConditions_eq (expression rest : Text) :
    parseConditions strtod expression rest = (do
      let (c, left) ← parseCondition strtod expression rest
      if skipSpaces left = [] then .ok [c]
      else if ((skipSpaces left).takeWhile isAlpha).map toLower = [97, 110, 100] then do
        let filter ← parseConditions strtod expression ((skipSpaces left).dropWhile isAlpha)
        .ok (c :: filter)
      else
        .error (parseError expression (skipSpaces left)
          "expected 'and' or the end of the filter (there is no 'or' — see docs/metadata.md)")) := by
  rw [parseConditions]
  split
  next h => simp [h, bind, Except.bind]
  next h => simp [h, bind, Except.bind]

/-- A condition is parsed from its key on. -/
theorem parseConditions_skipSpaces (expression rest : Text) :
    parseConditions strtod expression (skipSpaces rest) =
      parseConditions strtod expression rest := by
  have htwice : skipSpaces (skipSpaces rest) = skipSpaces rest :=
    List.dropWhile_idempotent isSpace rest
  have hkey : parseKey expression (skipSpaces rest) = parseKey expression rest := by
    simp only [parseKey, htwice]
  rw [parseConditions_eq, parseConditions_eq, parseCondition, parseCondition, hkey]

/-- After a condition the filter ends, or goes on behind an "and". -/
theorem parseConditions_last {expression rest left : Text} {c : FilterCondition}
    (h : parseCondition strtod expression rest = .ok (c, left)) (hleft : IsBlank left) :
    parseConditions strtod expression rest = .ok [c] := by
  rw [parseConditions_eq, h]
  simp only [bind, Except.bind, skipSpaces_all hleft, if_true]

theorem parseConditions_and {expression rest before keyword after left : Text}
    {c : FilterCondition}
    (h : parseCondition strtod expression rest = .ok (c, before ++ keyword ++ after ++ left))
    (hbefore : IsBlank before) (hkeyword : keyword.map toLower = [97, 110, 100])
    (hafter : IsBlank after) (hne : after ≠ []) :
    parseConditions strtod expression rest = (do
      let filter ← parseConditions strtod expression left
      .ok (c :: filter)) := by
  have hletters : ∀ b ∈ keyword, isAlpha b = true ∧ isSpace b = false := by
    intro b hb
    have hlower : toLower b ∈ keyword.map toLower := List.mem_map_of_mem hb
    rw [hkeyword] at hlower
    exact isAlpha_of_toLower b (by simpa using hlower)
  obtain ⟨d, after', rfl⟩ := List.exists_cons_of_ne_nil hne
  have hstop : ∀ b ∈ ((d :: after') ++ left).head?, isAlpha b = false := by
    rintro b hb
    cases hb
    exact not_isAlpha_of_isSpace d (hafter d List.mem_cons_self)
  have hskip : skipSpaces (before ++ keyword ++ (d :: after') ++ left) =
      keyword ++ ((d :: after') ++ left) := by
    rw [List.append_assoc, List.append_assoc, skipSpaces_blank hbefore]
    cases keyword with
    | nil => cases hkeyword
    | cons b keyword => exact skipSpaces_cons (hletters b List.mem_cons_self).2 _
  have hsome : keyword ++ ((d :: after') ++ left) ≠ [] := by simp
  have htake := takeWhile_append_stop (fun b hb => (hletters b hb).1) hstop
  have hdrop := dropWhile_append_stop (fun b hb => (hletters b hb).1) hstop
  have hleft : parseConditions strtod expression ((d :: after') ++ left) =
      parseConditions strtod expression left := by
    rw [← parseConditions_skipSpaces, skipSpaces_blank hafter, parseConditions_skipSpaces]
  rw [parseConditions_eq, h]
  simp only [bind, Except.bind, hskip, if_neg hsome, htake, hkeyword, if_true, hdrop, hleft]

theorem parseConditions_written (expression : Text) {filter : Filter} {text : Text}
    (h : FilterWritten strtod filter text) :
    parseConditions strtod expression text = .ok filter := by
  induction h with
  | last hcondition htrailing =>
    refine parseConditions_last strtod (parseCondition_written strtod hcondition fun d hd => ?_)
      htrailing
    exact htrailing d (List.mem_of_mem_head? hd)
  | @cons c filter text before keyword after rest hcondition hbefore hne hkeyword hafter hne' _ ih =>
    have hcondition : parseCondition strtod expression
        (text ++ (before ++ keyword ++ after ++ rest)) =
          .ok (c, before ++ keyword ++ after ++ rest) := by
      refine parseCondition_written strtod hcondition fun d hd => ?_
      obtain ⟨b, before', rfl⟩ := List.exists_cons_of_ne_nil hne
      cases hd
      exact hbefore _ List.mem_cons_self
    have htext : text ++ before ++ keyword ++ after ++ rest =
        text ++ (before ++ keyword ++ after ++ rest) := by simp
    rw [htext, parseConditions_and strtod hcondition hbefore hkeyword hafter hne', ih]
    rfl

end Loop

section Rejected
variable (strtod : Text → Option (BitVec 64))

/-- What is not read is an invalid argument. -/
def Rejects {α : Type} (x : Except Error α) : Prop :=
  ∀ e, x = .error e → ∃ what, e = .invalidArgument what

theorem Rejects.ok {α : Type} (a : α) : Rejects (.ok a) := fun _ h => nomatch h

theorem Rejects.parseError {α : Type} (expression rest : Text) (what : String) :
    Rejects (.error (parseError expression rest what) : Except Error α) := by
  intro e he
  cases he
  exact ⟨_, rfl⟩

theorem Rejects.bind {α β : Type} {x : Except Error α} {f : α → Except Error β} (hx : Rejects x)
    (hf : ∀ a, x = .ok a → Rejects (f a)) : Rejects (x >>= f) := by
  intro e he
  rcases Except.bind_eq_error.mp he with he | ⟨a, ha, he⟩
  · exact hx e he
  · exact hf a ha e he

theorem parseCondition_rejects (expression rest : Text) :
    Rejects (parseCondition strtod expression rest) := by
  refine Rejects.bind ?_ fun key _ => Rejects.bind ?_ fun op _ => Rejects.bind ?_ fun _ _ => .ok _
  · unfold parseKey
    dsimp only
    split
    · exact Rejects.parseError expression _ _
    · exact .ok _
  · unfold parseOp
    dsimp only
    split
    · exact .ok _
    · exact Rejects.parseError expression _ _
  · unfold parseToken
    split
    · exact Rejects.parseError expression _ _
    · split
      · split
        · exact Rejects.parseError expression _ _
        · exact .ok _
      · dsimp only
        split
        · exact Rejects.parseError expression _ _
        · exact .ok _

theorem parseConditions_rejects (expression rest : Text) :
    Rejects (parseConditions strtod expression rest) := by
  induction hlength : rest.length using Nat.strong_induction_on generalizing rest with
  | _ n ih =>
    subst hlength
    rw [parseConditions_eq]
    refine (parseCondition_rejects strtod expression rest).bind fun parsed hparsed => ?_
    have hlt := length_parseCondition strtod hparsed
    have hskip := length_skipSpaces_le parsed.2
    have hdrop := (List.dropWhile_sublist (l := skipSpaces parsed.2) isAlpha).length_le
    dsimp only
    split
    · exact .ok _
    · split
      · exact (ih _ (by omega) _ rfl).bind fun _ _ => .ok _
      · exact Rejects.parseError expression _ _

end Rejected

theorem Filter.parse_of_written (strtod : Text → Option (BitVec 64)) {filter : Filter}
    {leading text : Text} (hleading : IsBlank leading) (h : FilterWritten strtod filter text) :
    Filter.parse strtod (leading ++ text) = .ok filter := by
  have hparsed := parseConditions_written strtod (leading ++ text) h
  rw [← parseConditions_skipSpaces, ← skipSpaces_blank hleading] at hparsed
  rw [Filter.parse, if_neg, hparsed]
  intro hempty
  rw [hempty, parseConditions_eq] at hparsed
  cases hparsed

/-- Whatever is written by the grammar is parsed as what it stands for, and every other text as
some filter or as an invalid argument. -/
theorem Filter.parse_written (strtod : Text → Option (BitVec 64)) :
    (∀ filter leading text, IsBlank leading → FilterWritten strtod filter text →
      Filter.parse strtod (leading ++ text) = .ok filter) ∧
    ∀ expression, (∃ filter, Filter.parse strtod expression = .ok filter) ∨
      ∃ what, Filter.parse strtod expression = .error (.invalidArgument what) := by
  refine ⟨fun filter leading text hleading h => Filter.parse_of_written strtod hleading h,
    fun expression => ?_⟩
  have hrejects : Rejects (Filter.parse strtod expression) := by
    unfold Filter.parse
    split
    · exact .ok _
    · exact parseConditions_rejects strtod expression _
  cases hresult : Filter.parse strtod expression with
  | ok filter => exact .inl ⟨filter, rfl⟩
  | error e =>
    obtain ⟨what, rfl⟩ := hrejects e hresult
    exact .inr ⟨what, rfl⟩

/-- ` a>='x\'y' AnD b = 12`, where no text is a real number. -/
theorem Filter.parse_written_two : Filter.parse (fun _ => none)
    [32, 97, 62, 61, 39, 120, 92, 39, 121, 39, 32, 65, 110, 68, 9, 98, 32, 61, 32, 49, 50] =
      .ok [⟨[97], .greaterEqual, .text [120, 39, 121]⟩, ⟨[98], .equal, .integer 12⟩] := by
  have hfirst : ConditionWritten (fun _ => none)
      ⟨[97], .greaterEqual, .text [120, 39, 121]⟩ [97, 62, 61, 39, 120, 92, 39, 121, 39] :=
    @ConditionWritten.mk _ _ [] [62, 61] [] [39, 120, 92, 39, 121, 39]
      ⟨by simp, by simp [isKeyChar, isAlpha]⟩ (by decide) (by simp [IsBlank]) (by simp [IsBlank])
      (.quoted (.inr rfl) (.plain (by decide) (by decide) (.escaped
        (.plain (by decide) (by decide) .nil)))) (by decide)
  have hsecond : ConditionWritten (fun _ => none) ⟨[98], .equal, .integer 12⟩
      [98, 32, 61, 32, 49, 50] :=
    @ConditionWritten.mk _ _ [32] [61] [32] [49, 50]
      ⟨by simp, by simp [isKeyChar, isAlpha]⟩ (by decide) (by simp [IsBlank, isSpace]) (by simp [IsBlank, isSpace])
      (.bare (by decide) (by decide) (by simp [isSpace])
        (.integer (n := 12) ⟨by decide +kernel, by decide⟩))
      (by decide)
  have hwritten := @FilterWritten.cons _ _ _ _ [32] [65, 110, 68] [9] _ hfirst
    (by simp [IsBlank, isSpace]) (by simp) (by decide) (by simp [IsBlank, isSpace]) (by simp)
    (@FilterWritten.last _ _ _ [] hsecond (by simp [IsBlank]))
  exact (Filter.parse_written fun _ => none).1 _ [32] _ (by simp [IsBlank, isSpace]) hwritten


end VectorDb.Storage
