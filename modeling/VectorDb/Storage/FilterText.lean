import VectorDb.Storage.Filter
import VectorDb.Lib.Decimal
import VectorDb.Lib.Quoted

/-!
The text of filters: `Filter::to_string` and `Filter::parse` of src/storage/filter.cpp.
-/
set_option autoImplicit false

namespace VectorDb.Storage

open VectorDb.Lib

/-- `std::isspace` of the "C" locale, as the next ones. -/
def isSpace (c : Byte) : Bool := c == 32 || (9 ≤ c && c ≤ 13)

def isAlpha (c : Byte) : Bool := (65 ≤ c && c ≤ 90) || (97 ≤ c && c ≤ 122)

def toLower (c : Byte) : Byte := if 65 ≤ c && c ≤ 90 then c + 32 else c

def isKeyChar (c : Byte) : Bool := isAlpha c || isDigit c || c == 95 || c == 46 || c == 45

def kBackslash : Byte := 92

def kDoubleQuote : Byte := 34

def kSingleQuote : Byte := 39

/-- `filter_op_symbol`. -/
def FilterOp.symbol : FilterOp → Text
  | .equal => [61, 61]
  | .notEqual => [33, 61]
  | .less => [60]
  | .lessEqual => [60, 61]
  | .greater => [62]
  | .greaterEqual => [62, 61]

section Render
variable (showReal : BitVec 64 → Text)

/-- `to_display_string`; `showReal` is `operator<<` of a double. -/
def toDisplayString : MetadataValue → Text
  | .integer n => decimal n.toInt
  | .real bits => showReal bits
  | .text s => s
  | .null => [110, 117, 108, 108]

def FilterCondition.toText (c : FilterCondition) : Text :=
  c.key ++ 32 :: c.op.symbol ++ 32 ::
    match c.value with
    | .text s => kDoubleQuote :: s ++ [kDoubleQuote]
    | value => toDisplayString showReal value

/-- `Filter::to_string`: the conditions joined by " and ". -/
def Filter.toText : Filter → Text
  | [] => []
  | [c] => c.toText showReal
  | c :: d :: filter =>
    c.toText showReal ++ 32 :: 97 :: 110 :: 100 :: 32 :: Filter.toText (d :: filter)

end Render

section Parse

/-- `from_chars` where it takes the whole token: the integer, if it fits. -/
def fromChars (token : Text) : Option (BitVec 64) :=
  match readDecimal token with
  | none => none
  | some n =>
    if -9223372036854775808 ≤ n ∧ n < 9223372036854775808 then some (BitVec.ofInt 64 n) else none

variable (strtod : Text → Option (BitVec 64))

/-- `parse_value`; `strtod` gives the double of a token it takes whole. -/
def parseValue (token : Text) (wasQuoted : Bool) : MetadataValue :=
  if wasQuoted then .text token
  else
    match fromChars token with
    | some n => .integer n
    | none =>
      match strtod token with
      | some bits => .real bits
      | none => .text token

def skipSpaces (rest : Text) : Text := rest.dropWhile isSpace

/-- The error at the position where `rest` begins. -/
def parseError (expression rest : Text) (what : String) : Error :=
  let pos := expression.length - rest.length
  .invalidArgument ("cannot parse filter at position " ++ toString pos ++ ": " ++ what ++ "\n  " ++
    asText expression ++ "\n  " ++ String.ofList (List.replicate pos ' ') ++ "^")

def parseKey (expression rest : Text) : Except Error (Text × Text) :=
  let rest := skipSpaces rest
  let key := rest.takeWhile isKeyChar
  if key = [] then .error (parseError expression rest "expected a metadata key")
  else .ok (key, rest.dropWhile isKeyChar)

/-- The operators in the order in which they are tried; a lone `=` is taken for `==`. -/
def kOperators : List (Text × FilterOp) :=
  [([61, 61], .equal), ([33, 61], .notEqual), ([62, 61], .greaterEqual), ([60, 61], .lessEqual),
    ([62], .greater), ([60], .less), ([61], .equal)]

def parseOp (expression rest : Text) : Except Error (FilterOp × Text) :=
  let rest := skipSpaces rest
  match kOperators.find? fun entry => entry.1.isPrefixOf rest with
  | some entry => .ok (entry.2, rest.drop entry.1.length)
  | none => .error (parseError expression rest "expected one of ==, !=, <, <=, >, >=")

/-- The token, whether it was quoted, and what is left. -/
def parseToken (expression rest : Text) : Except Error (Text × Bool × Text) :=
  match skipSpaces rest with
  | [] => .error (parseError expression [] "expected a value after the operator")
  | c :: rest =>
    if c = kDoubleQuote ∨ c = kSingleQuote then
      match scanQuoted kBackslash c rest with
      | (_, []) => .error (parseError expression [] "unterminated quoted value")
      | (token, _ :: rest) => .ok (token, true, rest)
    else
      let token := (c :: rest).takeWhile fun d => !isSpace d
      if token = [] then
        .error (parseError expression (c :: rest) "expected a value after the operator")
      else .ok (token, false, (c :: rest).dropWhile fun d => !isSpace d)

def parseCondition (expression rest : Text) : Except Error (FilterCondition × Text) := do
  let (key, rest) ← parseKey expression rest
  let (op, rest) ← parseOp expression rest
  let (token, quoted, rest) ← parseToken expression rest
  .ok (⟨key, op, parseValue strtod token quoted⟩, rest)

theorem length_skipSpaces_le (rest : Text) : (skipSpaces rest).length ≤ rest.length :=
  (List.dropWhile_sublist _).length_le

theorem length_parseKey {expression rest key left : Text}
    (h : parseKey expression rest = .ok (key, left)) : left.length < rest.length := by
  simp only [parseKey] at h
  split at h
  · cases h
  next hkey =>
    obtain ⟨rfl, rfl⟩ := Prod.ext_iff.mp (Except.ok.inj h)
    have hsplit := congrArg List.length
      (List.takeWhile_append_dropWhile (p := isKeyChar) (l := skipSpaces rest))
    have hpos := List.length_pos_iff.mpr hkey
    have hle := length_skipSpaces_le rest
    rw [List.length_append] at hsplit
    dsimp only
    omega

theorem length_parseOp {expression rest left : Text} {op : FilterOp}
    (h : parseOp expression rest = .ok (op, left)) : left.length ≤ rest.length := by
  simp only [parseOp] at h
  split at h
  · obtain ⟨_, rfl⟩ := Prod.ext_iff.mp (Except.ok.inj h)
    have hle := length_skipSpaces_le rest
    simp only [List.length_drop]
    omega
  · cases h

theorem length_parseToken {expression rest token left : Text} {quoted : Bool}
    (h : parseToken expression rest = .ok (token, quoted, left)) : left.length ≤ rest.length := by
  have hle := length_skipSpaces_le rest
  simp only [parseToken] at h
  split at h
  · cases h
  next c text hskip =>
    rw [hskip, List.length_cons] at hle
    split at h
    · have hscan := length_scanQuoted_le kBackslash c text
      split at h
      · cases h
      next hleft =>
        cases h
        rw [hleft, List.length_cons] at hscan
        omega
    · split at h
      · cases h
      · cases h
        have hdrop := (List.dropWhile_sublist (l := c :: text) fun d => !isSpace d).length_le
        rw [List.length_cons] at hdrop
        omega

theorem length_parseCondition {expression rest left : Text} {c : FilterCondition}
    (h : parseCondition strtod expression rest = .ok (c, left)) : left.length < rest.length := by
  simp only [parseCondition, bind, Except.bind] at h
  split at h
  · cases h
  next hkey =>
    split at h
    · cases h
    next hop =>
      split at h
      · cases h
      next htoken =>
        cases h
        have hkey := length_parseKey hkey
        have hop := length_parseOp hop
        have htoken := length_parseToken htoken
        omega

/-- `while (true)`: one condition, and the next after an "and". -/
def parseConditions (expression rest : Text) : Except Error Filter :=
  match _hcondition : parseCondition strtod expression rest with
  | .error e => .error e
  | .ok (c, left) =>
    let rest := skipSpaces left
    if rest = [] then .ok [c]
    else if (rest.takeWhile isAlpha).map toLower = [97, 110, 100] then do
      let filter ← parseConditions expression (rest.dropWhile isAlpha)
      .ok (c :: filter)
    else
      .error (parseError expression rest
        "expected 'and' or the end of the filter (there is no 'or' — see docs/metadata.md)")
termination_by rest.length
decreasing_by
  have hlt := length_parseCondition strtod _hcondition
  have hskip := length_skipSpaces_le left
  have hdrop := (List.dropWhile_sublist (l := skipSpaces left) isAlpha).length_le
  omega

/-- `Filter::parse`. -/
def Filter.parse (expression : Text) : Except Error Filter :=
  if skipSpaces expression = [] then .ok []
  else parseConditions strtod expression (skipSpaces expression)

end Parse

end VectorDb.Storage
