import VectorDb.Lib.Quoted

/-!
JSON strings as bytes: their escapes undone, and objects of strings and other scalars.
-/
set_option autoImplicit false

namespace VectorDb.Lib

def hexValue (c : Fin 256) : Option Nat :=
  if 48 ≤ c.val ∧ c.val ≤ 57 then some (c.val - 48)
  else if 97 ≤ c.val ∧ c.val ≤ 102 then some (c.val - 87)
  else if 65 ≤ c.val ∧ c.val ≤ 70 then some (c.val - 55)
  else none

/-- A digit as `%x` writes it. -/
def hexDigit (d : Nat) : Fin 256 := Fin.ofNat 256 (if d < 10 then 48 + d else 87 + d)

/-- The code unit of four digits. -/
def hexUnit (a b c d : Fin 256) : Option Nat := do
  return ((← hexValue a) * 16 + (← hexValue b)) * 256 + (← hexValue c) * 16 + (← hexValue d)

/-- The encoding of a code point. -/
def utf8 (code : Nat) : List (Fin 256) :=
  if code < 128 then [Fin.ofNat 256 code]
  else if code < 2048 then [Fin.ofNat 256 (192 + code / 64), Fin.ofNat 256 (128 + code % 64)]
  else if code < 65536 then
    [Fin.ofNat 256 (224 + code / 4096), Fin.ofNat 256 (128 + code / 64 % 64),
      Fin.ofNat 256 (128 + code % 64)]
  else
    [Fin.ofNat 256 (240 + code / 262144), Fin.ofNat 256 (128 + code / 4096 % 64),
      Fin.ofNat 256 (128 + code / 64 % 64), Fin.ofNat 256 (128 + code % 64)]

/-- What one character after a backslash stands for. -/
def simpleEscape (c : Fin 256) : Option (Fin 256) :=
  if c = 34 ∨ c = 92 ∨ c = 47 then some c
  else if c = 98 then some 8
  else if c = 102 then some 12
  else if c = 110 then some 10
  else if c = 114 then some 13
  else if c = 116 then some 9
  else none

/-- The string up to its closing quote, and what follows it. -/
def readJsonText : List (Fin 256) → Option (List (Fin 256) × List (Fin 256))
  | [] => none
  | c :: rest =>
    if c = 34 then some ([], rest)
    else if c = 92 then
      match rest with
      | [] => none
      | e :: rest =>
        if e = 117 then
          match rest with
          | a :: b :: c :: d :: rest => do
            let unit ← hexUnit a b c d
            if 55296 ≤ unit ∧ unit < 56320 then
              match rest with
              | s :: u :: a :: b :: c :: d :: rest => do
                let low ← hexUnit a b c d
                if s = 92 ∧ u = 117 ∧ 56320 ≤ low ∧ low < 57344 then
                  let (text, rest) ← readJsonText rest
                  return (utf8 (65536 + (unit - 55296) * 1024 + (low - 56320)) ++ text, rest)
                else none
              | _ => none
            else if 56320 ≤ unit ∧ unit < 57344 then none
            else
              let (text, rest) ← readJsonText rest
              return (utf8 unit ++ text, rest)
          | _ => none
        else do
          let c ← simpleEscape e
          let (text, rest) ← readJsonText rest
          return (c :: text, rest)
    else if c.val < 32 then none
    else do
      let (text, rest) ← readJsonText rest
      return (c :: text, rest)

/-- A literal with its quotes. -/
def readJsonString : List (Fin 256) → Option (List (Fin 256) × List (Fin 256))
  | [] => none
  | c :: rest => if c = 34 then readJsonText rest else none

section Text
variable {text rest : List (Fin 256)} {c : Fin 256}

theorem readJsonText_plain (hquote : c ≠ 34) (hescape : c ≠ 92) (hcontrol : 32 ≤ c.val) :
    readJsonText (c :: rest) = (readJsonText rest).map fun r => (c :: r.1, r.2) := by
  rw [readJsonText.eq_def]
  simp only [hquote, hescape, if_false, Nat.not_lt.mpr hcontrol]
  cases readJsonText rest <;> rfl

theorem readJsonText_simple {e : Fin 256} (he : simpleEscape e = some c) :
    readJsonText (92 :: e :: rest) = (readJsonText rest).map fun r => (c :: r.1, r.2) := by
  have hu : e ≠ 117 := by
    rintro rfl
    cases he
  rw [readJsonText.eq_def]
  simp only [show (92 : Fin 256) ≠ 34 by decide, if_false, if_true, hu, he]
  cases readJsonText rest <;> rfl

/-- The escape `\\u00XX` of a byte that stands for itself. -/
theorem readJsonText_unit (hc : c.val < 128) :
    readJsonText (92 :: 117 :: hexDigit 0 :: hexDigit 0 :: hexDigit (c.val / 16) ::
      hexDigit (c.val % 16) :: rest) = (readJsonText rest).map fun r => (c :: r.1, r.2) := by
  have hdigit : ∀ d, d < 16 → hexValue (hexDigit d) = some d := by decide
  have hunit : hexUnit (hexDigit 0) (hexDigit 0) (hexDigit (c.val / 16)) (hexDigit (c.val % 16)) =
      some c.val := by
    rw [hexUnit, hdigit 0 (by decide), hdigit (c.val / 16) (by omega), hdigit _ (by omega)]
    simp only [Option.bind_eq_bind, Option.bind_some, pure]
    congr 1
    omega
  have hcode : utf8 c.val = [c] := by
    rw [utf8, if_pos hc, Fin.ofNat_val_eq_self]
  rw [readJsonText.eq_def]
  simp only [show (92 : Fin 256) ≠ 34 by decide, if_false, if_true, hunit]
  simp only [Option.bind_eq_bind, Option.bind_some, show ¬ (55296 ≤ c.val ∧ c.val < 56320) by omega,
    show ¬ (56320 ≤ c.val ∧ c.val < 57344) by omega, if_false, hcode]
  cases readJsonText rest <;> rfl

end Text

inductive JsonScalar where
  | text (s : List (Fin 256)) : JsonScalar
  | token (t : List (Fin 256)) : JsonScalar
  deriving DecidableEq, Repr

/-- A string, or what stands up to the next comma or closing brace. -/
def readScalar (input : List (Fin 256)) : Option (JsonScalar × List (Fin 256)) :=
  if input.head? = some 34 then do
    let (s, rest) ← readJsonString input
    return (.text s, rest)
  else
    let token := input.takeWhile fun c => c ≠ 44 ∧ c ≠ 125
    if token = [] then none else some (.token token, input.drop token.length)

def readMember (input : List (Fin 256)) :
    Option ((List (Fin 256) × JsonScalar) × List (Fin 256)) := do
  let (key, rest) ← readJsonString input
  if rest.head? = some 58 then
    let (value, rest) ← readScalar rest.tail
    return ((key, value), rest)
  else none

/-- Members up to the closing brace, which ends the text. -/
def readMembers : Nat → List (Fin 256) → Option (List (List (Fin 256) × JsonScalar))
  | 0, _ => none
  | fuel + 1, input => do
    let (member, rest) ← readMember input
    if rest = [125] then return [member]
    else if rest.head? = some 44 then return member :: (← readMembers fuel rest.tail)
    else none

/-- An object of scalars, without white space. -/
def readObject (input : List (Fin 256)) : Option (List (List (Fin 256) × JsonScalar)) :=
  if input = [123, 125] then some []
  else if input.head? = some 123 then readMembers input.length input.tail
  else none

section Objects
variable {input rest : List (Fin 256)}

/-- Text that is neither a string nor runs into the next member. -/
def IsToken (t : List (Fin 256)) : Prop := t ≠ [] ∧ ∀ c ∈ t, c ≠ 34 ∧ c ≠ 44 ∧ c ≠ 125

theorem readScalar_token {t : List (Fin 256)} (ht : IsToken t) {e : Fin 256}
    (he : e = 44 ∨ e = 125) : readScalar (t ++ e :: rest) = some (.token t, e :: rest) := by
  obtain ⟨hne, hplain⟩ := ht
  have htake : (t ++ e :: rest).takeWhile (fun c => c ≠ 44 ∧ c ≠ 125) = t := by
    rw [List.takeWhile_append_of_pos (by simpa using fun c hc => (hplain c hc).2)]
    rcases he with rfl | rfl <;> simp
  have hhead : (t ++ e :: rest).head? ≠ some 34 := by
    cases t with
    | nil => exact absurd rfl hne
    | cons c t => simpa using (hplain c List.mem_cons_self).1
  rw [readScalar, if_neg hhead]
  simp only [htake, hne, if_false, List.drop_left]

end Objects

end VectorDb.Lib
