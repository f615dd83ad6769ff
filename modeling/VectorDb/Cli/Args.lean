import VectorDb.Core.Error
import VectorDb.Lib.Decimal
import VectorDb.Lib.Throwing
import VectorDb.Storage.Metadata

/-!
src/cli/args.cpp: what a command line is read as, and which options of it nobody has asked for.
-/
set_option autoImplicit false

namespace VectorDb.Cli

open VectorDb.Lib VectorDb.Storage Throwing

/-- The bytes of ASCII characters. -/
def ascii (s : String) : Text := s.toList.map fun c => Fin.ofNat 256 c.toNat

def kDash : Byte := 45

def kDot : Byte := 46

def kEquals : Byte := 61

def isRepeatable (name : Text) : Bool := name == ascii "meta"

def expandShort (name : Text) : Text :=
  if name = ascii "k" then ascii "k"
  else if name = ascii "d" then ascii "dimension"
  else if name = ascii "m" then ascii "metric"
  else if name = ascii "v" then ascii "verbose"
  else if name = ascii "q" then ascii "query"
  else if name = ascii "o" then ascii "output"
  else if name = ascii "i" then ascii "input"
  else name

structure Args where
  options : Std.ExtTreeMap Text Text compare
  repeated : Std.ExtTreeMap Text (List (Text × Text)) compare
  positionals : List Text
  touched : List Text

def Args.empty : Args := ⟨∅, ∅, [], []⟩

/-- The token is taken for a positional argument, as a lone `-` is. -/
def isPositional (token : Text) : Bool := token.length < 2 || token.head? != some kDash

/-- The text up to the first `=`, and what comes after it. -/
def splitEquals (text : Text) : Option (Text × Text) :=
  match text.dropWhile (· ≠ kEquals) with
  | [] => none
  | _ :: value => some (text.takeWhile (· ≠ kEquals), value)

/-- The option that a token names, and the value it has in the token itself. -/
def optionOf (token : Text) : Text × Option Text :=
  let longForm := 2 < token.length ∧ (token.drop 1).head? = some kDash
  let body := if longForm then token.drop 2 else token.drop 1
  let split := match splitEquals body with
    | some (name, value) => (name, some value)
    | none => (body, none)
  (if longForm then split.1 else expandShort split.1, split.2)

/-- The token after an option is its value; a negative number is, another option is not. -/
def looksLikeValue : Text → Bool
  | [] => false
  | [_] => true
  | c :: d :: _ => c != kDash || isDigit d || d == kDot

def Args.put (args : Args) (name value : Text) : Except Error Args :=
  if isRepeatable name then
    match splitEquals value with
    | none => .error (.invalidArgument ("--" ++ asText name ++ " expects key=value, got '" ++
        asText value ++ "'"))
    | some entry =>
      .ok { args with repeated := args.repeated.insert name (args.repeated.getD name [] ++ [entry]) }
  else .ok { args with options := args.options.insert name value }

def Args.parseFrom (args : Args) : List Text → Except Error Args
  | [] => .ok args
  | token :: rest =>
    if isPositional token then
      parseFrom { args with positionals := args.positionals ++ [token] } rest
    else
      let (name, inlineValue) := optionOf token
      if name = [] then .error (.invalidArgument ("malformed option '" ++ asText token ++ "'"))
      else
        match inlineValue, rest with
        | some value, rest => do parseFrom (← args.put name value) rest
        | none, [] => do parseFrom (← args.put name []) []
        | none, next :: rest =>
          if looksLikeValue next then do parseFrom (← args.put name next) rest
          else do parseFrom (← args.put name []) (next :: rest)

/-- `Args::parse`. -/
def Args.parse (argv : List Text) : Except Error Args := Args.parseFrom .empty argv

section Reading

/-- What a command reads of its arguments, which remember what was asked for. -/
abbrev Reading (α : Type) := Throwing Error Args α

def touch (name : Text) : Reading Unit :=
  modify fun args => { args with touched := args.touched ++ [name] }

def positional (index : Nat) : Reading (Option Text) := do return (← get).positionals[index]?

def requirePositional (index : Nat) (what : String) : Reading Text := do
  match ← positional index with
  | none => throw (.invalidArgument ("missing " ++ what))
  | some value => return value

def has (name : Text) : Reading Bool := do
  touch name
  return (← get).options.contains name

def value (name : Text) : Reading (Option Text) := do
  touch name
  match (← get).options[name]? with
  | none | some [] => return none
  | some value => return some value

def require (name : Text) : Reading Text := do
  match ← value name with
  | none => throw (.invalidArgument ("--" ++ asText name ++ " is required"))
  | some value => return value

/-- `from_chars` for a `std::uint64_t`, where it takes the whole text. -/
def fromCharsUnsigned (text : Text) : Option Nat :=
  if text ≠ [] ∧ text.all isDigit = true ∧ readDigits text < 18446744073709551616 then
    some (readDigits text)
  else none

def number (name : Text) (fallback : Nat) : Reading Nat := do
  match ← value name with
  | none => return fallback
  | some text =>
    match fromCharsUnsigned text with
    | none => throw (.invalidArgument ("--" ++ asText name ++
        " expects a non-negative integer, got '" ++ asText text ++ "'"))
    | some parsed => return parsed

def requireNumber (name : Text) : Reading Nat := do
  let _ ← require name
  number name 0

def repeated (name : Text) : Reading (List (Text × Text)) := do
  touch name
  return (← get).repeated.getD name []

/-- The options that nobody has asked for, in order of their names, the repeatable ones last. -/
def Args.unused (args : Args) : List Text :=
  args.options.keys.filter (· ∉ args.touched) ++ args.repeated.keys.filter (· ∉ args.touched)

/-- `reject_unknown_options` of src/cli/commands.cpp. -/
def rejectUnknownOptions : Reading Unit := do
  let leftovers := (← get).unused
  if leftovers ≠ [] then
    throw (.invalidArgument ("unrecognised option" ++ (if 1 < leftovers.length then "s: " else ": ") ++
      ", ".intercalate (leftovers.map fun name => "--" ++ asText name) ++
      "\nRun 'vectordb help' for the available options."))

end Reading

/-- What a command line has, once it is known which token is what. -/
inductive Argument where
  | positional (token : Text)
  | setting (name value : Text)

/-- The token names an option, and has no value in it. -/
inductive Names : Text → Text → Prop where
  | long {name : Text} : name ≠ [] → kEquals ∉ name → Names (kDash :: kDash :: name) name
  | short {name : Text} : name ≠ [] → kEquals ∉ name → name.head? ≠ some kDash →
    Names (kDash :: name) (expandShort name)
  | dashes : Names [kDash, kDash] [kDash]

/-- The grammar of a command line. A flag takes what comes after it for its value, if it can. -/
inductive Spells : List Text → List Argument → Prop where
  | nil : Spells [] []
  | positional {token : Text} {rest : List Text} {arguments : List Argument} :
    isPositional token = true → Spells rest arguments →
    Spells (token :: rest) (.positional token :: arguments)
  | inline {spelling name value : Text} {rest : List Text} {arguments : List Argument} :
    Names spelling name → spelling ≠ [kDash, kDash] → Spells rest arguments →
    Spells ((spelling ++ kEquals :: value) :: rest) (.setting name value :: arguments)
  | separate {spelling name value : Text} {rest : List Text} {arguments : List Argument} :
    Names spelling name → looksLikeValue value = true → Spells rest arguments →
    Spells (spelling :: value :: rest) (.setting name value :: arguments)
  | flag {spelling name : Text} {rest : List Text} {arguments : List Argument} :
    Names spelling name → (∀ next ∈ rest.head?, looksLikeValue next = false) →
    Spells rest arguments → Spells (spelling :: rest) (.setting name [] :: arguments)

def Args.take (args : Args) : Argument → Except Error Args
  | .positional token => .ok { args with positionals := args.positionals ++ [token] }
  | .setting name value => args.put name value

def Argument.positional? : Argument → Option Text
  | .positional token => some token
  | .setting _ _ => none

def Argument.valueOf (name : Text) : Argument → Option Text
  | .positional _ => none
  | .setting n value => if n = name then some value else none

/-- A repeatable option has pairs for values. -/
def Argument.Acceptable : Argument → Prop
  | .positional _ => True
  | .setting name value => isRepeatable name = true → kEquals ∈ value

/-- What was read of a command line: the positional arguments in order, for an option its last
value, and all the pairs of a repeatable one. -/
structure Collected (arguments : List Argument) (args : Args) : Prop where
  positionals : args.positionals = arguments.filterMap Argument.positional?
  options : ∀ name, args.options[name]? =
    if isRepeatable name then none else (arguments.filterMap (Argument.valueOf name)).getLast?
  repeated : ∀ name, args.repeated.getD name [] =
    if isRepeatable name then
      (arguments.filterMap (Argument.valueOf name)).filterMap splitEquals
    else []
  touched : args.touched = []

section Tokens
variable {spelling name value token : Text}

theorem splitEquals_of_notMem (h : kEquals ∉ name) : splitEquals name = none := by
  have hnil : name.dropWhile (· ≠ kEquals) = [] := by
    rw [List.dropWhile_eq_nil_iff]
    intro c hc
    have hne : c ≠ kEquals := fun heq => h (heq ▸ hc)
    simpa using hne
  rw [splitEquals, hnil]

theorem splitEquals_append (h : kEquals ∉ name) (value : Text) :
    splitEquals (name ++ kEquals :: value) = some (name, value) := by
  have hall : ∀ c ∈ name, (decide (c ≠ kEquals)) = true := fun c hc => by
    have hne : c ≠ kEquals := fun heq => h (heq ▸ hc)
    simpa using hne
  rw [splitEquals, List.dropWhile_append_of_pos hall, List.takeWhile_append_of_pos hall]
  simp

theorem splitEquals_cases (text : Text) :
    (splitEquals text = none ∧ kEquals ∉ text) ∨
      ∃ name value, splitEquals text = some (name, value) ∧ kEquals ∉ name ∧
        text = name ++ kEquals :: value := by
  by_cases h : kEquals ∈ text
  · obtain ⟨name, value, rfl, hname⟩ := List.eq_append_cons_of_mem h
    exact .inr ⟨name, value, splitEquals_append hname value, hname, rfl⟩
  · exact .inl ⟨splitEquals_of_notMem h, h⟩

theorem expandShort_ne_nil (h : name ≠ []) : expandShort name ≠ [] := by
  unfold expandShort
  repeat' split
  all_goals first | decide | exact h

theorem isPositional_dash {c : Byte} {rest : Text} : isPositional (kDash :: c :: rest) = false := by
  simp [isPositional]

/-- What is behind two dashes. -/
theorem optionOf_long {body : Text} (h : body ≠ []) :
    optionOf (kDash :: kDash :: body) =
      match splitEquals body with
      | some (name, value) => (name, some value)
      | none => (body, none) := by
  have hlength : 2 < (kDash :: kDash :: body).length := by
    have hpos := List.length_pos_iff.mpr h
    simp only [List.length_cons]
    omega
  simp only [optionOf, hlength, true_and, List.drop_succ_cons, List.drop_zero, List.head?_cons,
    if_true]

/-- What is behind one dash. -/
theorem optionOf_short {body : Text} (h : body.head? ≠ some kDash ∨ body.length = 1) :
    optionOf (kDash :: body) =
      match splitEquals body with
      | some (name, value) => (expandShort name, some value)
      | none => (expandShort body, none) := by
  have hshort : ¬ (2 < (kDash :: body).length ∧ body.head? = some kDash) := by
    rintro ⟨hlength, hdash⟩
    rcases h with h | h
    · exact h hdash
    · rw [List.length_cons, h] at hlength
      exact absurd hlength (by decide)
  simp only [optionOf, List.drop_succ_cons, List.drop_zero, hshort, if_false]
  cases splitEquals body <;> rfl

namespace Names

theorem ne_nil (h : Names spelling name) : name ≠ [] := by
  cases h with
  | long hname => exact hname
  | short hname => exact expandShort_ne_nil hname
  | dashes => simp

theorem optionOf (h : Names spelling name) : optionOf spelling = (name, none) := by
  cases h with
  | long hname hequals => rw [optionOf_long hname, splitEquals_of_notMem hequals]
  | short hname hequals hdash => rw [optionOf_short (.inl hdash), splitEquals_of_notMem hequals]
  | dashes => rw [optionOf_short (.inr rfl), splitEquals_of_notMem (by decide)]; rfl

theorem optionOf_inline (h : Names spelling name) (hne : spelling ≠ [kDash, kDash])
    (value : Text) : Cli.optionOf (spelling ++ kEquals :: value) = (name, some value) := by
  cases h with
  | long hname hequals =>
    rw [List.cons_append, List.cons_append, optionOf_long (by simp), splitEquals_append hequals]
  | @short body hname hequals hdash =>
    have hhead : (body ++ kEquals :: value).head? ≠ some kDash := by
      rw [List.head?_append_of_ne_nil _ hname]
      exact hdash
    rw [List.cons_append, optionOf_short (.inl hhead), splitEquals_append hequals]
  | dashes => exact absurd rfl hne

theorem not_positional (h : Names spelling name) (rest : Text) :
    isPositional (spelling ++ rest) = false := by
  cases h with
  | long => exact isPositional_dash
  | @short body hname =>
    obtain ⟨c, body, rfl⟩ := List.exists_cons_of_ne_nil hname
    exact isPositional_dash
  | dashes => exact isPositional_dash

end Names

/-- A token that is neither an argument nor malformed names an option, with a value or without. -/
theorem names_of_optionOf (hoption : isPositional token = false) (hne : (optionOf token).1 ≠ []) :
    (∃ name, optionOf token = (name, none) ∧ Names token name) ∨
      ∃ spelling name value, optionOf token = (name, some value) ∧ Names spelling name ∧
        spelling ≠ [kDash, kDash] ∧ token = spelling ++ kEquals :: value := by
  match token with
  | [] => simp [isPositional] at hoption
  | [_] => simp [isPositional] at hoption
  | c :: d :: body =>
    obtain rfl : c = kDash := by simpa [isPositional] using hoption
    by_cases hd : d = kDash
    · subst hd
      by_cases hbody : body = []
      · subst hbody
        exact .inl ⟨_, Names.dashes.optionOf, .dashes⟩
      · rw [optionOf_long hbody] at hne ⊢
        rcases splitEquals_cases body with ⟨hsplit, hequals⟩ | ⟨name, value, hsplit, hequals, rfl⟩
        · rw [hsplit]
          exact .inl ⟨_, rfl, .long hbody hequals⟩
        · rw [hsplit] at hne ⊢
          exact .inr ⟨kDash :: kDash :: name, name, value, rfl, .long hne hequals,
            by simpa using hne, rfl⟩
    · have hhead : (d :: body).head? ≠ some kDash := by simpa using hd
      rw [optionOf_short (.inl hhead)] at hne ⊢
      rcases splitEquals_cases (d :: body) with ⟨hsplit, hequals⟩ | ⟨name, value, hsplit, hequals, heq⟩
      · rw [hsplit]
        exact .inl ⟨_, rfl, .short (by simp) hequals hhead⟩
      · rw [hsplit] at hne ⊢
        have hname : name ≠ [] := by
          rintro rfl
          exact hne rfl
        have hdash : name.head? ≠ some kDash := by
          rw [heq, List.head?_append_of_ne_nil _ hname] at hhead
          exact hhead
        refine .inr ⟨kDash :: name, expandShort name, value, rfl, .short hname hequals hdash,
          fun h => ?_, by rw [heq]; rfl⟩
        rw [List.cons.injEq] at h
        rw [h.2] at hdash
        exact hdash rfl

end Tokens

section Parse
variable {args args' : Args} {argv : List Text} {arguments : List Argument}

/-- A command line that is spelled is taken one argument after the other. -/
theorem Spells.parseFrom (h : Spells argv arguments) (args : Args) :
    args.parseFrom argv = arguments.foldlM Args.take args := by
  induction h generalizing args with
  | nil => rfl
  | positional htoken _ ih =>
    rw [Args.parseFrom, if_pos htoken, ih]
    rfl
  | inline hname hne _ ih =>
    rw [Args.parseFrom, hname.not_positional, if_neg (by simp), hname.optionOf_inline hne]
    simp only [hname.ne_nil, if_false, List.foldlM_cons, ih]
    rfl
  | separate hname hvalue _ ih =>
    have hoption := hname.not_positional []
    rw [List.append_nil] at hoption
    rw [Args.parseFrom, hoption, if_neg (by simp), hname.optionOf]
    simp only [hname.ne_nil, if_false, hvalue, if_true, List.foldlM_cons, ih]
    rfl
  | @flag _ _ rest _ hname hnext _ ih =>
    have hoption := hname.not_positional []
    rw [List.append_nil] at hoption
    rw [Args.parseFrom, hoption, if_neg (by simp), hname.optionOf]
    cases rest with
    | nil =>
      simp only [hname.ne_nil, if_false, List.foldlM_cons, ih]
      rfl
    | cons next rest =>
      have hlooks := hnext next rfl
      simp only [hname.ne_nil, if_false, hlooks, Bool.false_eq_true, List.foldlM_cons, ih]
      rfl

/-- What is accepted is spelled. -/
theorem spells_of_parseFrom (h : args.parseFrom argv = .ok args') :
    ∃ arguments, Spells argv arguments := by
  induction hlength : argv.length using Nat.strong_induction_on generalizing argv args with
  | _ length ih =>
    cases argv with
    | nil => exact ⟨[], .nil⟩
    | cons token rest =>
      rw [List.length_cons] at hlength
      rw [Args.parseFrom] at h
      by_cases htoken : isPositional token = true
      · rw [if_pos htoken] at h
        obtain ⟨arguments, hrest⟩ := ih rest.length (by omega) h rfl
        exact ⟨_, .positional htoken hrest⟩
      · rw [if_neg htoken] at h
        by_cases hne : (optionOf token).1 = []
        · simp [hne] at h
        · rcases names_of_optionOf (Bool.eq_false_of_not_eq_true htoken) hne with
            ⟨name, hoption, hname⟩ | ⟨spelling, name, value, hoption, hname, hdash, rfl⟩
          · rw [hoption] at h
            simp only [hname.ne_nil, if_false] at h
            cases rest with
            | nil => exact ⟨_, .flag hname (by simp) .nil⟩
            | cons next rest =>
              rw [List.length_cons] at hlength
              simp only at h
              by_cases hlooks : looksLikeValue next = true
              · rw [if_pos hlooks] at h
                obtain ⟨next', -, h⟩ := Except.bind_eq_ok.mp h
                obtain ⟨arguments, hrest⟩ := ih rest.length (by omega) h rfl
                exact ⟨_, .separate hname hlooks hrest⟩
              · rw [if_neg hlooks] at h
                obtain ⟨next', -, h⟩ := Except.bind_eq_ok.mp h
                obtain ⟨arguments, hrest⟩ := ih (rest.length + 1) (by omega) h rfl
                refine ⟨_, .flag hname (fun token htoken => ?_) hrest⟩
                obtain rfl : next = token := by simpa using htoken
                exact Bool.eq_false_of_not_eq_true hlooks
          · rw [hoption] at h
            simp only [hname.ne_nil, if_false] at h
            obtain ⟨next, -, h⟩ := Except.bind_eq_ok.mp h
            obtain ⟨arguments, hrest⟩ := ih rest.length (by omega) h rfl
            exact ⟨_, .inline hname hdash hrest⟩

/-- An argument is taken if and only if it is acceptable. -/
theorem take_ok_iff (args : Args) (a : Argument) :
    (∃ args', args.take a = .ok args') ↔ a.Acceptable := by
  cases a with
  | positional token => exact ⟨fun _ => trivial, fun _ => ⟨_, rfl⟩⟩
  | setting name value =>
    rw [Args.take, Args.put, Argument.Acceptable]
    cases hname : isRepeatable name with
    | false => simp
    | true =>
      rcases splitEquals_cases value with ⟨hsplit, hequals⟩ | ⟨key, text, hsplit, -, rfl⟩
      · simp [hsplit, hequals]
      · simp [hsplit]

/-- One more argument. -/
theorem Collected.take (hc : Collected arguments args) {a : Argument}
    (h : args.take a = .ok args') : Collected (arguments ++ [a]) args' := by
  cases a with
  | positional token =>
    cases h
    refine ⟨?_, fun name => ?_, fun name => ?_, hc.touched⟩
    · simp [hc.positionals, Argument.positional?]
    · simp [hc.options, Argument.valueOf]
    · have hnone : [Argument.positional token].filterMap (Argument.valueOf name) = [] := rfl
      simp [hc.repeated, hnone]
  | setting name value =>
    rw [Args.take, Args.put] at h
    have hvalues : ∀ other, (arguments ++ [Argument.setting name value]).filterMap
        (Argument.valueOf other) = arguments.filterMap (Argument.valueOf other) ++
          if name = other then [value] else [] := fun other => by
      rw [List.filterMap_append]
      split <;> simp_all [Argument.valueOf]
    cases hname : isRepeatable name with
    | false =>
      rw [hname, if_neg (by simp)] at h
      cases h
      refine ⟨?_, fun other => ?_, fun other => ?_, hc.touched⟩
      · simp [hc.positionals, Argument.positional?]
      · rw [hvalues, Std.ExtTreeMap.getElem?_insert]
        by_cases heq : name = other
        · subst heq
          simp [hname]
        · simp [heq, hc.options]
      · rw [hvalues]
        by_cases heq : name = other
        · subst heq
          simp [hname, hc.repeated]
        · simp [heq, hc.repeated]
    | true =>
      rw [hname, if_pos rfl] at h
      cases hsplit : splitEquals value with
      | none =>
        rw [hsplit] at h
        cases h
      | some entry =>
        rw [hsplit] at h
        cases h
        refine ⟨?_, fun other => ?_, fun other => ?_, hc.touched⟩
        · simp [hc.positionals, Argument.positional?]
        · rw [hvalues]
          by_cases heq : name = other
          · subst heq
            simp [hname, hc.options]
          · simp [heq, hc.options]
        · rw [hvalues, Std.ExtTreeMap.getD_insert]
          by_cases heq : name = other
          · subst heq
            simp [hname, hc.repeated, hsplit]
          · simp [heq, hc.repeated]

theorem collected_empty : Collected [] .empty :=
  ⟨rfl, fun name => by simp [Args.empty], fun name => by simp [Args.empty], rfl⟩

theorem foldlM_take_ok_iff (arguments : List Argument) :
    (∃ args, arguments.foldlM Args.take .empty = .ok args) ↔ ∀ a ∈ arguments, a.Acceptable := by
  induction arguments using List.reverseRecOn with
  | nil => exact ⟨fun _ _ ha => absurd ha List.not_mem_nil, fun _ => ⟨_, rfl⟩⟩
  | append_singleton arguments a ih =>
    simp only [List.foldlM_append, List.foldlM_cons, List.foldlM_nil, bind_pure,
      Except.bind_eq_ok, List.forall_mem_append, List.forall_mem_singleton, ← ih]
    constructor
    · rintro ⟨args', args, hargs, htake⟩
      exact ⟨⟨args, hargs⟩, (take_ok_iff args a).mp ⟨args', htake⟩⟩
    · rintro ⟨⟨args, hargs⟩, ha⟩
      obtain ⟨args', htake⟩ := (take_ok_iff args a).mpr ha
      exact ⟨args', args, hargs, htake⟩

theorem collected_of_foldlM (h : arguments.foldlM Args.take .empty = .ok args) :
    Collected arguments args := by
  induction arguments using List.reverseRecOn generalizing args with
  | nil =>
    cases h
    exact collected_empty
  | append_singleton arguments a ih =>
    simp only [List.foldlM_append, List.foldlM_cons, List.foldlM_nil, bind_pure,
      Except.bind_eq_ok] at h
    obtain ⟨args', hargs, htake⟩ := h
    exact (ih hargs).take htake

theorem Spells.collected (h : Spells argv arguments) (hparse : Args.parse argv = .ok args) :
    Collected arguments args ∧ ∀ a ∈ arguments, a.Acceptable := by
  rw [Args.parse, h.parseFrom] at hparse
  exact ⟨collected_of_foldlM hparse, (foldlM_take_ok_iff arguments).mp ⟨args, hparse⟩⟩

/-- A command line is accepted if and only if it is spelled by the grammar with acceptable
arguments, and is read as what these arguments say. -/
theorem parse_accepts (argv : List Text) :
    ((∃ args, Args.parse argv = .ok args) ↔
      ∃ arguments, Spells argv arguments ∧ ∀ a ∈ arguments, a.Acceptable) ∧
    ∀ arguments args, Spells argv arguments → Args.parse argv = .ok args →
      Collected arguments args := by
  refine ⟨⟨?_, ?_⟩, fun arguments args hspells hparse => (hspells.collected hparse).1⟩
  · rintro ⟨args, hparse⟩
    obtain ⟨arguments, hspells⟩ := spells_of_parseFrom hparse
    exact ⟨arguments, hspells, (hspells.collected hparse).2⟩
  · rintro ⟨arguments, hspells, ha⟩
    obtain ⟨args, hargs⟩ := (foldlM_take_ok_iff arguments).mpr ha
    exact ⟨args, by rw [Args.parse, hspells.parseFrom, hargs]⟩

/-- The option is there, with a value or without. -/
def Args.Has (args : Args) (name : Text) : Prop := name ∈ args.options ∨ name ∈ args.repeated

theorem Collected.has (hc : Collected arguments args) (ha : ∀ a ∈ arguments, a.Acceptable)
    {name value : Text} (hmem : .setting name value ∈ arguments) : args.Has name := by
  have hvalue : value ∈ arguments.filterMap (Argument.valueOf name) :=
    List.mem_filterMap.mpr ⟨_, hmem, by simp [Argument.valueOf]⟩
  cases hname : isRepeatable name with
  | false =>
    refine .inl (Std.ExtTreeMap.mem_iff_isSome_getElem?.mpr ?_)
    rw [hc.options, hname, if_neg (by simp), List.getLast?_isSome]
    exact List.ne_nil_of_mem hvalue
  | true =>
    refine .inr (Decidable.byContradiction fun habsent => ?_)
    have hpairs := hc.repeated name
    rw [Std.ExtTreeMap.getD_eq_fallback habsent, hname, if_pos rfl] at hpairs
    rcases splitEquals_cases value with ⟨-, hequals⟩ | ⟨key, text, hsplit, -⟩
    · exact hequals (ha _ hmem hname)
    · have hpair := List.mem_filterMap.mpr ⟨value, hvalue, hsplit⟩
      rw [← hpairs] at hpair
      exact absurd hpair List.not_mem_nil

end Parse

section Asks
variable {α β : Type} {names others : List Text} {P : α → Prop} {Q : β → Prop} {name : Text}

/-- Code that asks for some of these options only, and gives what `P` holds of. -/
def Asks (names : List Text) (P : α → Prop) (x : Reading α) : Prop :=
  ∀ args : Args, (∃ more ⊆ names, (exec x args).2 = { args with touched := args.touched ++ more }) ∧
    ∀ a, (exec x args).1 = .ok a → P a

/-- Code that fails if it is given an option that it does not know. -/
def Knows (names : List Text) (P : α → Prop) (x : Reading α) : Prop :=
  ∀ (args : Args) (a : α), (exec x args).1 = .ok a →
    P a ∧ ∀ name, args.Has name → name ∈ args.touched ∨ name ∈ names

namespace Asks

theorem pure {a : α} (h : P a) : Asks names P (Pure.pure a) :=
  fun args => ⟨⟨[], List.nil_subset _, by simp⟩, fun _ ha => by cases ha; exact h⟩

theorem throw (e : Error) : Asks names P (MonadExcept.throw e : Reading α) :=
  fun args => ⟨⟨[], List.nil_subset _, by simp⟩, fun _ ha => by cases ha⟩

theorem fromExcept {x : Except Error α} (h : ∀ a, x = .ok a → P a) :
    Asks names P (Throwing.fromExcept x : Reading α) :=
  fun args => ⟨⟨[], List.nil_subset _, by simp⟩, h⟩

theorem get {P : Args → Prop} (h : ∀ args, P args) : Asks names P (MonadState.get : Reading Args) :=
  fun args => ⟨⟨[], List.nil_subset _, by simp⟩, fun _ _ => h _⟩

theorem bind {x : Reading α} {f : α → Reading β} (hx : Asks names P x)
    (hf : ∀ a, P a → Asks names Q (f a)) : Asks names Q (x >>= f) := by
  intro args
  obtain ⟨⟨more, hmore, hargs⟩, hresult⟩ := hx args
  rw [exec_bind]
  rcases hexec : exec x args with ⟨r, args'⟩
  rw [hexec] at hargs hresult
  obtain rfl : args' = _ := hargs
  cases r with
  | error e => exact ⟨⟨more, hmore, rfl⟩, fun _ h => by cases h⟩
  | ok a =>
    obtain ⟨⟨others, hothers, hnext⟩, hresult'⟩ := hf a (hresult a rfl) _
    refine ⟨⟨more ++ others, List.append_subset.mpr ⟨hmore, hothers⟩, ?_⟩, hresult'⟩
    rw [hnext, List.append_assoc]

theorem mono {x : Reading α} (hx : Asks names P x) (h : names ⊆ others) : Asks others P x := by
  intro args
  obtain ⟨⟨more, hmore, hargs⟩, hresult⟩ := hx args
  exact ⟨⟨more, List.Subset.trans hmore h, hargs⟩, hresult⟩

theorem any {x : Reading α} (hx : Asks names P x) : Asks names (fun _ => True) x :=
  fun args => ⟨(hx args).1, fun _ _ => trivial⟩

theorem touch (h : name ∈ names) : Asks names (fun _ => True) (touch name) :=
  fun _ => ⟨⟨[name], by simpa using h, rfl⟩, fun _ _ => trivial⟩

theorem positional (index : Nat) : Asks names (fun _ => True) (positional index) :=
  .bind (.get fun _ => trivial) fun _ _ => .pure trivial

theorem requirePositional (index : Nat) (what : String) :
    Asks names (fun _ => True) (requirePositional index what) :=
  .bind (.positional index) fun value _ => by
    cases value with
    | none => exact .throw _
    | some value => exact .pure trivial

theorem has (h : name ∈ names) : Asks names (fun _ => True) (has name) :=
  .bind (.touch h) fun _ _ => .bind (.get fun _ => trivial) fun _ _ => .pure trivial

theorem value (h : name ∈ names) : Asks names (fun _ => True) (value name) :=
  .bind (.touch h) fun _ _ => .bind (.get fun _ => trivial) fun args _ => by
    rcases args.options[name]? with _ | _ | ⟨c, text⟩ <;> exact .pure trivial

theorem require (h : name ∈ names) : Asks names (fun _ => True) (require name) :=
  .bind (.value h) fun value _ => by
    cases value with
    | none => exact .throw _
    | some value => exact .pure trivial

theorem repeated (h : name ∈ names) : Asks names (fun _ => True) (repeated name) :=
  .bind (.touch h) fun _ _ => .bind (.get fun _ => trivial) fun _ _ => .pure trivial

/-- A number fits into 64 bits. -/
theorem number (h : name ∈ names) {fallback : Nat} (hfallback : fallback < 18446744073709551616) :
    Asks names (· < 18446744073709551616) (number name fallback) :=
  .bind (.value h) fun value _ => by
    cases value with
    | none => exact .pure hfallback
    | some text =>
      dsimp only
      cases hparsed : fromCharsUnsigned text with
      | none => exact .throw _
      | some parsed =>
        rw [fromCharsUnsigned] at hparsed
        split at hparsed
        next hdigits =>
          obtain rfl := Option.some.inj hparsed
          exact .pure hdigits.2.2
        next => cases hparsed

theorem requireNumber (h : name ∈ names) :
    Asks names (· < 18446744073709551616) (requireNumber name) :=
  .bind (.require h) fun _ _ => .number h (by decide)

end Asks

/-- Once it is known that nothing else was given. -/
theorem Knows.of_reject {f : Unit → Reading α} (hf : Asks names P (f ())) :
    Knows names P (rejectUnknownOptions >>= f) := by
  intro args a ha
  have hunused : args.unused = [] ∧ (exec (f ()) args).1 = .ok a := by
    rw [rejectUnknownOptions] at ha
    by_cases h : args.unused = []
    · simp [exec_bind, h] at ha
      exact ⟨h, ha⟩
    · simp [exec_bind, h] at ha
  obtain ⟨hunused, ha⟩ := hunused
  refine ⟨(hf args).2 a ha, fun name hname => .inl (Decidable.byContradiction fun habsent => ?_)⟩
  rw [Args.unused, List.append_eq_nil_iff] at hunused
  rcases hname with h | h
  · exact absurd (List.mem_filter.mpr ⟨Std.ExtTreeMap.mem_keys.mpr h, by simpa using habsent⟩)
      (hunused.1 ▸ List.not_mem_nil)
  · exact absurd (List.mem_filter.mpr ⟨Std.ExtTreeMap.mem_keys.mpr h, by simpa using habsent⟩)
      (hunused.2 ▸ List.not_mem_nil)

theorem Knows.bind {x : Reading α} {f : α → Reading β} (hx : Asks names P x)
    (hf : ∀ a, P a → Knows names Q (f a)) : Knows names Q (x >>= f) := by
  intro args b hb
  obtain ⟨⟨more, hmore, hargs⟩, hresult⟩ := hx args
  rw [exec_bind] at hb
  rcases hexec : exec x args with ⟨r, args'⟩
  rw [hexec] at hargs hresult hb
  obtain rfl : args' = _ := hargs
  cases r with
  | error e => cases hb
  | ok a =>
    obtain ⟨hQ, hknows⟩ := hf a (hresult a rfl) _ b hb
    refine ⟨hQ, fun name hname => ?_⟩
    rcases hknows name hname with h | h
    · rcases List.mem_append.mp h with h | h
      · exact .inl h
      · exact .inr (hmore h)
    · exact .inr h

theorem Knows.mono {x : Reading α} (hx : Knows names P x) (h : names ⊆ others) : Knows others P x :=
  fun args a ha => ⟨(hx args a ha).1, fun name hname => ((hx args a ha).2 name hname).imp_right (h ·)⟩

/-- What is made of it afterwards does not matter. -/
theorem Knows.map {x : Reading α} (hx : Knows names P x) (f : α → β) :
    Knows names (fun _ => True) (do return f (← x)) := by
  intro args b hb
  rw [exec_bind] at hb
  rcases hexec : exec x args with ⟨r, args'⟩
  rw [hexec] at hb
  cases r with
  | error e => cases hb
  | ok a => exact ⟨trivial, (hx args a (by rw [hexec])).2⟩

end Asks

end VectorDb.Cli
