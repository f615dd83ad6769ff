import VectorDb.Storage.MetadataJson

/-!
`json_string` and `metadata_to_json` of src/cli/output.cpp, and what a reader of JSON makes
of them.
-/
set_option autoImplicit false

namespace VectorDb.Cli

open VectorDb.Lib VectorDb.Storage

def jsonString (text : Bytes) : Bytes := quoted 8 text

/-- `metadata_to_json`: the text so far, and whether the next member is the first. -/
def metadataToJson (metadata : Metadata) : Bytes :=
  let (json, _) := metadata.toList.foldl
    (fun (json, first) (key, value) =>
      (json ++ (if first then [] else [44]) ++ jsonString key ++ [58] ++ toJsonString value, false))
    ([123], true)
  json ++ [125]

/-- A member of the object. -/
def memberText (member : Text × MetadataValue) : Bytes :=
  jsonString member.1 ++ 58 :: toJsonString member.2

/-- The members after the first, with their commas. -/
def laterMembers (members : List (Text × MetadataValue)) : Bytes :=
  members.flatMap fun member => 44 :: memberText member

theorem foldl_members (members : List (Text × MetadataValue)) (json : Bytes) :
    (members.foldl
      (fun (json, first) (key, value) =>
        (json ++ (if first then [] else [44]) ++ jsonString key ++ [58] ++ toJsonString value, false))
      (json, false)).1 = json ++ laterMembers members := by
  induction members generalizing json with
  | nil => simp [laterMembers]
  | cons member members ih =>
    rw [List.foldl_cons, ih]
    simp [laterMembers, memberText]

theorem metadataToJson_eq (metadata : Metadata) :
    metadataToJson metadata = match metadata.toList with
      | [] => [123, 125]
      | member :: members => 123 :: (memberText member ++ (laterMembers members ++ [125])) := by
  unfold metadataToJson
  cases metadata.toList with
  | nil => rfl
  | cons member members =>
    rw [List.foldl_cons]
    have h := foldl_members members ([123] ++ [] ++ jsonString member.1 ++ [58] ++
      toJsonString member.2)
    dsimp only at h ⊢
    rw [if_pos rfl, h]
    simp [memberText]

theorem readMember_memberText (member : Text × MetadataValue) {e : Byte}
    (he : e = 44 ∨ e = 125) (rest : Bytes) :
    readMember (memberText member ++ e :: rest) =
      some ((member.1, member.2.scalar), e :: rest) := by
  rw [memberText, List.append_assoc, readMember, jsonString,
    readJsonString_quoted (by decide)]
  simp only [Option.bind_eq_bind, Option.bind_some, List.cons_append, List.head?_cons, if_true,
    List.tail_cons, readScalar_toJsonString member.2 he]
  rfl

/-- Read member by member, the object is what it was written from. -/
theorem readMembers_memberText (member : Text × MetadataValue)
    (members : List (Text × MetadataValue)) {fuel : Nat} (hfuel : members.length < fuel) :
    readMembers fuel (memberText member ++ (laterMembers members ++ [125])) =
      some ((member :: members).map fun m => (m.1, m.2.scalar)) := by
  induction members generalizing member fuel with
  | nil =>
    cases fuel with
    | zero => simp at hfuel
    | succ fuel =>
      rw [laterMembers, List.flatMap_nil, List.nil_append, readMembers,
        readMember_memberText member (.inr rfl)]
      rfl
  | cons next members ih =>
    cases fuel with
    | zero => simp at hfuel
    | succ fuel =>
      have hrest := @ih next fuel (by simpa using hfuel)
      rw [laterMembers, List.flatMap_cons, List.cons_append, List.cons_append, readMembers,
        readMember_memberText member (.inl rfl)]
      simp only [Option.bind_eq_bind, Option.bind_some, List.append_assoc]
      rw [if_neg (by simp), if_pos List.head?_cons, List.tail_cons]
      rw [laterMembers] at hrest
      rw [hrest]
      rfl

theorem length_laterMembers_ge (members : List (Text × MetadataValue)) :
    members.length ≤ (laterMembers members).length := by
  induction members with
  | nil => simp
  | cons member members ih =>
    rw [laterMembers] at ih ⊢
    rw [List.flatMap_cons, List.length_append, List.length_cons, List.length_cons]
    omega

theorem readObject_metadataToJson (metadata : Metadata) :
    readObject (metadataToJson metadata) =
      some (metadata.toList.map fun member => (member.1, member.2.scalar)) := by
  rw [metadataToJson_eq]
  cases metadata.toList with
  | nil => rfl
  | cons member members =>
    have hne : 123 :: (memberText member ++ (laterMembers members ++ [125])) ≠
        ([123, 125] : Bytes) := by
      rw [memberText, jsonString, quoted]
      simp
    have hfuel : members.length <
        (123 :: (memberText member ++ (laterMembers members ++ [125])) : Bytes).length := by
      have h := length_laterMembers_ge members
      simp only [List.length_cons, List.length_append]
      omega
    rw [readObject, if_neg hne, if_pos List.head?_cons, List.tail_cons]
    exact readMembers_memberText member members hfuel

/-- Both escapers give one and the same literal, which holds no control character, ends at its
last quote only and is read as the text it was made from; so a whole object is read as the
keys and values it was made from. -/
theorem jsonString_decodes (text : Bytes) (metadata : Metadata) :
    (jsonString text = toJsonString (.text text) ∧
      (∃ body, jsonString text = 34 :: (body ++ [34]) ∧ (∀ c ∈ body, 0x20 ≤ c.val) ∧
        ∀ rest : Bytes, (scanQuoted 92 34 (body ++ 34 :: rest)).2 = 34 :: rest) ∧
      ∀ rest, readJsonString (jsonString text ++ rest) = some (text, rest)) ∧
    readObject (metadataToJson metadata) =
      some (metadata.toList.map fun member => (member.1, member.2.scalar)) := by
  have hsize : 7 ≤ 8 := by decide
  exact ⟨⟨quoted_eq hsize text, quoted_closed hsize text, readJsonString_quoted hsize text⟩,
    readObject_metadataToJson metadata⟩

/-- A backslash before a quote, and a NUL. -/
example : jsonString [92, 34, 0] = [34, 92, 92, 92, 34, 92, 117, 48, 48, 48, 48, 34] := by
  decide

end VectorDb.Cli
