import VectorDb.Lib.Word

/-!
Quoted text with an escape character, read up to its closing quote.
-/
set_option autoImplicit false

namespace VectorDb.Lib

variable {α : Type} [DecidableEq α] (escape quote : α)

/-- The text up to the quote, and what is left from the quote on; the character after an
escape is taken literally. -/
def scanQuoted : List α → List α × List α
  | [] => ([], [])
  | [c] => if c = quote then ([], [c]) else ([c], [])
  | c :: d :: rest =>
    if c = quote then ([], c :: d :: rest)
    else if c = escape then (d :: (scanQuoted rest).1, (scanQuoted rest).2)
    else (c :: (scanQuoted (d :: rest)).1, (scanQuoted (d :: rest)).2)

theorem length_scanQuoted_le (text : List α) :
    (scanQuoted escape quote text).2.length ≤ text.length := by
  fun_induction scanQuoted escape quote text with
  | case1 => simp
  | case2 => simp
  | case3 => simp
  | case4 => simp
  | case5 rest _ ih =>
    simp only [List.length_cons]
    omega
  | case6 =>
    simp only [List.length_cons] at *
    omega

@[simp] theorem scanQuoted_quote (rest : List α) :
    scanQuoted escape quote (quote :: rest) = ([], quote :: rest) := by
  cases rest <;> simp [scanQuoted]

variable {escape quote}

theorem scanQuoted_cons {c : α} (hquote : c ≠ quote) (hescape : c ≠ escape) (rest : List α) :
    scanQuoted escape quote (c :: rest) =
      (c :: (scanQuoted escape quote rest).1, (scanQuoted escape quote rest).2) := by
  cases rest <;> simp [scanQuoted, hquote, hescape]

theorem scanQuoted_escape (hne : escape ≠ quote) (d : α) (rest : List α) :
    scanQuoted escape quote (escape :: d :: rest) =
      (d :: (scanQuoted escape quote rest).1, (scanQuoted escape quote rest).2) := by
  simp [scanQuoted, hne]

/-- Text with neither quotes nor escapes is read as it is. -/
theorem scanQuoted_plain {text : List α} (hquote : quote ∉ text) (hescape : escape ∉ text)
    (rest : List α) :
    scanQuoted escape quote (text ++ quote :: rest) = (text, quote :: rest) := by
  induction text with
  | nil => simp
  | cons c text ih =>
    simp only [List.mem_cons, not_or] at hquote hescape
    rw [List.cons_append, scanQuoted_cons (Ne.symm hquote.1) (Ne.symm hescape.1),
      ih hquote.2 hescape.2]

/-- Reading never makes up for an escape that was lost before: with one more in front, a text
is not what is read of it. -/
theorem scanQuoted_ne_escapes (hne : escape ≠ quote) (n : Nat) (text rest : List α) :
    (scanQuoted escape quote (text ++ quote :: rest)).1 ≠
      List.replicate (n + 1) escape ++ text := by
  induction text using List.twoStepInduction generalizing n with
  | nil => simp [List.replicate_succ]
  | singleton c =>
    by_cases hq : c = quote
    · subst hq
      simp [List.replicate_succ]
    · by_cases he : c = escape
      · subst he
        rw [List.singleton_append, scanQuoted_escape hne, List.replicate_succ, List.cons_append]
        intro h
        exact hne (List.cons.inj h).1.symm
      · rw [List.singleton_append, scanQuoted_cons hq he, List.replicate_succ, List.cons_append]
        intro h
        exact he (List.cons.inj h).1
  | cons_cons c d text ih _ =>
    by_cases hq : c = quote
    · subst hq
      simp [List.replicate_succ]
    · by_cases he : c = escape
      · subst he
        rw [List.cons_append, List.cons_append, scanQuoted_escape hne, List.replicate_succ,
          List.cons_append]
        intro h
        obtain ⟨rfl, htail⟩ := List.cons.inj h
        refine ih (n + 1) (htail.trans ?_)
        simp [List.replicate_succ', List.append_assoc]
      · rw [List.cons_append, scanQuoted_cons hq he, List.replicate_succ, List.cons_append]
        intro h
        exact he (List.cons.inj h).1

/-- Text written between quotes as it is reads back exactly when it has no quotes and no
escapes. -/
theorem scanQuoted_eq_self_iff (hne : escape ≠ quote) (text rest : List α) :
    (scanQuoted escape quote (text ++ quote :: rest)).1 = text ↔
      quote ∉ text ∧ escape ∉ text := by
  refine ⟨fun h => ?_, fun ⟨hquote, hescape⟩ => by rw [scanQuoted_plain hquote hescape]⟩
  induction text with
  | nil => simp
  | cons c text ih =>
    have hq : c ≠ quote := by
      rintro rfl
      simp at h
    have he : c ≠ escape := by
      rintro rfl
      cases text with
      | nil =>
        rw [List.singleton_append, scanQuoted_escape hne] at h
        exact hne (List.cons.inj h).1.symm
      | cons d text =>
        rw [List.cons_append, List.cons_append, scanQuoted_escape hne] at h
        obtain ⟨rfl, htail⟩ := List.cons.inj h
        exact scanQuoted_ne_escapes hne 0 text rest htail
    rw [List.cons_append, scanQuoted_cons hq he] at h
    obtain ⟨hquote, hescape⟩ := ih (List.cons.inj h).2
    simp [hquote, hescape, Ne.symm hq, Ne.symm he]

end VectorDb.Lib
