import VectorDb.Index.HnswSearch

/-!
Which neighbours are selected: the diverse ones, and then the closest of the rest.
-/
set_option autoImplicit false

namespace VectorDb.Index

open VectorDb.Lib

namespace HnswIndex

variable {K : Type}

section Diverse
variable [LT K]

/-- The greedy diverse subsequence: a candidate is taken when none taken before is
closer to it than its own key, until there are `limit`. -/
structure Diverse (between : LocalId → LocalId → K) (limit : Nat) (ordered : List (Candidate K))
    (taken : List LocalId) : Prop where
  sublist : taken.Sublist (ordered.map Candidate.localId)
  taken_iff : ∀ before c after, ordered = before ++ c :: after →
    (c.localId ∈ taken ↔
      ((before.map Candidate.localId).filter (· ∈ taken)).length < limit ∧
        ∀ b ∈ before, b.localId ∈ taken → ¬ between c.localId b.localId < c.key)

theorem Diverse.head_mem {between : LocalId → LocalId → K} {limit : Nat} {c : Candidate K}
    {rest : List (Candidate K)} {taken : List LocalId} (hlimit : 1 ≤ limit)
    (h : Diverse between limit (c :: rest) taken) : c.localId ∈ taken := by
  rw [h.taken_iff [] c rest rfl]
  exact ⟨hlimit, by simp⟩

/-- The members of a part are what it has of the whole. -/
theorem filter_mem_sublist {part whole : List LocalId} (h : part.Sublist whole)
    (hwhole : whole.Nodup) : whole.filter (· ∈ part) = part := by
  induction h with
  | slnil => rfl
  | @cons part whole a h ih =>
    have hnodup := List.nodup_cons.mp hwhole
    have hnot : a ∉ part := fun hmem => hnodup.1 (h.subset hmem)
    rw [List.filter_cons_of_neg (by simpa using hnot), ih hnodup.2]
  | @cons_cons part whole a h ih =>
    have hnodup := List.nodup_cons.mp hwhole
    rw [List.filter_cons_of_pos (by simp)]
    refine congrArg _ (Eq.trans (List.filter_congr fun b hb => ?_) (ih hnodup.2))
    have hne : b ≠ a := fun heq => hnodup.1 (heq ▸ hb)
    simp [hne]

variable [DecidableLT K]

theorem mem_pickDiverse {between : LocalId → LocalId → K} {limit : Nat} {out : List LocalId}
    {c : Candidate K} (hnew : c.localId ∉ out) :
    c.localId ∈ pickDiverse between limit out c ↔
      out.length < limit ∧ ∀ chosen ∈ out, ¬ between c.localId chosen < c.key := by
  unfold pickDiverse
  split
  next hfull => simp [hnew, Nat.not_lt.mpr hfull]
  next hroom =>
    split
    next hany =>
      have hcloser : ∃ chosen ∈ out, between c.localId chosen < c.key := by simpa using hany
      simp only [hnew, false_iff, not_and, not_forall, not_not]
      exact fun _ => by simpa using hcloser
    next hnone =>
      have hfar : ∀ chosen ∈ out, ¬ between c.localId chosen < c.key := by simpa using hnone
      simp only [List.mem_append, List.mem_singleton, or_true, true_iff]
      exact ⟨Nat.not_le.mp hroom, hfar⟩

/-- What is taken in the end, seen from one candidate: `out` before it, none of it after. -/
theorem foldl_pickDiverse_split (between : LocalId → LocalId → K) (limit : Nat)
    {before after : List (Candidate K)} {c : Candidate K}
    (hnodup : ((before ++ c :: after).map Candidate.localId).Nodup) :
    ∃ out : List LocalId, c.localId ∉ out ∧ out.Sublist (before.map Candidate.localId) ∧
      (let taken := (before ++ c :: after).foldl (pickDiverse between limit) []
      (c.localId ∈ taken ↔ c.localId ∈ pickDiverse between limit out c) ∧
        ∀ b ∈ before, b.localId ∈ taken ↔ b.localId ∈ out) := by
  obtain ⟨out, hout, hrun, _⟩ := foldl_pickDiverse between limit before []
  obtain ⟨later, hlater, hlaterRun, _⟩ := foldl_pickDiverse between limit after
    (pickDiverse between limit out c)
  rw [List.nil_append] at hrun
  have hall : (before ++ c :: after).foldl (pickDiverse between limit) [] =
      pickDiverse between limit out c ++ later := by
    rw [List.foldl_append, hrun, List.foldl_cons, hlaterRun]
  rw [List.map_append, List.map_cons, List.nodup_append, List.nodup_cons] at hnodup
  obtain ⟨_, ⟨hcafter, _⟩, hdisjoint⟩ := hnodup
  have hcout : c.localId ∉ out := fun hc => hdisjoint _ (hout.subset hc) _ List.mem_cons_self rfl
  have hclater : c.localId ∉ later := fun hc => hcafter (hlater.subset hc)
  refine ⟨out, hcout, hout, ?_, fun b hb => ?_⟩
  · simp [hall, hclater]
  · have hmem : b.localId ∈ before.map Candidate.localId := List.mem_map_of_mem hb
    have hne : b.localId ≠ c.localId := hdisjoint _ hmem _ List.mem_cons_self
    have hblater : b.localId ∉ later := fun h =>
      hdisjoint _ hmem _ (List.mem_cons_of_mem _ (hlater.subset h)) rfl
    rw [hall]
    rcases pickDiverse_cases between limit out c with h | ⟨h, _⟩
    · simp [h, hblater]
    · simp [h, hblater, hne]

theorem diverse_foldl (between : LocalId → LocalId → K) (limit : Nat)
    {ordered : List (Candidate K)} (hnodup : (ordered.map Candidate.localId).Nodup) :
    Diverse between limit ordered (ordered.foldl (pickDiverse between limit) []) := by
  obtain ⟨taken, hsub, htaken, _⟩ := foldl_pickDiverse between limit ordered []
  rw [List.nil_append] at htaken
  refine ⟨htaken ▸ hsub, fun before c after hsplit => ?_⟩
  subst hsplit
  obtain ⟨out, hnew, hout, hc, hbefore⟩ := foldl_pickDiverse_split between limit hnodup
  have hfilter : (before.map Candidate.localId).filter
      (· ∈ (before ++ c :: after).foldl (pickDiverse between limit) []) = out := by
    have hpart : (before.map Candidate.localId).Nodup := by
      rw [List.map_append] at hnodup
      exact (List.nodup_append.mp hnodup).1
    refine Eq.trans (List.filter_congr fun i hi => ?_) (filter_mem_sublist hout hpart)
    obtain ⟨b, hb, rfl⟩ := List.mem_map.mp hi
    exact decide_eq_decide.mpr (hbefore b hb)
  rw [hc, mem_pickDiverse hnew, hfilter]
  refine and_congr_right fun _ => ⟨fun h b hb hmem => h _ ((hbefore b hb).mp hmem),
    fun h chosen hchosen => ?_⟩
  obtain ⟨b, hb, rfl⟩ := List.mem_map.mp (hout.subset hchosen)
  exact h b hb ((hbefore b hb).mpr hchosen)

end Diverse

theorem foldl_pickRejected_eq (limit : Nat) {l : List (Candidate K)} {out : List LocalId}
    (hl : (l.map Candidate.localId).Nodup) :
    l.foldl (pickRejected limit) out =
      out ++ ((l.map Candidate.localId).filter (· ∉ out)).take (limit - out.length) := by
  induction l generalizing out with
  | nil => simp
  | cons c l ih =>
    have hnodup := List.nodup_cons.mp hl
    rw [List.foldl_cons, List.map_cons]
    rcases pickRejected_cases limit out c with ⟨h, hwhy⟩ | ⟨h, hroom, hnew⟩
    · rw [h, ih hnodup.2]
      rcases hwhy with hfull | hin
      · simp [Nat.sub_eq_zero_of_le hfull]
      · simp [hin]
    · have hskip : (l.map Candidate.localId).filter (· ∉ out ++ [c.localId]) =
          (l.map Candidate.localId).filter (· ∉ out) := by
        refine List.filter_congr fun b hb => ?_
        have hne : b ≠ c.localId := fun heq => hnodup.1 (heq ▸ hb)
        simp [hne]
      have hsucc : limit - out.length = limit - (out ++ [c.localId]).length + 1 := by
        simp
        omega
      rw [h, ih hnodup.2, hskip, List.filter_cons_of_pos (by simpa using hnew), hsucc,
        List.take_succ_cons, List.append_assoc, List.singleton_append]

/-- As many are left out of a part as the whole has more. -/
theorem length_filter_not_mem {part whole : List LocalId} (h : part.Sublist whole)
    (hwhole : whole.Nodup) : (whole.filter (· ∉ part)).length = whole.length - part.length := by
  have hlen := List.length_eq_length_filter_add (l := whole) (· ∈ part)
  rw [filter_mem_sublist h hwhole] at hlen
  simp only [← decide_not] at hlen
  omega

variable [BEq K] [LT K] [DecidableLT K] (std : StdAlgorithms (Candidate K))

theorem selectNeighbours_few {between : LocalId → LocalId → K} {candidates : List (Candidate K)}
    {limit : Nat} (hfew : candidates.length ≤ limit) :
    (selectNeighbours std between candidates limit).1 = candidates.map Candidate.localId := by
  rw [selectNeighbours, if_pos hfew]

/-- Of more candidates than fit, the diverse ones and then the first of the rest. -/
theorem selectNeighbours_many (between : LocalId → LocalId → K)
    {candidates : List (Candidate K)} {limit : Nat}
    (hids : (candidates.map Candidate.localId).Nodup)
    (hmany : limit < candidates.length) :
    ∃ taken, Diverse between limit (std.sort candidateBetter candidates) taken ∧
      taken.length ≤ limit ∧
      (selectNeighbours std between candidates limit).1 =
        taken ++ (((std.sort candidateBetter candidates).map Candidate.localId).filter
          (· ∉ taken)).take (limit - taken.length) := by
  have hperm := std.sort_perm candidateBetter candidates
  have hsorted : ((std.sort candidateBetter candidates).map Candidate.localId).Nodup :=
    (hperm.map _).nodup_iff.mpr hids
  obtain ⟨taken, _, htaken, hlen⟩ :=
    foldl_pickDiverse between limit (std.sort candidateBetter candidates) []
  rw [List.nil_append] at htaken hlen
  refine ⟨taken, htaken ▸ diverse_foldl between limit hsorted, hlen (Nat.zero_le limit), ?_⟩
  rw [selectNeighbours, if_neg (by omega)]
  simp only [htaken]
  exact foldl_pickRejected_eq limit hsorted

theorem length_selectNeighbours (between : LocalId → LocalId → K)
    {candidates : List (Candidate K)} (hids : (candidates.map Candidate.localId).Nodup)
    (limit : Nat) :
    (selectNeighbours std between candidates limit).1.length = min limit candidates.length := by
  by_cases hfew : candidates.length ≤ limit
  · rw [selectNeighbours_few std hfew, List.length_map, Nat.min_eq_right hfew]
  · obtain ⟨taken, hdiverse, hlen, hselected⟩ :=
      selectNeighbours_many std between hids (Nat.not_le.mp hfew)
    have hperm := std.sort_perm candidateBetter candidates
    have hsorted : ((std.sort candidateBetter candidates).map Candidate.localId).Nodup :=
      (hperm.map _).nodup_iff.mpr hids
    have hrest := length_filter_not_mem hdiverse.sublist hsorted
    rw [List.length_map, hperm.length_eq] at hrest
    rw [hselected, List.length_append, List.length_take, hrest]
    omega

/-- The first in order is selected. -/
theorem head_mem_selectNeighbours (between : LocalId → LocalId → K)
    {candidates : List (Candidate K)} (hids : (candidates.map Candidate.localId).Nodup)
    {limit : Nat} (hlimit : 1 ≤ limit) {c : Candidate K} {rest : List (Candidate K)}
    (hhead : std.sort candidateBetter candidates = c :: rest) :
    c.localId ∈ (selectNeighbours std between candidates limit).1 := by
  by_cases hfew : candidates.length ≤ limit
  · rw [selectNeighbours_few std hfew]
    have hperm := std.sort_perm candidateBetter candidates
    rw [hhead] at hperm
    exact List.mem_map_of_mem (hperm.mem_iff.mp List.mem_cons_self)
  · obtain ⟨taken, hdiverse, _, hselected⟩ :=
      selectNeighbours_many std between hids (Nat.not_le.mp hfew)
    rw [hhead] at hdiverse
    rw [hselected]
    exact List.mem_append_left _ (hdiverse.head_mem hlimit)

/-- What is selected, whatever the distances are. -/
theorem selectNeighbours_diverse (between : LocalId → LocalId → K)
    {candidates : List (Candidate K)} (hids : (candidates.map Candidate.localId).Nodup)
    {limit : Nat} (hlimit : 1 ≤ limit) :
    let ordered := std.sort candidateBetter candidates
    let selected := (selectNeighbours std between candidates limit).1
    selected.Nodup ∧ (∀ i ∈ selected, i ∈ candidates.map Candidate.localId) ∧
      selected.length = min limit candidates.length ∧
      ordered.Perm candidates ∧
      (StrictWeakOn candidateBetter candidates → ordered.Pairwise (NotAfter candidateBetter)) ∧
      (limit < candidates.length → ∃ taken, Diverse between limit ordered taken ∧
        selected = taken ++ ((ordered.map Candidate.localId).filter (· ∉ taken)).take
          (limit - taken.length)) ∧
      (∀ c ∈ ordered.head?, c.localId ∈ selected) ∧
      (StrictWeakOn candidateBetter candidates → ∀ c ∈ candidates,
        (∀ d ∈ candidates, d.localId ≠ c.localId → candidateBetter c d = true) →
          c.localId ∈ selected) := by
  intro ordered selected
  obtain ⟨hnodup, _, hmem, _⟩ := selectNeighbours_spec std between candidates limit
  have hhead : ∀ c ∈ ordered.head?, c.localId ∈ selected := by
    intro c hc
    obtain ⟨rest, hrest⟩ := List.head?_eq_some_iff.mp hc
    exact head_mem_selectNeighbours std between hids hlimit hrest
  refine ⟨hnodup hids, hmem, length_selectNeighbours std between hids limit,
    std.sort_perm _ _, std.sort_sortedOn _ _, fun hmany => ?_, hhead, fun hweak c hc hbest => ?_⟩
  · obtain ⟨taken, hdiverse, _, hselected⟩ := selectNeighbours_many std between hids hmany
    exact ⟨taken, hdiverse, hselected⟩
  · have hperm : ordered.Perm candidates := std.sort_perm _ _
    have hsorted : ordered.Pairwise (NotAfter candidateBetter) := std.sort_sortedOn _ _ hweak
    cases hordered : ordered with
    | nil =>
      have hin : c ∈ ordered := hperm.mem_iff.mpr hc
      rw [hordered] at hin
      cases hin
    | cons first rest =>
      have hfirst : first.localId ∈ selected := hhead first (by simp [hordered])
      by_cases heq : first.localId = c.localId
      · rwa [← heq]
      · rw [hordered] at hperm hsorted
        have hbetter := hbest first (hperm.mem_iff.mp List.mem_cons_self) heq
        have hin : c ∈ rest := by
          have := hperm.mem_iff.mpr hc
          simpa [show c ≠ first from fun h => heq (h ▸ rfl)] using this
        rw [(List.pairwise_cons.mp hsorted).1 c hin] at hbetter
        cases hbetter

/-- Of four candidates two are selected, the closest among them. -/
theorem selectNeighbours_diverse_four :
    let candidates : List (Candidate Nat) := [⟨4, 9⟩, ⟨3, 5⟩, ⟨1, 4⟩, ⟨2, 6⟩]
    let between : LocalId → LocalId → Nat := fun i j => if i = 3 ∧ j = 1 then 2 else 7
    (selectNeighbours .insertion between candidates 2).1.length = 2 ∧
      1 ∈ (selectNeighbours .insertion between candidates 2).1 := by
  intro candidates between
  have hids : (candidates.map Candidate.localId).Nodup := by decide
  have h := selectNeighbours_diverse .insertion between hids (show 1 ≤ 2 by decide)
  exact ⟨h.2.2.1, h.2.2.2.2.2.2.1 ⟨1, 4⟩ (by decide)⟩

end HnswIndex

end VectorDb.Index
