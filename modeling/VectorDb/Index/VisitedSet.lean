import VectorDb.Index.HnswInvariant

/-!
The generation stamps of a thread's searches, and the set they stand for: what the latest
search has visited so far.
-/
set_option autoImplicit false

namespace VectorDb.Index

structure VisitedSet where
  stamps : List (BitVec 32)
  generation : BitVec 32
  deriving DecidableEq, Repr

namespace VisitedSet

/-- Before a thread's first search. -/
def empty : VisitedSet := ⟨[], 0⟩

def capacity (v : VisitedSet) : Nat := v.stamps.length

def resize (v : VisitedSet) (count : Nat) : VisitedSet :=
  if v.stamps.length < count then
    { v with stamps := v.stamps ++ List.replicate (count - v.stamps.length) 0 }
  else v

def beginSearch (v : VisitedSet) : VisitedSet :=
  if v.generation + 1 = 0 then ⟨List.replicate v.stamps.length 0, 1⟩
  else { v with generation := v.generation + 1 }

/-- Whether the node is new, and the set with it; nothing past the last stamp. -/
def visit (v : VisitedSet) (id : LocalId) : Option (Bool × VisitedSet) := do
  if (← v.stamps[id]?) = v.generation then return (false, v)
  else return (true, { v with stamps := v.stamps.set id v.generation })

inductive Call where
  | resize (count : Nat)
  | beginSearch
  | visit (id : LocalId)
  deriving DecidableEq, Repr

def step (v : VisitedSet) : Call → Option VisitedSet
  | .resize count => some (v.resize count)
  | .beginSearch => some v.beginSearch
  | .visit id => (v.visit id).map Prod.snd

def run (v : VisitedSet) (calls : List Call) : Option VisitedSet := calls.foldlM step v

/-- No stamp is from a generation to come. -/
def Bounded (v : VisitedSet) : Prop := ∀ stamp ∈ v.stamps, stamp.toNat ≤ v.generation.toNat

/-- A set that stands for the nodes `seen` by a search. -/
structure Represents (v : VisitedSet) (seen : LocalId → Prop) : Prop where
  bounded : v.Bounded
  started : v.generation ≠ 0
  below : ∀ id, seen id → id < v.capacity
  stamped : ∀ id stamp, v.stamps[id]? = some stamp → (stamp = v.generation ↔ seen id)

section Steps
variable {v w : VisitedSet} {seen : LocalId → Prop} {id : LocalId} {found : Bool}

theorem empty_bounded : empty.Bounded := nofun

theorem Bounded.resize (h : v.Bounded) (count : Nat) : (v.resize count).Bounded := by
  intro stamp hstamp
  unfold VisitedSet.resize at hstamp ⊢
  split at hstamp
  next hlt =>
    rw [if_pos hlt]
    rw [List.mem_append, List.mem_replicate] at hstamp
    cases hstamp with
    | inl hold => exact h stamp hold
    | inr hnew =>
      rw [hnew.2]
      exact Nat.zero_le _
  next hge =>
    rw [if_neg hge]
    exact h stamp hstamp

/-- Starting over clears the stamps where the counter has come round, and leaves them behind
otherwise. -/
theorem Bounded.beginSearch (h : v.Bounded) : v.beginSearch.Represents fun _ => False := by
  unfold VisitedSet.beginSearch
  split
  next hwrap =>
    have hzero : ∀ stamp ∈ List.replicate v.stamps.length 0#32, stamp = 0 :=
      fun stamp hstamp => List.eq_of_mem_replicate hstamp
    have hone : (1 : BitVec 32) ≠ 0 := by decide
    refine ⟨fun stamp hstamp => ?_, hone, nofun, fun id stamp hstamp => ?_⟩
    · rw [hzero stamp hstamp]
      exact Nat.zero_le _
    · rw [hzero stamp (List.mem_of_getElem? hstamp)]
      simp
  next hnext =>
    have hsucc : (v.generation + 1).toNat = v.generation.toNat + 1 := by
      have hlt := v.generation.isLt
      have hne : v.generation.toNat + 1 ≠ 2 ^ 32 := by
        intro heq
        apply hnext
        apply BitVec.eq_of_toNat_eq
        rw [BitVec.toNat_add]
        simp [heq]
      rw [BitVec.toNat_add, show (1 : BitVec 32).toNat = 1 from rfl, Nat.mod_eq_of_lt (by omega)]
    have hbehind : ∀ stamp ∈ v.stamps, stamp.toNat < (v.generation + 1).toNat := by
      intro stamp hstamp
      have hle := h stamp hstamp
      omega
    refine ⟨fun stamp hstamp => ?_, hnext, nofun, fun id stamp hstamp => ?_⟩
    · exact (hbehind stamp hstamp).le
    · have hlt := hbehind stamp (List.mem_of_getElem? hstamp)
      simp only [iff_false]
      rintro rfl
      exact Nat.lt_irrefl _ hlt

/-- New stamps are of generation 0, which no search has. -/
theorem Represents.resize (h : v.Represents seen) (count : Nat) :
    (v.resize count).Represents seen := by
  have hb := h.bounded.resize count
  unfold VisitedSet.resize at hb ⊢
  split at hb
  next hlt =>
    rw [if_pos hlt]
    refine ⟨hb, h.started, fun id hid => ?_, fun id stamp hstamp => ?_⟩
    · exact (h.below id hid).trans_le (by simp [capacity])
    · rw [List.getElem?_append] at hstamp
      split at hstamp
      · exact h.stamped id stamp hstamp
      next hge =>
        have hzero : stamp = 0 := List.eq_of_mem_replicate (List.mem_of_getElem? hstamp)
        have hunseen : ¬ seen id := fun hid => hge (h.below id hid)
        simp only [hunseen, iff_false, hzero]
        exact h.started.symm
  next hge =>
    rw [if_neg hge]
    exact h

/-- A visit tells whether the node is new, and it is not new afterwards. -/
theorem Represents.visit (h : v.Represents seen) (hid : id < v.capacity) :
    ∃ found w, v.visit id = some (found, w) ∧ (found = true ↔ ¬ seen id) ∧
      w.capacity = v.capacity ∧ w.Represents fun i => i = id ∨ seen i := by
  have hstamp : v.stamps[id]? = some (v.stamps.get ⟨id, hid⟩) := List.getElem?_eq_getElem hid
  have hiff := h.stamped id _ hstamp
  rw [VisitedSet.visit, hstamp, Option.bind_eq_bind, Option.bind_some]
  by_cases hsame : v.stamps.get ⟨id, hid⟩ = v.generation
  · have hseen := hiff.mp hsame
    rw [if_pos hsame]
    refine ⟨false, v, rfl, by simp [hseen], rfl, ?_⟩
    have hall : (fun i => i = id ∨ seen i) = seen := by
      funext i
      apply propext
      constructor
      · rintro (rfl | hi)
        · exact hseen
        · exact hi
      · exact Or.inr
    rwa [hall]
  · have hnew : ¬ seen id := fun hseen => hsame (hiff.mpr hseen)
    rw [if_neg hsame]
    refine ⟨true, _, rfl, by simp [hnew], List.length_set, ?_, h.started, ?_, ?_⟩
    · intro stamp hmem
      rcases List.mem_or_eq_of_mem_set hmem with hold | rfl
      · exact h.bounded stamp hold
      · exact le_rfl
    · rintro i (rfl | hi)
      · simpa [capacity] using hid
      · simpa [capacity] using h.below i hi
    · intro i stamp hi
      rw [List.getElem?_set] at hi
      by_cases hi' : id = i
      · rw [if_pos hi', if_pos (show id < v.stamps.length from hid)] at hi
        simp [← hi', (Option.some.inj hi).symm]
      · rw [if_neg hi'] at hi
        rw [h.stamped i stamp hi, or_iff_right (Ne.symm hi')]

/-- A visit puts the node in front of those listed, unless it is among them. -/
theorem Represents.visit_cons {seen : List LocalId} (h : v.Represents (· ∈ seen))
    (hid : id < v.capacity) :
    ∃ w, v.visit id = some (decide (id ∉ seen), w) ∧ w.capacity = v.capacity ∧
      w.Represents (· ∈ if id ∈ seen then seen else id :: seen) := by
  obtain ⟨found, w, hvisit, hfound, hcapacity, hr⟩ := h.visit hid
  have hdecide : found = decide (id ∉ seen) := by
    rw [Bool.eq_iff_iff, hfound, decide_eq_true_iff]
  refine ⟨w, hdecide ▸ hvisit, hcapacity, ?_⟩
  have hall : (fun i => i = id ∨ i ∈ seen) = (· ∈ if id ∈ seen then seen else id :: seen) := by
    funext i
    apply propext
    split
    next hseen =>
      refine ⟨?_, .inr⟩
      rintro (rfl | hi)
      · exact hseen
      · exact hi
    next => exact List.mem_cons.symm
  rwa [← hall]

theorem capacity_resize_beginSearch (v : VisitedSet) (count : Nat) :
    count ≤ (v.resize count).beginSearch.capacity := by
  have hresize : count ≤ (v.resize count).stamps.length := by
    unfold VisitedSet.resize
    split
    · rw [List.length_append, List.length_replicate]
      omega
    · omega
  unfold VisitedSet.beginSearch
  split
  · rwa [capacity, List.length_replicate]
  · exact hresize

theorem Bounded.visit (h : v.Bounded) (hv : v.visit id = some (found, w)) : w.Bounded := by
  rw [VisitedSet.visit] at hv
  obtain ⟨stamp, -, hv⟩ := Option.bind_eq_some_iff.mp hv
  split at hv
  · cases hv
    exact h
  · cases hv
    intro stamp hmem
    rcases List.mem_or_eq_of_mem_set hmem with hold | rfl
    · exact h stamp hold
    · exact le_rfl

end Steps

section Runs
variable {v w : VisitedSet} {seen : LocalId → Prop}

theorem Bounded.step (h : v.Bounded) {call : Call} (hv : v.step call = some w) : w.Bounded := by
  cases call with
  | resize count =>
    cases hv
    exact h.resize count
  | beginSearch =>
    cases hv
    exact h.beginSearch.bounded
  | visit id =>
    obtain ⟨⟨found, w'⟩, hvisit, rfl⟩ := Option.map_eq_some_iff.mp hv
    exact h.visit hvisit

theorem Bounded.run (h : v.Bounded) {calls : List Call} (hv : v.run calls = some w) :
    w.Bounded := by
  induction calls generalizing v with
  | nil =>
    cases hv
    exact h
  | cons call calls ih =>
    obtain ⟨v', hstep, hrest⟩ := Option.bind_eq_some_iff.mp hv
    exact ih (h.step hstep) hrest

/-- Up to the next search, what is seen grows by the nodes visited. -/
theorem Represents.run (h : v.Represents seen) {calls : List Call}
    (hcalls : Call.beginSearch ∉ calls) (hv : v.run calls = some w) :
    w.Represents fun id => Call.visit id ∈ calls ∨ seen id := by
  induction calls generalizing v seen with
  | nil =>
    cases hv
    simpa using h
  | cons call calls ih =>
    obtain ⟨v', hstep, hrest⟩ := Option.bind_eq_some_iff.mp hv
    rw [List.mem_cons, not_or] at hcalls
    cases call with
    | resize count =>
      cases hstep
      simpa using ih (h.resize count) hcalls.2 hrest
    | beginSearch => exact absurd rfl hcalls.1
    | visit id =>
      obtain ⟨⟨found, w'⟩, hvisit, rfl⟩ := Option.map_eq_some_iff.mp hstep
      have hid : id < v.capacity := by
        obtain ⟨stamp, hstamp, -⟩ := Option.bind_eq_some_iff.mp hvisit
        exact (List.getElem?_eq_some_iff.mp hstamp).1
      obtain ⟨_, _, hvisit', -, -, hr⟩ := h.visit hid
      rw [hvisit] at hvisit'
      cases hvisit'
      have hlast := ih hr hcalls.2 hrest
      have hall : (fun i => Call.visit i ∈ Call.visit id :: calls ∨ seen i) =
          fun i => Call.visit i ∈ calls ∨ i = id ∨ seen i := by
        funext i
        rw [List.mem_cons, Call.visit.injEq, or_left_comm, or_assoc]
      rwa [hall]

/-- After any run, a node is new exactly when it was not visited since the search began. -/
theorem visit_eq_true_iff {before after : List Call} (hlast : Call.beginSearch ∉ after)
    (hrun : empty.run (before ++ .beginSearch :: after) = some v) {id : LocalId}
    (hid : id < v.capacity) :
    ∃ found w, v.visit id = some (found, w) ∧ (found = true ↔ Call.visit id ∉ after) := by
  rw [VisitedSet.run, List.foldlM_append] at hrun
  obtain ⟨u, hbefore, hrun⟩ := Option.bind_eq_some_iff.mp hrun
  have hu : u.Bounded := empty_bounded.run hbefore
  have hr := hu.beginSearch.run hlast hrun
  obtain ⟨found, w, hvisit, hfound, -, -⟩ := hr.visit hid
  exact ⟨found, w, hvisit, by simpa using hfound⟩

end Runs

/-- A set that grows while a search is under way. -/
theorem visit_eq_true_iff_resized :
    ∃ found w, (⟨[1, 0], 1⟩ : VisitedSet).visit 1 = some (found, w) ∧
      (found = true ↔ Call.visit 1 ∉ [Call.resize 2, Call.visit 0]) :=
  @visit_eq_true_iff ⟨[1, 0], 1⟩ [.resize 1] [.resize 2, .visit 0] (by decide) rfl 1 (by decide)

end VisitedSet

namespace HnswIndex

open VectorDb.Lib

variable {K : Type} [BEq K] [LT K] [DecidableLT K]
variable (std : StdAlgorithms (Candidate K)) (h : HnswIndex) (key : LocalId → K)

/-- The scratch space of a thread, as a layer search uses it. -/
structure SearchScratch (K : Type) where
  visited : VisitedSet
  candidates : List (Candidate K)
  results : List (Candidate K)

namespace SearchScratch

def offerEntry (s : SearchScratch K) (entry : LocalId) : Option (SearchScratch K) := do
  let (found, visited) ← s.visited.visit entry
  if found then
    return { visited
             candidates := pushFrontier std s.candidates ⟨entry, key entry⟩
             results := pushBest std s.results ⟨entry, key entry⟩ }
  else return { s with visited }

def offerNeighbour (ef : Nat) (s : SearchScratch K) (neighbour : LocalId) :
    Option (SearchScratch K) := do
  let (found, visited) ← s.visited.visit neighbour
  if !found then return { s with visited }
  else if admits ef s.results (key neighbour) then
    return { visited
             candidates := pushFrontier std s.candidates ⟨neighbour, key neighbour⟩
             results := trimBest std ef (pushBest std s.results ⟨neighbour, key neighbour⟩) }
  else return { s with visited }

def searchLoop (ef layer : Nat) : Nat → SearchScratch K → Option (SearchScratch K)
  | 0, s => some s
  | fuel + 1, s =>
    match (std.popHeap candidateWorse s.candidates).getLast? with
    | none => some s
    | some current => do
      let s := { s with candidates := (std.popHeap candidateWorse s.candidates).dropLast }
      if stops ef s.results current then return s
      else
        let s ← (h.neighbours current.localId layer).foldlM (offerNeighbour std key ef) s
        searchLoop ef layer fuel s

/-- `search_layer`, with the visited set the thread had left and the one it leaves. -/
def searchLayer (visited : VisitedSet) (entryPoints : List LocalId) (ef layer : Nat) :
    Option (List (Candidate K) × VisitedSet) := do
  let visited := (visited.resize h.nodeCount).beginSearch
  let s ← entryPoints.foldlM (offerEntry std key) ⟨visited, [], []⟩
  let s ← searchLoop std h key ef layer (h.nodeCount + 1) s
  return (std.sort candidateBetter s.results, s.visited)

/-- The scratch space of a search whose visited nodes are listed. -/
structure Simulates (n : Nat) (s : SearchScratch K) (t : LayerSearch K) : Prop where
  candidates : s.candidates = t.frontier
  results : s.results = t.best
  visited : s.visited.Represents (· ∈ t.visited)
  capacity : n ≤ s.visited.capacity

section Simulation
variable (ef : Nat) {h} {n : Nat} {s : SearchScratch K} {t : LayerSearch K}

theorem Simulates.offerEntry (hs : Simulates n s t) {entry : LocalId} (he : entry < n) :
    ∃ s', offerEntry std key s entry = some s' ∧
      Simulates n s' (HnswIndex.offerEntry std key t entry) := by
  obtain ⟨visited, hvisit, hcap, hr⟩ := hs.visited.visit_cons (he.trans_le hs.capacity)
  rw [SearchScratch.offerEntry, hvisit, Option.bind_eq_bind, Option.bind_some,
    HnswIndex.offerEntry]
  dsimp only
  have hcap := hs.capacity.trans_eq hcap.symm
  by_cases hseen : entry ∈ t.visited
  · rw [if_pos hseen] at hr ⊢
    rw [if_neg (by simpa using hseen)]
    exact ⟨_, rfl, hs.candidates, hs.results, hr, hcap⟩
  · rw [if_neg hseen] at hr ⊢
    rw [if_pos (by simpa using hseen), hs.candidates, hs.results]
    exact ⟨_, rfl, rfl, rfl, hr, hcap⟩

theorem Simulates.offerNeighbour (hs : Simulates n s t) {neighbour : LocalId}
    (hn : neighbour < n) :
    ∃ s', offerNeighbour std key ef s neighbour = some s' ∧
      Simulates n s' (HnswIndex.offerNeighbour std key ef t neighbour) := by
  obtain ⟨visited, hvisit, hcap, hr⟩ := hs.visited.visit_cons (hn.trans_le hs.capacity)
  rw [SearchScratch.offerNeighbour, hvisit, Option.bind_eq_bind, Option.bind_some,
    HnswIndex.offerNeighbour]
  dsimp only
  have hcap := hs.capacity.trans_eq hcap.symm
  by_cases hseen : neighbour ∈ t.visited
  · rw [if_pos hseen] at hr ⊢
    rw [if_pos (by simpa using hseen)]
    exact ⟨_, rfl, hs.candidates, hs.results, hr, hcap⟩
  · rw [if_neg hseen] at hr ⊢
    rw [if_neg (by simpa using hseen), hs.candidates, hs.results]
    split
    · exact ⟨_, rfl, rfl, rfl, hr, hcap⟩
    · exact ⟨_, rfl, rfl, rfl, hr, hcap⟩

omit [BEq K] [LT K] [DecidableLT K] in
/-- A fold that simulates another one turn by turn. -/
theorem Simulates.foldlM {f : SearchScratch K → LocalId → Option (SearchScratch K)}
    {g : LayerSearch K → LocalId → LayerSearch K} {ids : List LocalId}
    (hf : ∀ s t id, id ∈ ids → Simulates n s t → ∃ s', f s id = some s' ∧ Simulates n s' (g t id))
    (hs : Simulates n s t) :
    ∃ s', ids.foldlM f s = some s' ∧ Simulates n s' (ids.foldl g t) := by
  induction ids generalizing s t with
  | nil => exact ⟨s, rfl, hs⟩
  | cons id ids ih =>
    obtain ⟨s', hstep, hs'⟩ := hf s t id List.mem_cons_self hs
    rw [List.foldlM_cons, hstep, Option.bind_eq_bind, Option.bind_some, List.foldl_cons]
    exact ih (fun s t i hi => hf s t i (List.mem_cons_of_mem id hi)) hs'

theorem Simulates.searchLoop {layer : Nat} (hlist : ∀ i, ∀ j ∈ h.neighbours i layer, j < n)
    (fuel : Nat) (hs : Simulates n s t) :
    ∃ s', searchLoop std h key ef layer fuel s = some s' ∧
      Simulates n s' (HnswIndex.searchLoop std h key ef layer fuel t) := by
  induction fuel generalizing s t with
  | zero => exact ⟨s, rfl, hs⟩
  | succ fuel ih =>
    rw [SearchScratch.searchLoop, HnswIndex.searchLoop, hs.candidates]
    cases (std.popHeap candidateWorse t.frontier).getLast? with
    | none => exact ⟨s, rfl, hs⟩
    | some current =>
      have hpop : Simulates n
          { s with candidates := (std.popHeap candidateWorse t.frontier).dropLast }
          { t with frontier := (std.popHeap candidateWorse t.frontier).dropLast } :=
        ⟨rfl, hs.results, hs.visited, hs.capacity⟩
      dsimp only
      rw [hs.results]
      split
      · exact ⟨_, rfl, rfl, rfl, hs.visited, hs.capacity⟩
      · have hoffer : ∀ s t id, id ∈ h.neighbours current.localId layer → Simulates n s t →
            ∃ s', SearchScratch.offerNeighbour std key ef s id = some s' ∧
              Simulates n s' (HnswIndex.offerNeighbour std key ef t id) :=
          fun s t id hid hst => hst.offerNeighbour std key ef (hlist current.localId id hid)
        obtain ⟨s', hfold, hs'⟩ := hpop.foldlM hoffer
        rw [hs.results] at hfold
        rw [hfold, Option.bind_eq_bind, Option.bind_some]
        exact ih hs'

/-- Whatever searches a thread made before, over this graph or another one, a layer search
returns what it would with a list of what it visited. -/
theorem searchLayer_eq (hr : h.Representation) {v : VisitedSet} (hv : v.Bounded)
    {entryPoints : List LocalId} (hentries : ∀ entry ∈ entryPoints, entry < h.nodeCount)
    (layer : Nat) :
    ∃ v', searchLayer std h key v entryPoints ef layer =
        some (HnswIndex.searchLayer std h key entryPoints ef layer, v') ∧ v'.Bounded := by
  have hlist : ∀ i, ∀ j ∈ h.neighbours i layer, j < h.nodeCount := by
    intro i j hj
    by_cases hb : h.HasBlock i layer
    · exact (hr.neighbour i layer hb j hj).1
    · rw [neighbours_of_not_hasBlock hb] at hj
      cases hj
  have hstart : Simulates h.nodeCount
      (⟨(v.resize h.nodeCount).beginSearch, [], []⟩ : SearchScratch K) ⟨[], [], []⟩ := by
    refine ⟨rfl, rfl, ?_, ?_⟩
    · simpa using (hv.resize h.nodeCount).beginSearch
    · exact VisitedSet.capacity_resize_beginSearch v h.nodeCount
  have hoffer : ∀ s t id, id ∈ entryPoints → Simulates h.nodeCount s t →
      ∃ s', offerEntry std key s id = some s' ∧
        Simulates h.nodeCount s' (HnswIndex.offerEntry std key t id) :=
    fun s t id hid hst => hst.offerEntry std key (hentries id hid)
  obtain ⟨s, hentry, hs⟩ := hstart.foldlM hoffer
  obtain ⟨s', hloop, hs'⟩ := hs.searchLoop std key ef hlist (h.nodeCount + 1)
  refine ⟨s'.visited, ?_, hs'.visited.bounded⟩
  rw [searchLayer]
  simp only [hentry, Option.bind_eq_bind, Option.bind_some, hloop, hs'.results]
  rfl

end Simulation

end SearchScratch

end HnswIndex

end VectorDb.Index
