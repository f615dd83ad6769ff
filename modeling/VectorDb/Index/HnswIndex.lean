import VectorDb.Index.Candidate
import VectorDb.Index.HnswConfig
import VectorDb.Lib.Blocks

/-!
The graph of src/index/hnsw/hnsw_index.cpp in its flat arrays: construction,
layer search, neighbour selection and search.

The rank keys come from outside: `SlotView.key a b` stands for
`distance_.with_norms` of two slots and `Query.key b` for that of the query and
a slot. A visited set is the list of what was visited.
-/
set_option autoImplicit false

namespace VectorDb.Index

open VectorDb.Lib

/-- What an index sees of the store through its accessor. -/
structure SlotView (K : Type) where
  dimension : Dimension
  size : Nat
  size_le : size ≤ kMaxVectorCount
  key : LocalId → LocalId → K
  live : LocalId → Bool

/-- A query vector: its length, and its rank key to each slot. -/
structure Query (K : Type) where
  size : Nat
  key : LocalId → K

structure SearchParams where
  k : Nat
  efSearch : Nat

structure HnswIndex where
  metric : Metric
  config : HnswConfig
  nodeLevel : List Nat
  layer0Links : List LocalId
  upperLinks : List LocalId
  upperOffsets : List Nat
  entryPoint : LocalId
  maxLevel : Nat
  liveCount : Nat
  rng : BitVec 64
  deriving DecidableEq, Repr

def kNoUpperLinks : Nat := 4294967295

/-- `splitmix64`: the new state and the value drawn. -/
def splitmix64 (state : BitVec 64) : BitVec 64 × BitVec 64 :=
  let state := state + 0x9E3779B97F4A7C15#64
  let z := (state ^^^ (state >>> 30)) * 0xBF58476D1CE4E5B9#64
  let z := (z ^^^ (z >>> 27)) * 0x94D049BB133111EB#64
  (state, z ^^^ (z >>> 31))

namespace HnswIndex

/-- The constructor, once `config` has passed `validate`. -/
def empty (metric : Metric) (config : HnswConfig) : HnswIndex :=
  ⟨metric, config, [], [], [], [], kInvalidLocalId, 0, 0, config.seed⟩

def create (metric : Metric) (config : HnswConfig) : Except Error HnswIndex := do
  config.validate
  return empty metric config

def nodeCount (h : HnswIndex) : Nat := h.nodeLevel.length

def level (h : HnswIndex) (node : LocalId) : Nat := h.nodeLevel.getD node 0

def layer0Stride (h : HnswIndex) : Nat := h.config.maxM0 + 1

def upperStride (h : HnswIndex) : Nat := h.config.m + 1

/-- Which array `links` points into, and where. -/
def linkArray (h : HnswIndex) (layer : Nat) : List LocalId :=
  if layer = 0 then h.layer0Links else h.upperLinks

def linkPos (h : HnswIndex) (node : LocalId) (layer : Nat) : Nat :=
  if layer = 0 then node * h.layer0Stride
  else h.upperOffsets.getD node 0 + (layer - 1) * h.upperStride

def withLinkArray (h : HnswIndex) (layer : Nat) (a : List LocalId) : HnswIndex :=
  if layer = 0 then { h with layer0Links := a } else { h with upperLinks := a }

/-- The neighbours in the block `links` points to, with no check. -/
def block (h : HnswIndex) (node : LocalId) (layer : Nat) : List LocalId :=
  readBlock (h.linkArray layer) (h.linkPos node layer)

def neighbours (h : HnswIndex) (node : LocalId) (layer : Nat) : List LocalId :=
  if h.nodeCount ≤ node then []
  else if h.level node < layer then []
  else h.block node layer

def setNeighbours (h : HnswIndex) (node : LocalId) (layer : Nat) (ids : List LocalId) :
    HnswIndex :=
  h.withLinkArray layer (writeBlock (h.linkArray layer) (h.linkPos node layer) ids)

section Search

variable {K : Type} [BEq K] [LT K] [DecidableLT K]
variable (std : StdAlgorithms (Candidate K)) (h : HnswIndex) (key : LocalId → K)

/-- One pass of `greedy_descend` over a neighbour list: where it stands, at what
distance, and whether it improved. -/
def descendPass (candidates : List LocalId) (current : LocalId) (distance : K) :
    LocalId × K × Bool :=
  candidates.foldl
    (fun s neighbour => if key neighbour < s.2.1 then (neighbour, key neighbour, true) else s)
    (current, distance, false)

/-- The `while (improved)` loop. -/
def descendLoop (layer : Nat) : Nat → LocalId → K → LocalId
  | 0, current, _ => current
  | fuel + 1, current, distance =>
    match descendPass key (h.neighbours current layer) current distance with
    | (next, d, true) => descendLoop layer fuel next d
    | (next, _, false) => next

def greedyDescend (entry : LocalId) (layer : Nat) : LocalId :=
  descendLoop h key layer (h.nodeCount + 1) entry (key entry)

/-- `for (layer = top; layer > low; --layer)`. -/
def descendLayers (low : Nat) : Nat → LocalId → LocalId
  | 0, entry => entry
  | top + 1, entry =>
    if low < top + 1 then descendLayers low top (greedyDescend h key entry (top + 1)) else entry

/-- The scratch space of one layer search. -/
structure LayerSearch (K : Type) where
  visited : List LocalId
  frontier : List (Candidate K)
  best : List (Candidate K)

def pushFrontier (frontier : List (Candidate K)) (c : Candidate K) : List (Candidate K) :=
  std.pushHeap candidateWorse (frontier ++ [c])

def pushBest (best : List (Candidate K)) (c : Candidate K) : List (Candidate K) :=
  std.pushHeap candidateBetter (best ++ [c])

def offerEntry (s : LayerSearch K) (entry : LocalId) : LayerSearch K :=
  if entry ∈ s.visited then s
  else
    { visited := entry :: s.visited
      frontier := pushFrontier std s.frontier ⟨entry, key entry⟩
      best := pushBest std s.best ⟨entry, key entry⟩ }

/-- `best.pop_back()` after `pop_heap`, where there are more than `ef`. -/
def trimBest (ef : Nat) (best : List (Candidate K)) : List (Candidate K) :=
  if ef < best.length then (std.popHeap candidateBetter best).dropLast else best

/-- `best.size() < ef || d < best.front().key`. -/
def admits (ef : Nat) (best : List (Candidate K)) (d : K) : Bool :=
  best.length < ef ||
    match best.head? with
    | some worst => decide (d < worst.key)
    | none => false

def offerNeighbour (ef : Nat) (s : LayerSearch K) (neighbour : LocalId) : LayerSearch K :=
  if neighbour ∈ s.visited then s
  else if admits ef s.best (key neighbour) then
    { visited := neighbour :: s.visited
      frontier := pushFrontier std s.frontier ⟨neighbour, key neighbour⟩
      best := trimBest std ef (pushBest std s.best ⟨neighbour, key neighbour⟩) }
  else { s with visited := neighbour :: s.visited }

/-- `best.size() >= ef && kBetter(best.front(), current)`. -/
def stops (ef : Nat) (best : List (Candidate K)) (current : Candidate K) : Bool :=
  ef ≤ best.length &&
    match best.head? with
    | some worst => candidateBetter worst current
    | none => false

/-- `while (!frontier.empty())`. -/
def searchLoop (ef layer : Nat) : Nat → LayerSearch K → LayerSearch K
  | 0, s => s
  | fuel + 1, s =>
    match (std.popHeap candidateWorse s.frontier).getLast? with
    | none => s
    | some current =>
      let s := { s with frontier := (std.popHeap candidateWorse s.frontier).dropLast }
      if stops ef s.best current then s
      else
        searchLoop ef layer fuel
          ((h.neighbours current.localId layer).foldl (offerNeighbour std key ef) s)

def searchLayer (entryPoints : List LocalId) (ef layer : Nat) : List (Candidate K) :=
  let s := entryPoints.foldl (offerEntry std key) ⟨[], [], []⟩
  std.sort candidateBetter (searchLoop std h key ef layer (h.nodeCount + 1) s).best

/-- What `search` does once its arguments are checked; `ef` is the width. -/
def searchFrom (live : LocalId → Bool) (k ef : Nat) : List (Candidate K) :=
  if h.entryPoint = kInvalidLocalId then []
  else
    let entry := descendLayers h key 0 h.maxLevel h.entryPoint
    let found := searchLayer std h key [entry] ef 0
    (found.filter fun c => live c.localId).take k

/-- `std::max(params.k, params.ef_search > 0 ? params.ef_search : config_.ef_search)`. -/
def searchWidth (params : SearchParams) : Nat :=
  max params.k (if 0 < params.efSearch then params.efSearch else h.config.efSearch)

def search (view : SlotView K) (query : Query K) (params : SearchParams) :
    Except Error (List (Candidate K)) :=
  if params.k = 0 then .error (.invalidArgument "search requires k >= 1")
  else if query.size ≠ view.dimension then
    .error (.dimensionMismatch view.dimension query.size)
  else .ok (searchFrom std h query.key view.live params.k (h.searchWidth params))

end Search

section Selection

variable {K : Type} [BEq K] [LT K] [DecidableLT K]
variable (std : StdAlgorithms (Candidate K)) (key : LocalId → LocalId → K)

/-- The accepted candidate is closer to the target than to anything chosen. -/
def pickDiverse (limit : Nat) (out : List LocalId) (c : Candidate K) : List LocalId :=
  if limit ≤ out.length then out
  else if out.any fun chosen => decide (key c.localId chosen < c.key) then out
  else out ++ [c.localId]

def pickRejected (limit : Nat) (out : List LocalId) (c : Candidate K) : List LocalId :=
  if limit ≤ out.length then out
  else if c.localId ∈ out then out
  else out ++ [c.localId]

/-- The neighbours chosen, and the candidates as they are left, sorted when there
were more than `limit`. -/
def selectNeighbours (candidates : List (Candidate K)) (limit : Nat) :
    List LocalId × List (Candidate K) :=
  if candidates.length ≤ limit then (candidates.map Candidate.localId, candidates)
  else
    let sorted := std.sort candidateBetter candidates
    let out := sorted.foldl (pickDiverse key limit) []
    (sorted.foldl (pickRejected limit) out, sorted)

/-- `link`: append where there is room, otherwise select again. -/
def link (h : HnswIndex) (source target : LocalId) (layer : Nat) : HnswIndex :=
  let limit := h.config.maxNeighbours layer
  let a := h.linkArray layer
  let pos := h.linkPos source layer
  if blockCount a pos < limit then h.withLinkArray layer (pushBlock a pos target)
  else
    let candidates := (readBlock a pos ++ [target]).map fun id => ⟨id, key source id⟩
    h.setNeighbours source layer (selectNeighbours std key candidates limit).1

end Selection

section Add

variable {K : Type} [BEq K] [LT K] [DecidableLT K]
variable (std : StdAlgorithms (Candidate K)) (view : SlotView K)

/-- What `add` appends to the arrays before it wires the node. `narrow` is the
cast of an offset to 32 bits. -/
def grow (narrow : Nat → Nat) (h : HnswIndex) (level : Nat) : HnswIndex :=
  { h with
    nodeLevel := h.nodeLevel ++ [level % 256]
    layer0Links := (h.layer0Links ++ List.replicate h.layer0Stride kInvalidLocalId).set
      (h.nodeCount * h.layer0Stride) 0
    upperLinks := (List.range level).foldl
      (fun a i => a.set (narrow h.upperLinks.length + i * h.upperStride) 0)
      (h.upperLinks ++ List.replicate (level * h.upperStride) kInvalidLocalId)
    upperOffsets := h.upperOffsets ++
      [if 0 < level then narrow h.upperLinks.length else kNoUpperLinks]
    liveCount := h.liveCount + 1 }

/-- One turn of the wiring loop: the index, and the next layer's entry points. -/
def wireLayer (id : LocalId) (h : HnswIndex) (layer : Nat) (entryPoints : List LocalId) :
    HnswIndex × List LocalId :=
  let found := searchLayer std h (view.key id) entryPoints h.config.efConstruction layer
  let selected := selectNeighbours std view.key found (h.config.maxNeighbours layer)
  let linked := selected.1.foldl (fun h neighbour => h.link std view.key neighbour id layer)
    (h.setNeighbours id layer selected.1)
  (linked, selected.2.map Candidate.localId)

/-- `for (layer = start + 1; layer-- > 0;)`. -/
def wireLayers (id : LocalId) : Nat → HnswIndex → List LocalId → HnswIndex
  | 0, h, _ => h
  | layer + 1, h, entryPoints =>
    let next := wireLayer std view id h layer entryPoints
    wireLayers id layer next.1 next.2

/-- The node in the arrays gets its neighbours, and the entry point may move. -/
def connect (h : HnswIndex) (id level : Nat) : HnswIndex :=
  let entry := descendLayers h (view.key id) level h.maxLevel h.entryPoint
  let wired := wireLayers std view id (min level h.maxLevel + 1) h [entry]
  if h.maxLevel < level then { wired with maxLevel := level, entryPoint := id } else wired

/-- `add` with the level already drawn. -/
def addWithLevel (narrow : Nat → Nat) (h : HnswIndex) (id : LocalId) (level : Nat) :
    Except Error HnswIndex :=
  if id ≠ h.nodeCount then
    .error (.invalidArgument ("hnsw: nodes must be added in ascending slot order (expected " ++
      toString h.nodeCount ++ ", got " ++ toString id ++ ")"))
  else if view.size ≤ id then
    .error (.invalidArgument ("hnsw: slot " ++ toString id ++
      " is not present in the vector store"))
  else if h.entryPoint = kInvalidLocalId then
    .ok { h.grow narrow level with entryPoint := id, maxLevel := level }
  else .ok (connect std view (h.grow narrow level) id level)

/-- `static_cast<std::uint32_t>`. -/
def narrow32 (n : Nat) : Nat := n % 4294967296

/-- `random_level`: the level and the generator's next state. `levelOf m u` is
the whole part of `-ln(u / 2^24) / ln(m)`, computed in floating point. -/
def randomLevel (levelOf : Nat → BitVec 64 → Nat) (h : HnswIndex) : Nat × BitVec 64 :=
  let drawn := splitmix64 h.rng
  (min (levelOf h.config.m (drawn.2 >>> 40)) 254, drawn.1)

/-- `add`. A call that throws has not drawn a level. -/
def add (levelOf : Nat → BitVec 64 → Nat) (h : HnswIndex) (id : LocalId) :
    Except Error HnswIndex :=
  let drawn := h.randomLevel levelOf
  addWithLevel std view narrow32 { h with rng := drawn.2 } id drawn.1

end Add

def remove (h : HnswIndex) (id : LocalId) : HnswIndex :=
  if h.nodeCount ≤ id then h
  else if 0 < h.liveCount then { h with liveCount := h.liveCount - 1 }
  else h

/-- `rng_state`: what a copy of the generator would draw next. -/
def rngState (h : HnswIndex) : BitVec 64 := (splitmix64 h.rng).2

def restore (h : HnswIndex) (nodeLevels : List Nat) (layer0Links upperLinks : List LocalId)
    (upperOffsets : List Nat) (entryPoint : LocalId) (maxLevel liveCount : Nat)
    (rngState : BitVec 64) : HnswIndex :=
  { h with nodeLevel := nodeLevels, layer0Links := layer0Links, upperLinks := upperLinks,
           upperOffsets := upperOffsets, entryPoint := entryPoint, maxLevel := maxLevel,
           liveCount := liveCount, rng := rngState }

end HnswIndex

end VectorDb.Index
