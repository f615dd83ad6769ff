import VectorDb.Index.HnswRoundTrip

/-!
What a file has passed once `read_hnsw_file` returns, and how it is rejected: nearly
always as damaged.
-/
set_option autoImplicit false

namespace VectorDb.Index

open VectorDb.Lib VectorDb.Persistence ByteReader Throwing

/-- The checks of the header's own fields. -/
structure HnswFileHeader.Checked (f : HnswFileHeader) : Prop where
  dimension_pos : f.dimension ≠ 0
  dimension_le : f.dimension ≤ kMaxDimension
  nodeCount_le : f.nodeCount ≤ kMaxVectorCount
  liveCount_le : f.liveCount ≤ f.nodeCount
  config : f.config.Valid
  upperLinkCount_lt : f.upperLinkCount < 18446744073709551616

theorem HnswConfig.validate_mapError (c : HnswConfig) {e : Error}
    (h : (c.validate.mapError fun e => .corruption
      ("hnsw index: stored configuration is invalid: " ++ e.what)) = .error e) :
    e.isCorruption = true := by
  cases hv : c.validate with
  | ok u =>
    rw [hv] at h
    cases h
  | error d =>
    rw [hv] at h
    cases h
    rfl

theorem readHnswHeader_checks (bytes : Bytes) :
    Checks (readHnswHeader bytes) HnswFileHeader.Checked := by
  unfold readHnswHeader
  refine (Checks.fixedString 8).bind fun magic _ => ?_
  refine (Checks.check rfl).bind fun _ _ => ?_
  refine (Checks.word 4 _).bind fun formatVersion _ => ?_
  refine (Checks.check rfl).bind fun _ _ => ?_
  refine (Checks.check rfl).bind fun _ _ => ?_
  refine (Checks.word 4 _).bind fun dimension _ => ?_
  refine (Checks.check rfl).bind fun _ hdim => ?_
  refine (Checks.word 8 _).bind fun nodeCount _ => ?_
  refine (Checks.check rfl).bind fun _ hnode => ?_
  refine (Checks.word 8 _).bind fun liveCount _ => ?_
  refine (Checks.check rfl).bind fun _ hlive => ?_
  refine (Checks.word 4 _).bind fun m _ => ?_
  refine (Checks.word 4 _).bind fun efConstruction _ => ?_
  refine (Checks.word 4 _).bind fun efSearch _ => ?_
  refine (Checks.word 4 _).bind fun entryPoint _ => ?_
  refine (Checks.word 8 _).bind fun seed _ => ?_
  refine (Checks.word 8 _).bind fun rngState _ => ?_
  refine (Checks.word 4 _).bind fun maxLevel _ => ?_
  refine (Checks.word 1 _).bind fun code _ => ?_
  refine (Checks.fromExcept fun e he => ?_).bind fun metric _ => ?_
  · cases hcode : metricOfCode code with
    | some metric => simp [hcode] at he
    | none =>
      rw [hcode] at he
      cases he
      rfl
  refine (Checks.skip 3).bind fun _ _ => ?_
  refine (Checks.fromExcept fun e he => HnswConfig.validate_mapError _ he).bind
    fun _ hconfig => ?_
  refine (Checks.word 8 _).bind fun layer0LinkCount _ => ?_
  refine (Checks.word 8 _).bind fun upperLinkCount hupper => ?_
  refine (Checks.word 4 _).bind fun payloadCrc _ => ?_
  refine Checks.pure ⟨hdim.1, hdim.2, hnode, hlive, ?_, by norm_num at hupper; exact hupper⟩
  cases hv : (⟨m, efConstruction, efSearch, BitVec.ofNat 64 seed⟩ : HnswConfig).validate with
  | ok u => exact (HnswConfig.validate_eq_ok_iff _).mp hv
  | error e =>
    rw [hv] at hconfig
    cases hconfig

/-- A header that passed every check, of a file of this size. -/
structure HnswFileHeader.Accepted (f : HnswFileHeader) (fileSize : Nat) : Prop extends f.Checked where
  layer0LinkCount : f.layer0LinkCount = f.nodeCount * (f.config.maxM0 + 1)
  maxLevel_le : f.maxLevel ≤ 254
  entry : if f.nodeCount = 0 then f.entryPoint = kInvalidLocalId else f.entryPoint < f.nodeCount
  fileSize : fileSize = f.totalSize

/-- Nodes and layer-0 links are few enough for a vector each. -/
theorem HnswFileHeader.Accepted.counts_le {f : HnswFileHeader} {fileSize : Nat}
    (hf : f.Accepted fileSize) : f.nodeCount ≤ kMaxWords ∧ f.layer0LinkCount ≤ kMaxWords := by
  have hcount := hf.nodeCount_le
  have hmax : kMaxVectorCount < 4294967295 := by decide
  have hm := hf.config.m_le
  have hle : f.nodeCount * (f.config.maxM0 + 1) ≤ 4294967295 * 1025 :=
    Nat.mul_le_mul (by omega) (by rw [HnswConfig.maxM0]; omega)
  rw [hf.layer0LinkCount, kMaxWords]
  omega

theorem checkedMultiply_eq_ok {a b c : Nat} {what : String} (h : checkedMultiply a b what = .ok c) :
    c = a * b := by
  unfold checkedMultiply at h
  split at h
  · cases h
  · exact (Except.ok.inj h).symm

/-- Every check reports a damaged file. -/
theorem check_corruption {ok : Prop} [Decidable ok] {what : String} {e : Error}
    (h : check ok (.corruption what) = .error e) : e.isCorruption = true :=
  (check_eq_error.mp h).2 ▸ rfl

theorem crossCheck_eq_ok {f : HnswFileHeader} {fileSize : Nat} (hf : f.Checked)
    (h : crossCheck f fileSize = .ok ()) : f.Accepted fileSize := by
  unfold crossCheck at h
  simp only [Except.bind_eq_ok, check_eq_ok] at h
  obtain ⟨expected, hmul, _, h0, _, hmax, hrest⟩ := h
  have h0 := h0.trans (checkedMultiply_eq_ok hmul)
  split at hrest
  next hn =>
    obtain ⟨_, hentry, hsize⟩ := Except.bind_eq_ok.mp hrest
    exact ⟨hf, h0, hmax, by rw [if_pos hn]; exact check_eq_ok.mp hentry, check_eq_ok.mp hsize⟩
  next hn =>
    obtain ⟨_, hentry, hsize⟩ := Except.bind_eq_ok.mp hrest
    exact ⟨hf, h0, hmax, by rw [if_neg hn]; exact check_eq_ok.mp hentry, check_eq_ok.mp hsize⟩

theorem crossCheck_eq_error {f : HnswFileHeader} {fileSize : Nat} {e : Error}
    (h : crossCheck f fileSize = .error e) : e.isCorruption = true := by
  unfold crossCheck at h
  simp only [Except.bind_eq_error] at h
  rcases h with h | ⟨_, -, h | ⟨_, -, h | ⟨_, -, h⟩⟩⟩
  · unfold checkedMultiply at h
    split at h
    · cases h
      rfl
    · cases h
  · exact check_corruption h
  · exact check_corruption h
  · split at h <;> rcases Except.bind_eq_error.mp h with h | ⟨_, -, h⟩ <;>
      exact check_corruption h

theorem parseHnswFileHeader_eq_ok {bytes : Bytes} {fileSize : Nat} {f : HnswFileHeader}
    (h : parseHnswFileHeader bytes fileSize = .ok f) : f.Accepted fileSize := by
  unfold parseHnswFileHeader at h
  split at h
  · cases h
  · simp only [Except.bind_eq_ok] at h
    obtain ⟨g, hg, _, hcross, hf⟩ := h
    cases hf
    have hchecks := readHnswHeader_checks bytes
      ⟨"hnsw index header", 0, bytes.take kHnswFileHeaderSize⟩ trivial
    rw [← Prod.mk.eta (p := exec _ _), hg] at hchecks
    exact crossCheck_eq_ok hchecks hcross

theorem parseHnswFileHeader_eq_error {bytes : Bytes} {fileSize : Nat} {e : Error}
    (h : parseHnswFileHeader bytes fileSize = .error e) : e.isCorruption = true := by
  unfold parseHnswFileHeader at h
  split at h
  · cases h
    rfl
  · simp only [Except.bind_eq_error] at h
    rcases h with h | ⟨f, -, h | ⟨_, -, h⟩⟩
    · have hchecks := readHnswHeader_checks bytes
        ⟨"hnsw index header", 0, bytes.take kHnswFileHeaderSize⟩ trivial
      rw [← Prod.mk.eta (p := exec _ _), h] at hchecks
      exact hchecks
    · exact crossCheck_eq_error h
    · cases h

/-- What `read_hnsw_file` found in a file when it returned `h`, with `f` its header. -/
structure Loaded (bytes : Bytes) (slots : Nat) (metric : Metric) (dimension : Dimension)
    (f : HnswFileHeader) (h : HnswIndex) : Prop where
  header : parseHnswFileHeader bytes bytes.length = .ok f
  metric_eq : f.metric = metric
  dimension_eq : f.dimension = dimension
  nodeCount_eq : f.nodeCount = slots
  upperLinkCount_le : f.upperLinkCount ≤ kMaxWords
  metric : h.metric = f.metric
  config : h.config = f.config
  levels : h.nodeLevel = unpackWords 1 f.nodeCount (bytes.drop f.levelsOffset)
  offsets : h.upperOffsets = unpackWords 4 f.nodeCount (bytes.drop f.offsetsOffset)
  layer0 : h.layer0Links = unpackWords 4 f.layer0LinkCount (bytes.drop f.layer0Offset)
  upper : h.upperLinks = unpackWords 4 f.upperLinkCount (bytes.drop f.upperOffset)
  entryPoint : h.entryPoint = f.entryPoint
  maxLevel : h.maxLevel = f.maxLevel
  liveCount : h.liveCount = f.liveCount
  nodes : ∀ i < f.nodeCount,
    validateNode f.nodeCount h.nodeLevel f h.upperOffsets h.layer0Links h.upperLinks i = .ok ()
  entry : f.nodeCount = 0 ∨ h.nodeLevel.getD f.entryPoint 0 = f.maxLevel

section Read
variable {bytes : Bytes} {slots : Nat} {metric : Metric} {dimension : Dimension}

theorem allocateWords_eq_ok {count : Nat} {u : Unit} (h : allocateWords count = .ok u) :
    count ≤ kMaxWords := check_eq_ok.mp h

theorem readHnswFile_eq_ok {h : HnswIndex}
    (hread : readHnswFile bytes slots metric dimension = .ok h) :
    ∃ f, Loaded bytes slots metric dimension f h := by
  unfold readHnswFile at hread
  obtain ⟨f, hf, hread⟩ := Except.bind_eq_ok.mp hread
  obtain ⟨_, hmetric, hread⟩ := Except.bind_eq_ok.mp hread
  obtain ⟨_, hdim, hread⟩ := Except.bind_eq_ok.mp hread
  obtain ⟨_, hslots, hread⟩ := Except.bind_eq_ok.mp hread
  obtain ⟨_, -, hread⟩ := Except.bind_eq_ok.mp hread
  obtain ⟨_, -, hread⟩ := Except.bind_eq_ok.mp hread
  obtain ⟨_, hupper, hread⟩ := Except.bind_eq_ok.mp hread
  obtain ⟨_, hnodes, hread⟩ := Except.bind_eq_ok.mp hread
  obtain ⟨_, hentry, hread⟩ := Except.bind_eq_ok.mp hread
  obtain ⟨g, hg, hread⟩ := Except.bind_eq_ok.mp hread
  obtain ⟨_, -, hempty⟩ := Except.bind_eq_ok.mp hg
  cases hempty
  cases hread
  exact ⟨f, hf, check_eq_ok.mp hmetric, check_eq_ok.mp hdim, check_eq_ok.mp hslots,
    allocateWords_eq_ok hupper, rfl, rfl, rfl, rfl, rfl, rfl, rfl, rfl, rfl,
    fun i hi => Except.forM_eq_ok hnodes i (List.mem_range.mpr hi), check_eq_ok.mp hentry⟩

/-- The header is in order, but announces more upper links than a vector may hold. -/
def Oversized (bytes : Bytes) (slots : Nat) (metric : Metric) (dimension : Dimension) : Prop :=
  ∃ f, parseHnswFileHeader bytes bytes.length = .ok f ∧ f.metric = metric ∧
    f.dimension = dimension ∧ f.nodeCount = slots ∧ kMaxWords < f.upperLinkCount

theorem validateBlock_eq_error {nodeCount : Nat} {levels : List Nat} {array : List LocalId}
    {base budget node layer : Nat} {e : Error}
    (h : validateBlock nodeCount levels array base budget node layer = .error e) :
    e.isCorruption = true := by
  unfold validateBlock at h
  rcases Except.bind_eq_error.mp h with h | ⟨_, -, h⟩
  · exact check_corruption h
  · obtain ⟨neighbour, -, h⟩ := Except.forM_eq_error h
    unfold validateNeighbour at h
    rcases Except.bind_eq_error.mp h with h | ⟨_, -, h⟩
    · exact check_corruption h
    · rcases Except.bind_eq_error.mp h with h | ⟨_, -, h⟩ <;> exact check_corruption h

theorem validateNode_eq_error {nodeCount : Nat} {levels : List Nat} {f : HnswFileHeader}
    {offsets : List Nat} {layer0 upper : List LocalId} {node : Nat} {e : Error}
    (h : validateNode nodeCount levels f offsets layer0 upper node = .error e) :
    e.isCorruption = true := by
  unfold validateNode at h
  rcases Except.bind_eq_error.mp h with h | ⟨_, -, h⟩
  · exact check_corruption h
  · rcases Except.bind_eq_error.mp h with h | ⟨_, -, h⟩
    · exact validateBlock_eq_error h
    · split at h
      · exact check_corruption h
      · rcases Except.bind_eq_error.mp h with h | ⟨_, -, h⟩
        · exact check_corruption h
        · obtain ⟨layer, -, h⟩ := Except.forM_eq_error h
          exact validateBlock_eq_error h

theorem validate_of_accepted {f : HnswFileHeader} {fileSize : Nat} (hf : f.Accepted fileSize) :
    f.config.validate = .ok () := (HnswConfig.validate_eq_ok_iff _).mpr hf.config

/-- Any file that is not accepted is reported as damaged, or it is oversized. -/
theorem readHnswFile_eq_error {e : Error}
    (hread : readHnswFile bytes slots metric dimension = .error e) :
    e.isCorruption = true ∨ Oversized bytes slots metric dimension := by
  unfold readHnswFile at hread
  rcases Except.bind_eq_error.mp hread with h | ⟨f, hf, h⟩
  · exact .inl (parseHnswFileHeader_eq_error h)
  have hf' := parseHnswFileHeader_eq_ok hf
  obtain ⟨hnodes, hlinks⟩ := hf'.counts_le
  rcases Except.bind_eq_error.mp h with h | ⟨_, hmetric, h⟩
  · exact .inl (check_corruption h)
  rcases Except.bind_eq_error.mp h with h | ⟨_, hdim, h⟩
  · exact .inl (check_corruption h)
  rcases Except.bind_eq_error.mp h with h | ⟨_, hslots, h⟩
  · exact .inl (check_corruption h)
  rcases Except.bind_eq_error.mp h with h | ⟨_, -, h⟩
  · exact absurd hnodes (check_eq_error.mp h).1
  rcases Except.bind_eq_error.mp h with h | ⟨_, -, h⟩
  · exact absurd hlinks (check_eq_error.mp h).1
  rcases Except.bind_eq_error.mp h with h | ⟨_, -, h⟩
  · exact .inr ⟨f, hf, check_eq_ok.mp hmetric, check_eq_ok.mp hdim, check_eq_ok.mp hslots,
      Nat.lt_of_not_le (check_eq_error.mp h).1⟩
  rcases Except.bind_eq_error.mp h with h | ⟨_, -, h⟩
  · obtain ⟨node, -, h⟩ := Except.forM_eq_error h
    exact .inl (validateNode_eq_error h)
  rcases Except.bind_eq_error.mp h with h | ⟨_, -, h⟩
  · exact .inl (check_corruption h)
  · rcases Except.bind_eq_error.mp h with h | ⟨_, -, h⟩
    · rw [HnswIndex.create, validate_of_accepted hf'] at h
      cases h
    · cases h

/-- An oversized file makes the construction of a vector throw. -/
theorem readHnswFile_of_oversized (h : Oversized bytes slots metric dimension) :
    readHnswFile bytes slots metric dimension =
      .error (.foreign "cannot create std::vector larger than max_size()") := by
  obtain ⟨f, hf, rfl, rfl, rfl, hlarge⟩ := h
  obtain ⟨hnodes, hlinks⟩ := (parseHnswFileHeader_eq_ok hf).counts_le
  simp [readHnswFile, hf, check, allocateWords, hnodes, hlinks, Nat.not_le.mpr hlarge, bind,
    Except.bind]

end Read

section Passed
variable {count : Nat} {levels : List Nat} {node layer : Nat}

theorem validateBlock_eq_ok {array : List LocalId} {base budget : Nat} {u : Unit}
    (h : validateBlock count levels array base budget node layer = .ok u) :
    blockCount array base ≤ budget ∧ ∀ j ∈ readBlock array base,
      j < count ∧ j ≠ node ∧ layer ≤ levels.getD j 0 := by
  obtain ⟨_, hcount, hlist⟩ := Except.bind_eq_ok.mp h
  refine ⟨check_eq_ok.mp hcount, fun j hj => ?_⟩
  obtain ⟨_, hlt, hneighbour⟩ := Except.bind_eq_ok.mp (Except.forM_eq_ok hlist j hj)
  obtain ⟨_, hne, hlevel⟩ := Except.bind_eq_ok.mp hneighbour
  exact ⟨check_eq_ok.mp hlt, check_eq_ok.mp hne, check_eq_ok.mp hlevel⟩

/-- What the loop has checked of a node: its level, its list on the lowest layer, and that its
other lists are in the arena. -/
theorem validateNode_eq_ok {f : HnswFileHeader} {offsets : List Nat} {layer0 upper : List LocalId}
    (h : validateNode count levels f offsets layer0 upper node = .ok ()) :
    levels.getD node 0 ≤ f.maxLevel ∧
      validateBlock count levels layer0 (node * (f.config.maxM0 + 1)) f.config.maxM0 node 0 =
        .ok () ∧
      (levels.getD node 0 ≠ 0 →
        offsets.getD node 0 + levels.getD node 0 * (f.config.m + 1) ≤ f.upperLinkCount) ∧
      ∀ l < levels.getD node 0,
        validateBlock count levels upper (offsets.getD node 0 + l * (f.config.m + 1)) f.config.m
          node (l + 1) = .ok () := by
  obtain ⟨_, hlevel, h⟩ := Except.bind_eq_ok.mp h
  obtain ⟨_, hbottom, h⟩ := Except.bind_eq_ok.mp h
  refine ⟨check_eq_ok.mp hlevel, hbottom, ?_⟩
  split at h
  next hzero =>
    exact ⟨fun hne => absurd hzero hne, fun l hl => absurd hl (by rw [hzero]; exact Nat.not_lt_zero l)⟩
  next hne =>
    obtain ⟨_, hoffset, hblocks⟩ := Except.bind_eq_ok.mp h
    exact ⟨fun _ => (check_eq_ok.mp hoffset).2,
      fun l hl => Except.forM_eq_ok hblocks l (List.mem_range.mpr hl)⟩

variable {bytes : Bytes} {slots : Nat} {metric : Metric} {dimension : Dimension}
variable {f : HnswFileHeader} {h : HnswIndex} (hl : Loaded bytes slots metric dimension f h)
include hl

theorem Loaded.nodeCount : h.nodeCount = f.nodeCount := by
  rw [HnswIndex.nodeCount, hl.levels, length_unpackWords]

/-- Every list is in its array with the place it may grow into, and names nodes that reach its
layer. -/
theorem Loaded.blocks {i l : Nat} (hb : h.HasBlock i l) :
    h.linkPos i l + h.stride l ≤ (h.linkArray l).length ∧
      blockCount (h.linkArray l) (h.linkPos i l) ≤ h.config.maxNeighbours l ∧
      ∀ j ∈ h.block i l, h.HasBlock j l ∧ j ≠ i := by
  have hcount := hl.nodeCount
  have hi : i < f.nodeCount := hcount ▸ hb.1
  have hlevel : l ≤ h.nodeLevel.getD i 0 := hb.2
  obtain ⟨-, hbottom, hoffset, hupper⟩ := validateNode_eq_ok (hl.nodes i hi)
  have hblock : validateBlock f.nodeCount h.nodeLevel (h.linkArray l) (h.linkPos i l)
      (h.config.maxNeighbours l) i l = .ok () := by
    rw [hl.config]
    by_cases hzero : l = 0
    · subst hzero
      simpa [HnswIndex.linkArray, HnswIndex.linkPos, HnswIndex.layer0Stride, hl.config, HnswConfig.maxNeighbours] using hbottom
    · have := hupper (l - 1) (by omega)
      rw [Nat.sub_add_cancel (Nat.one_le_iff_ne_zero.mpr hzero)] at this
      simpa [HnswIndex.linkArray, HnswIndex.linkPos, HnswIndex.upperStride, hl.config, HnswConfig.maxNeighbours, hzero] using this
  obtain ⟨hle, hlist⟩ := validateBlock_eq_ok hblock
  refine ⟨?_, hle, fun j hj => ?_⟩
  · by_cases hzero : l = 0
    · subst hzero
      have hlinks := (parseHnswFileHeader_eq_ok hl.header).layer0LinkCount
      simp only [HnswIndex.linkPos, HnswIndex.linkArray, HnswIndex.stride, HnswIndex.layer0Stride, HnswConfig.maxNeighbours, if_true,
        hl.layer0, length_unpackWords, hl.config, hlinks]
      rw [← Nat.succ_mul]
      exact Nat.mul_le_mul_right _ hi
    · have hstride : (l - 1) * (f.config.m + 1) + (f.config.m + 1) ≤
          h.nodeLevel.getD i 0 * (f.config.m + 1) := by
        rw [← Nat.succ_mul]
        exact Nat.mul_le_mul_right _ (by omega)
      have := hoffset (by omega)
      simp only [HnswIndex.linkPos, HnswIndex.linkArray, HnswIndex.stride, HnswIndex.upperStride, HnswConfig.maxNeighbours, hzero, if_false,
        hl.upper, length_unpackWords, hl.config]
      omega
  · obtain ⟨hlt, hne, hreach⟩ := hlist j hj
    exact ⟨⟨hcount ▸ hlt, hreach⟩, hne⟩

end Passed

/-- A check that a reader makes on its way is passed. -/
theorem exec_check_bind_eq_ok {α : Type} {ok : Prop} [Decidable ok] {e : Error}
    {k : Unit → Read α} {r : ByteReader} {a : α}
    (h : (exec (fromExcept (check ok e) >>= k) r).1 = .ok a) :
    ok ∧ (exec (k ()) r).1 = .ok a := by
  rw [exec_bind, exec_fromExcept] at h
  cases hc : check ok e with
  | ok u => exact ⟨check_eq_ok.mp hc, by rwa [hc] at h⟩
  | error d =>
    rw [hc] at h
    cases h

section Written
variable {h : HnswIndex} {dimension : Dimension} {f : HnswFileHeader}

/-- The counts in a file that was written are those of the graph, as words, and the
search widths lose what does not fit 32 bits. -/
theorem parseHnswFileHeader_write
    (hf : parseHnswFileHeader (writeHnswFile h dimension) (writeHnswFile h dimension).length =
      .ok f) :
    f.nodeCount = h.nodeCount % 18446744073709551616 ∧
      f.liveCount = h.liveCount % 18446744073709551616 ∧
      f.upperLinkCount = h.upperLinks.length % 18446744073709551616 ∧
      f.config.efConstruction = h.config.efConstruction % 4294967296 ∧
      f.config.efSearch = h.config.efSearch % 4294967296 := by
  have htake : (writeHnswFile h dimension).take kHnswFileHeaderSize =
      hnswHeaderFields h dimension ++ u32 (crc32 (hnswHeaderFields h dimension) 0).toNat := by
    rw [writeHnswFile, ← List.append_assoc, List.take_left']
    simp [length_hnswHeaderFields, Persistence.u32, kHnswFileHeaderSize, kHeaderCrcOffset]
  unfold parseHnswFileHeader at hf
  split at hf
  · cases hf
  obtain ⟨g, hg, hf⟩ := Except.bind_eq_ok.mp hf
  obtain ⟨_, -, hf⟩ := Except.bind_eq_ok.mp hf
  cases hf
  have hmagic : ∀ rest : Bytes, exec (fixedString 8)
      ⟨"hnsw index header", 0, Persistence.fixedString kHnswFileMagic 8 ++ rest⟩ =
        (.ok kHnswFileMagic, ⟨"hnsw index header", 0 + 8, rest⟩) :=
    fun rest => exec_fixedString _ _ rest (by decide) (by simp [kHnswFileMagic])
  rw [htake] at hg
  unfold readHnswHeader at hg
  generalize writeHnswFile h dimension = bytes at hg
  generalize crc32 (hnswHeaderFields h dimension) 0 = crc at hg
  simp only [hnswHeaderFields, List.append_assoc] at hg
  rw [exec_bind_ok (hmagic _)] at hg
  obtain ⟨-, hg⟩ := exec_check_bind_eq_ok hg
  rw [exec_bind_ok (exec_u32 _ _ _ _)] at hg
  obtain ⟨-, hg⟩ := exec_check_bind_eq_ok hg
  obtain ⟨-, hg⟩ := exec_check_bind_eq_ok hg
  rw [exec_bind_ok (exec_u32 _ _ _ _)] at hg
  obtain ⟨-, hg⟩ := exec_check_bind_eq_ok hg
  rw [exec_bind_ok (exec_u64 _ _ _ _)] at hg
  obtain ⟨-, hg⟩ := exec_check_bind_eq_ok hg
  rw [exec_bind_ok (exec_u64 _ _ _ _)] at hg
  obtain ⟨-, hg⟩ := exec_check_bind_eq_ok hg
  rw [exec_bind_ok (exec_u32 _ _ _ _), exec_bind_ok (exec_u32 _ _ _ _),
    exec_bind_ok (exec_u32 _ _ _ _), exec_bind_ok (exec_u32 _ _ _ _),
    exec_bind_ok (exec_u64 _ _ _ _), exec_bind_ok (exec_u64 _ _ _ _),
    exec_bind_ok (exec_u32 _ _ _ _), exec_bind_ok (exec_u8 _ _ _ _), metricCode_mod,
    metricOfCode_metricCode, exec_bind_ok (exec_fromExcept _ _), exec_bind_ok (exec_skip _ _ _ _)]
    at hg
  rw [exec_bind, exec_fromExcept] at hg
  generalize (Except.mapError _ _) = valid at hg
  cases valid with
  | error e => cases hg
  | ok u =>
    dsimp only at hg
    rw [exec_bind_ok (exec_u64 _ _ _ _), exec_bind_ok (exec_u64 _ _ _ _),
      exec_bind_ok (exec_u32 _ _ _ _)] at hg
    cases hg
    exact ⟨rfl, rfl, rfl, rfl, rfl⟩

end Written

end VectorDb.Index
