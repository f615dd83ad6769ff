import VectorDb.Index.HnswFile
import VectorDb.Index.HnswWords

/-!
A graph's file read back: the header passes every check, the arrays return as
they were written, and the graph passes validation.
-/
set_option autoImplicit false

namespace VectorDb.Index

open VectorDb.Lib VectorDb.Persistence Throwing

/-- A configuration as the header's 32-bit fields hold it. -/
def HnswConfig.narrowed (c : HnswConfig) : HnswConfig :=
  ⟨c.m % 4294967296, c.efConstruction % 4294967296, c.efSearch % 4294967296, c.seed⟩

/-- The header of a graph's file, read back. -/
def headerOf (h : HnswIndex) (dimension : Dimension) : HnswFileHeader :=
  ⟨kHnswFileVersion, dimension, h.metric, h.config.narrowed, h.nodeCount, h.liveCount,
    h.layer0Links.length, h.upperLinks.length, h.entryPoint, h.maxLevel, h.rngState,
    (hnswPayloadCrc h).toNat, (crc32 (hnswHeaderFields h dimension) 0).toNat⟩

/-- What a graph needs so that its header passes every check but that of its
configuration. -/
structure Recordable (h : HnswIndex) (dimension : Dimension) : Prop where
  dimension_pos : dimension ≠ 0
  dimension_le : dimension ≤ kMaxDimension
  nodeCount_le : h.nodeCount ≤ kMaxVectorCount
  liveCount_le : h.liveCount ≤ h.nodeCount
  m_le : h.config.m ≤ 512
  layer0_length : h.layer0Links.length = h.nodeCount * (h.config.maxM0 + 1)
  upper_length : h.upperLinks.length < 4294967296 * 131072
  offsets_length : h.upperOffsets.length = h.nodeCount
  maxLevel_le : h.maxLevel ≤ 254
  entryPoint : if h.nodeCount = 0 then h.entryPoint = kInvalidLocalId else h.entryPoint < h.nodeCount

theorem length_hnswHeaderFields (h : HnswIndex) (dimension : Dimension) :
    (hnswHeaderFields h dimension).length = kHeaderCrcOffset := by
  simp [hnswHeaderFields, u8, u32, u64, pad, fixedString, kHnswFileMagic, kHeaderCrcOffset]

theorem length_writeHnswFile (h : HnswIndex) (dimension : Dimension) :
    (writeHnswFile h dimension).length = 128 + h.nodeCount + h.upperOffsets.length * 4 +
      h.layer0Links.length * 4 + h.upperLinks.length * 4 := by
  simp only [writeHnswFile, hnswPayload, List.length_append, length_hnswHeaderFields, u32,
    length_littleEndian, length_packWords, HnswIndex.nodeCount, kHeaderCrcOffset]
  omega

theorem Recordable.entryPoint_lt {h : HnswIndex} {dimension : Dimension}
    (hr : Recordable h dimension) : h.entryPoint < 4294967296 := by
  have he := hr.entryPoint
  have hn := hr.nodeCount_le
  have hmax : kMaxVectorCount < 4294967296 := by decide
  split at he
  · rw [he]
    decide
  · exact he.trans (hn.trans_lt hmax)

theorem checkedMultiply_ok {a b : Nat} (h : a * b < 18446744073709551616) (what : String) :
    checkedMultiply a b what = .ok (a * b) := by
  refine if_neg fun ⟨ha, hb⟩ => ?_
  have hpos : 0 < a := Nat.pos_of_ne_zero ha
  have hle : (18446744073709551615 / a + 1) * a ≤ a * b := by
    rw [Nat.mul_comm a b]
    exact Nat.mul_le_mul_right a hb
  have hlt := Nat.lt_div_mul_add hpos (a := 18446744073709551615)
  rw [Nat.succ_mul] at hle
  omega

theorem metricCode_mod (m : Metric) : metricCode m % 256 = metricCode m := by
  cases m <;> rfl

namespace Recordable
variable {h : HnswIndex} {dimension : Dimension} (hr : Recordable h dimension)
include hr

theorem nodeCount_lt : h.nodeCount < 4294967295 := by
  have hn := hr.nodeCount_le
  have hmax : kMaxVectorCount < 4294967295 := by decide
  omega

theorem layer0_length_lt : h.layer0Links.length < 4294967295 * 1025 := by
  have hn := hr.nodeCount_lt
  have hm := hr.m_le
  rw [hr.layer0_length, HnswConfig.maxM0]
  exact Nat.mul_lt_mul_of_lt_of_le hn (by omega) (by omega)

theorem length_eq_totalSize :
    (writeHnswFile h dimension).length = (headerOf h dimension).totalSize := by
  have hn := hr.nodeCount_lt
  have h0 := hr.layer0_length_lt
  have hu := hr.upper_length
  rw [length_writeHnswFile, hr.offsets_length]
  simp only [headerOf, HnswFileHeader.totalSize, HnswFileHeader.upperOffset,
    HnswFileHeader.layer0Offset, HnswFileHeader.offsetsOffset, HnswFileHeader.levelsOffset,
    wrap64, kHnswFileHeaderSize]
  omega

/-- The header of a file that was just written is read as it was meant. -/
theorem readHnswHeader_write (hv : h.config.narrowed.validate = .ok ()) :
    (exec (readHnswHeader (writeHnswFile h dimension))
      ⟨"hnsw index header", 0, (writeHnswFile h dimension).take kHnswFileHeaderSize⟩).1 =
        .ok (headerOf h dimension) := by
  have htake : (writeHnswFile h dimension).take kHnswFileHeaderSize =
      hnswHeaderFields h dimension ++ u32 (crc32 (hnswHeaderFields h dimension) 0).toNat := by
    rw [writeHnswFile, ← List.append_assoc, List.take_left']
    simp [length_hnswHeaderFields, u32, kHnswFileHeaderSize, kHeaderCrcOffset]
  have hcrc : fromLittleEndian (((writeHnswFile h dimension).drop kHeaderCrcOffset).take 4) =
      (crc32 (hnswHeaderFields h dimension) 0).toNat := by
    rw [writeHnswFile, List.drop_left' (length_hnswHeaderFields h dimension), u32,
      List.take_left' (length_littleEndian 4 _), fromLittleEndian_of_lt]
    exact (crc32 (hnswHeaderFields h dimension) 0).isLt
  have hfields : (writeHnswFile h dimension).take kHeaderCrcOffset = hnswHeaderFields h dimension := by
    rw [writeHnswFile, List.take_left' (length_hnswHeaderFields h dimension)]
  have hdim : dimension % 4294967296 = dimension := by
    have hmax : kMaxDimension < 4294967296 := by decide
    exact Nat.mod_eq_of_lt (hr.dimension_le.trans_lt hmax)
  have hn := hr.nodeCount_lt
  have hlive := hr.liveCount_le
  have h0 := hr.layer0_length_lt
  have hu := hr.upper_length
  have hnode : h.nodeCount % 18446744073709551616 = h.nodeCount := Nat.mod_eq_of_lt (by omega)
  have hcount : h.liveCount % 18446744073709551616 = h.liveCount := Nat.mod_eq_of_lt (by omega)
  have hentry : h.entryPoint % 4294967296 = h.entryPoint := Nat.mod_eq_of_lt hr.entryPoint_lt
  have hmax : h.maxLevel % 4294967296 = h.maxLevel :=
    Nat.mod_eq_of_lt (hr.maxLevel_le.trans_lt (by decide))
  have hl0 : h.layer0Links.length % 18446744073709551616 = h.layer0Links.length :=
    Nat.mod_eq_of_lt (by omega)
  have hlu : h.upperLinks.length % 18446744073709551616 = h.upperLinks.length :=
    Nat.mod_eq_of_lt (by omega)
  have hpay : (hnswPayloadCrc h).toNat % 4294967296 = (hnswPayloadCrc h).toNat :=
    Nat.mod_eq_of_lt (hnswPayloadCrc h).isLt
  have hm : h.config.m % 4294967296 = h.config.m := by
    have := hr.m_le
    exact Nat.mod_eq_of_lt (by omega)
  have hseed : h.config.seed.toNat % 18446744073709551616 = h.config.seed.toNat :=
    Nat.mod_eq_of_lt h.config.seed.isLt
  have hrng : h.rngState.toNat % 18446744073709551616 = h.rngState.toNat :=
    Nat.mod_eq_of_lt h.rngState.isLt
  have hconfig : (⟨h.config.m % 4294967296, h.config.efConstruction % 4294967296,
      h.config.efSearch % 4294967296, h.config.seed⟩ : HnswConfig) = h.config.narrowed := rfl
  rw [htake]
  unfold readHnswHeader
  rw [hcrc, hfields]
  unfold headerOf
  generalize crc32 (hnswHeaderFields h dimension) 0 = crc
  simp only [hnswHeaderFields, List.append_assoc]
  simp [exec_bind, exec_map, ByteReader.exec_fixedString, kHnswFileMagic, check, kHnswFileVersion, hdim,
    hr.dimension_pos, hr.dimension_le, hnode, hcount, hentry, hmax, hl0, hlu, hpay, hseed, hrng,
    hr.nodeCount_le, hlive, metricCode_mod, hconfig, hv, Except.mapError]

theorem crossCheck_headerOf (hm0 : h.config.narrowed.maxM0 = h.config.maxM0) :
    crossCheck (headerOf h dimension) (writeHnswFile h dimension).length = .ok () := by
  have h0 := hr.layer0_length_lt
  have hmul : checkedMultiply h.nodeCount (h.config.maxM0 + 1) "layer 0 link count" =
      .ok h.layer0Links.length := by
    rw [checkedMultiply_ok, hr.layer0_length]
    rw [← hr.layer0_length]
    omega
  have he := hr.entryPoint
  have hsize := hr.length_eq_totalSize
  have hmax := hr.maxLevel_le
  unfold crossCheck
  rw [hsize]
  simp only [headerOf, hm0, hmul, check, hmax, if_true]
  split at he <;> simp_all [bind, Except.bind]
end Recordable

section Arrays
variable {h : HnswIndex} {dimension : Dimension} (hr : Recordable h dimension)
include hr

theorem Recordable.offsets :
    (headerOf h dimension).offsetsOffset = 128 + h.nodeCount ∧
      (headerOf h dimension).layer0Offset = 128 + h.nodeCount + h.nodeCount * 4 ∧
      (headerOf h dimension).upperOffset =
        128 + h.nodeCount + h.nodeCount * 4 + h.layer0Links.length * 4 := by
  have hn := hr.nodeCount_lt
  have h0 := hr.layer0_length_lt
  simp only [headerOf, HnswFileHeader.upperOffset, HnswFileHeader.layer0Offset,
    HnswFileHeader.offsetsOffset, HnswFileHeader.levelsOffset, wrap64, kHnswFileHeaderSize]
  omega

/-- Each array is found where the header says and returns as it was. -/
theorem Recordable.arrays (hW : h.Writable) :
    unpackWords 1 h.nodeCount
        ((writeHnswFile h dimension).drop (headerOf h dimension).levelsOffset) = h.nodeLevel ∧
      unpackWords 4 h.nodeCount
        ((writeHnswFile h dimension).drop (headerOf h dimension).offsetsOffset) =
          h.upperOffsets ∧
      unpackWords 4 h.layer0Links.length
        ((writeHnswFile h dimension).drop (headerOf h dimension).layer0Offset) =
          h.layer0Links ∧
      unpackWords 4 h.upperLinks.length
        ((writeHnswFile h dimension).drop (headerOf h dimension).upperOffset) =
          h.upperLinks := by
  obtain ⟨ho, h0, hu⟩ := hr.offsets
  let header := hnswHeaderFields h dimension ++ u32 (crc32 (hnswHeaderFields h dimension) 0).toNat
  have hheader : header.length = 128 := by
    simp [header, length_hnswHeaderFields, u32, kHeaderCrcOffset]
  have hfile : writeHnswFile h dimension = header ++ (packWords 1 h.nodeLevel ++
      (packWords 4 h.upperOffsets ++ (packWords 4 h.layer0Links ++ packWords 4 h.upperLinks))) := by
    simp [header, writeHnswFile, hnswPayload]
  have hlevels : ∀ x ∈ h.nodeLevel, x < 256 ^ 1 := fun x hx => by
    have := hW.levels x hx
    omega
  have hwords : ∀ l x, x ∈ h.linkArray l → x < 256 ^ 4 := hW.words
  refine ⟨?_, ?_, ?_, ?_⟩
  · rw [hfile, show (headerOf h dimension).levelsOffset = 128 from rfl, List.drop_left' hheader]
    exact unpackWords_packWords _ hlevels
  · rw [hfile, ho, ← List.append_assoc, List.drop_left' (by simp [hheader, HnswIndex.nodeCount]),
      ← hr.offsets_length]
    exact unpackWords_packWords _ hW.offsets
  · rw [hfile, h0, ← List.append_assoc, ← List.append_assoc,
      List.drop_left' (by simp [hheader, HnswIndex.nodeCount, hr.offsets_length]; omega)]
    exact unpackWords_packWords _ (hwords 0)
  · rw [hfile, hu, ← List.append_assoc, ← List.append_assoc, ← List.append_assoc,
      List.drop_left' (by simp [hheader, HnswIndex.nodeCount, hr.offsets_length]; omega)]
    have hback := unpackWords_packWords [] (hwords 1)
    rwa [List.append_nil] at hback

end Arrays

theorem forM_ok {α : Type} {l : List α} {f : α → Except Error PUnit}
    (h : ∀ a ∈ l, f a = .ok ⟨⟩) : l.forM f = .ok ⟨⟩ := by
  induction l with
  | nil => rfl
  | cons a l ih =>
    rw [List.forM, h a (by simp)]
    exact ih fun b hb => h b (by simp [hb])

section Validate
variable {h : HnswIndex}

/-- A list of a good graph passes validation. -/
theorem validateBlock_ok (hG : h.Graph) {i l : Nat} (hb : h.HasBlock i l) :
    validateBlock h.nodeCount h.nodeLevel (h.linkArray l) (h.linkPos i l)
      (h.config.maxNeighbours l) i l = .ok () := by
  have hneighbours : (readBlock (h.linkArray l) (h.linkPos i l)).forM
      (validateNeighbour h.nodeCount h.nodeLevel i l) = .ok () := by
    refine forM_ok fun j hj => ?_
    obtain ⟨hlt, hle⟩ := hG.reaches i l hb j hj
    have hne : j ≠ i := fun he => hG.irrefl i l hb (he ▸ hj)
    have hle : l ≤ h.nodeLevel.getD j 0 := hle
    simp only [validateNeighbour, check, hlt, hne, hle, ne_eq, not_false_eq_true, if_true]
    rfl
  simp only [validateBlock, check, hG.layout.count_le i l hb, if_true]
  exact hneighbours

theorem validateNode_ok (hI : h.Invariant) (hW : h.Writable) {dimension : Dimension}
    (hmarked : h.Marked) (hfit : h.config.narrowed = h.config) {i : Nat}
    (hi : i < h.nodeCount) :
    validateNode h.nodeCount h.nodeLevel (headerOf h dimension) h.upperOffsets h.layer0Links
      h.upperLinks i = .ok () := by
  have hlevel : h.nodeLevel.getD i 0 ≤ h.maxLevel := hI.level_le i hi
  have h0 : validateBlock h.nodeCount h.nodeLevel h.layer0Links (i * (h.config.maxM0 + 1))
      h.config.maxM0 i 0 = .ok () := validateBlock_ok hI.graph ⟨hi, Nat.zero_le _⟩
  simp only [validateNode, headerOf, hfit, check, hlevel, h0, if_true, bind, Except.bind]
  by_cases hflat : h.nodeLevel.getD i 0 = 0
  · have hoff : h.upperOffsets.getD i 0 = kNoUpperLinks := hW.flat i hi hflat
    simp only [hflat, hoff, if_true]
  · have hb : h.HasBlock i (h.nodeLevel.getD i 0) := ⟨hi, le_rfl⟩
    have hin := HnswIndex.linkPos_add_stride_le hI.graph.layout hb
    simp only [HnswIndex.linkPos, HnswIndex.linkArray, HnswIndex.stride, hflat, if_false,
      HnswConfig.maxNeighbours, HnswIndex.upperStride] at hin
    have hmul : (h.nodeLevel.getD i 0 - 1) * (h.config.m + 1) + (h.config.m + 1) =
        h.nodeLevel.getD i 0 * (h.config.m + 1) := by
      rw [← Nat.succ_mul]
      congr 1
      omega
    have harena : h.upperOffsets.getD i 0 + h.nodeLevel.getD i 0 * (h.config.m + 1) ≤
        h.upperLinks.length := by omega
    have hne : h.upperOffsets.getD i 0 ≠ kNoUpperLinks := hmarked i hi hflat
    simp only [hflat, hne, harena, if_false, ne_eq, not_false_eq_true, true_and, if_true]
    refine forM_ok fun l hl => ?_
    have hbl : h.HasBlock i (l + 1) := ⟨hi, List.mem_range.mp hl⟩
    exact validateBlock_ok hI.graph hbl

end Validate

/-- What a graph has to have so that its header is accepted and its arrays return. -/
structure Storable (h : HnswIndex) (dimension : Dimension) : Prop where
  invariant : h.Invariant
  writable : h.Writable
  config : h.config.Valid
  fits : h.config.efConstruction < 4294967296 ∧ h.config.efSearch < 4294967296
  dimension_pos : dimension ≠ 0
  dimension_le : dimension ≤ kMaxDimension
  nodeCount_le : h.nodeCount ≤ kMaxVectorCount
  liveCount_le : h.liveCount ≤ h.nodeCount

/-- What a graph has to have so that its file is accepted. -/
structure Savable (h : HnswIndex) (dimension : Dimension) : Prop extends Storable h dimension where
  marked : h.Marked

namespace Storable
variable {h : HnswIndex} {dimension : Dimension} (hs : Storable h dimension)
include hs

theorem upper_length : h.upperLinks.length < 4294967296 * 131072 := by
  have hn := hs.nodeCount_le
  have hmax : kMaxVectorCount < 4294967296 := by decide
  have hm := hs.config.m_le
  have hsum : h.nodeLevel.sum ≤ h.nodeCount * 254 := by
    have hle := List.sum_le_card_nsmul h.nodeLevel 254 hs.writable.levels
    rwa [smul_eq_mul] at hle
  rw [hs.invariant.graph.layout.upper_length]
  calc h.nodeLevel.sum * h.upperStride ≤ 4294967296 * 254 * 513 :=
        Nat.mul_le_mul (hsum.trans (Nat.mul_le_mul_right _ (by omega)))
          (by rw [HnswIndex.upperStride]; omega)
    _ < 4294967296 * 131072 := by decide

theorem recordable : Recordable h dimension where
  dimension_pos := hs.dimension_pos
  dimension_le := hs.dimension_le
  nodeCount_le := hs.nodeCount_le
  liveCount_le := hs.liveCount_le
  m_le := hs.config.m_le
  layer0_length := hs.invariant.graph.layout.layer0_length
  upper_length := hs.upper_length
  offsets_length := hs.invariant.graph.layout.offsets_length
  maxLevel_le := hs.writable.maxLevel_le
  entryPoint := by
    split
    next hn => exact hs.invariant.entry_empty hn
    next hn => exact (hs.invariant.entry (by omega)).1

theorem narrowed : h.config.narrowed = h.config := by
  have hm := hs.config.m_le
  obtain ⟨hc, he⟩ := hs.fits
  simp only [HnswConfig.narrowed]
  rw [Nat.mod_eq_of_lt (show h.config.m < 4294967296 by omega), Nat.mod_eq_of_lt hc,
    Nat.mod_eq_of_lt he]

theorem parse_write :
    parseHnswFileHeader (writeHnswFile h dimension) (writeHnswFile h dimension).length =
      .ok (headerOf h dimension) := by
  have hlen : ¬ (writeHnswFile h dimension).length < kHnswFileHeaderSize := by
    rw [length_writeHnswFile, kHnswFileHeaderSize]
    omega
  have hv : h.config.narrowed.validate = .ok () := by
    rw [hs.narrowed]
    exact (HnswConfig.validate_eq_ok_iff _).mpr hs.config
  rw [parseHnswFileHeader, if_neg hlen, hs.recordable.readHnswHeader_write hv]
  have hcross := hs.recordable.crossCheck_headerOf (by rw [hs.narrowed])
  simp only [bind, Except.bind, hcross]
  rfl

end Storable

namespace Savable
variable {h : HnswIndex} {dimension : Dimension} (hs : Savable h dimension)
include hs

/-- A file is read back as the graph it was written for, save for the generator:
that one is seeded with the number it would have drawn next. -/
theorem read_write : readHnswFile (writeHnswFile h dimension) h.nodeCount h.metric dimension =
    .ok { h with rng := h.rngState } := by
  obtain ⟨hlevels, hoffsets, hlayer0, hupper⟩ := hs.recordable.arrays hs.writable
  have hnodes : (List.range h.nodeCount).forM (validateNode h.nodeCount h.nodeLevel
      (headerOf h dimension) h.upperOffsets h.layer0Links h.upperLinks) = .ok () :=
    forM_ok fun i hi => validateNode_ok hs.invariant hs.writable hs.marked hs.narrowed
      (List.mem_range.mp hi)
  have hentry : h.nodeCount = 0 ∨ h.nodeLevel.getD h.entryPoint 0 = h.maxLevel := by
    by_cases hn : h.nodeCount = 0
    · exact .inl hn
    · exact .inr (hs.invariant.representation.entry (by omega)).2
  have hcreate : HnswIndex.create h.metric h.config = .ok (HnswIndex.empty h.metric h.config) := by
    rw [HnswIndex.create, (HnswConfig.validate_eq_ok_iff _).mpr hs.config]
    rfl
  have hn := hs.recordable.nodeCount_lt
  have h0 := hs.recordable.layer0_length_lt
  have hu := hs.upper_length
  have hallocate : ∀ count, count < 4294967296 * 131072 → allocateWords count = .ok () := by
    intro count hcount
    rw [allocateWords, kMaxWords, check, if_pos (by omega)]
  rw [readHnswFile, hs.parse_write]
  simp only [bind, Except.bind, hallocate h.nodeCount (by omega),
    hallocate h.layer0Links.length (by omega), hallocate _ hu, show (headerOf h dimension).nodeCount = h.nodeCount from rfl,
    show (headerOf h dimension).layer0LinkCount = h.layer0Links.length from rfl,
    show (headerOf h dimension).upperLinkCount = h.upperLinks.length from rfl,
    hlevels, hoffsets, hlayer0, hupper, hnodes]
  simp only [headerOf, hs.narrowed, check, hentry, hcreate, if_true]
  rfl

end Savable

end VectorDb.Index
