import VectorDb.Index.HnswLoad
import VectorDb.Index.HnswReload

/-!
The sizes an accepted index header stands for, against those its 64-bit sums give.
-/
set_option autoImplicit false

namespace VectorDb.Index

open VectorDb.Lib VectorDb.Persistence ByteReader Throwing

/-- The little-endian word of `width` bytes at `offset`. -/
def wordAt (bytes : Bytes) (offset width : Nat) : Nat :=
  fromLittleEndian ((bytes.drop offset).take width)

/-- The bytes that the counts stored in a header take in all, as integers: M stands at
32, the node count at 16 and the upper link count at 80. -/
def storedSize (bytes : Bytes) : Nat :=
  kHnswFileHeaderSize + wordAt bytes 16 8 * 5 +
    wordAt bytes 16 8 * (wordAt bytes 32 4 * 2 + 1) * 4 + wordAt bytes 80 8 * 4

namespace HnswFileHeader

/-- The regions lie where they would without wrapping around, they fill the file, and
each array that is read from it takes no more bytes than there are. -/
structure Fits (f : HnswFileHeader) (fileSize : Nat) : Prop where
  offsetsOffset : f.offsetsOffset = f.levelsOffset + f.nodeCount
  layer0Offset : f.layer0Offset = f.levelsOffset + f.nodeCount + f.nodeCount * 4
  upperOffset : f.upperOffset =
    f.levelsOffset + f.nodeCount + f.nodeCount * 4 + f.layer0LinkCount * 4
  totalSize : f.totalSize = f.levelsOffset + f.nodeCount + f.nodeCount * 4 +
    f.layer0LinkCount * 4 + f.upperLinkCount * 4
  size_eq : f.totalSize = fileSize
  levels_le : f.nodeCount ≤ fileSize
  offsets_le : f.nodeCount * 4 ≤ fileSize
  layer0_le : f.layer0LinkCount * 4 ≤ fileSize
  upper_le : f.upperLinkCount * 4 ≤ fileSize

variable {f : HnswFileHeader} {fileSize : Nat}

/-- Up to the upper links nothing wraps around. -/
theorem Accepted.upperOffset_eq (hf : f.Accepted fileSize) :
    f.offsetsOffset = f.levelsOffset + f.nodeCount ∧
      f.layer0Offset = f.levelsOffset + f.nodeCount + f.nodeCount * 4 ∧
      f.upperOffset = f.levelsOffset + f.nodeCount + f.nodeCount * 4 + f.layer0LinkCount * 4 := by
  have hnodes : f.nodeCount < 4294967295 := hf.nodeCount_le.trans_lt (by decide)
  have hm : f.config.maxM0 + 1 ≤ 1025 := by
    have := hf.config.m_le
    rw [HnswConfig.maxM0]
    omega
  have hlinks : f.layer0LinkCount ≤ 4294967295 * 1025 := by
    rw [hf.layer0LinkCount]
    exact Nat.mul_le_mul hnodes.le hm
  simp only [offsetsOffset, layer0Offset, upperOffset, levelsOffset, wrap64, kHnswFileHeaderSize]
  omega

theorem Accepted.fits_iff (hf : f.Accepted fileSize) :
    f.Fits fileSize ↔ f.levelsOffset + f.nodeCount + f.nodeCount * 4 + f.layer0LinkCount * 4 +
      f.upperLinkCount * 4 < 18446744073709551616 := by
  obtain ⟨hoffsets, hlayer0, hupper⟩ := hf.upperOffset_eq
  have htotal : f.totalSize = (f.upperOffset + f.upperLinkCount * 4) % 18446744073709551616 := rfl
  have hsize := hf.fileSize
  constructor
  · intro h
    have heq := h.totalSize
    omega
  · intro hlt
    have heq : f.totalSize = f.levelsOffset + f.nodeCount + f.nodeCount * 4 +
        f.layer0LinkCount * 4 + f.upperLinkCount * 4 := by omega
    exact ⟨hoffsets, hlayer0, hupper, heq, hsize.symm, by omega, by omega, by omega, by omega⟩

end HnswFileHeader

section Fields
variable {α : Type} {a : α} {r : ByteReader}

/-- A field that was read is the word the reader stood at. -/
theorem exec_word_bind_eq_ok {width : Nat} {what : String} {k : Nat → Read α}
    (h : (exec (word width what >>= k) r).1 = .ok a) :
    (exec (k (fromLittleEndian (r.rest.take width)))
      (r.advance width (r.rest.drop width))).1 = .ok a := by
  by_cases hlen : r.rest.length < width
  · rw [word, ByteReader.require] at h
    simp [exec_bind, hlen] at h
  · rw [exec_bind, word, exec_bind, exec_require r what (by omega)] at h
    simpa [exec_bind, exec_map, exec_take] using h

theorem exec_fixedString_bind_eq_ok {size : Nat} {k : Bytes → Read α}
    (h : (exec (ByteReader.fixedString size >>= k) r).1 = .ok a) :
    (exec (k ((r.rest.take size).takeWhile (· ≠ 0)))
      (r.advance size (r.rest.drop size))).1 = .ok a := by
  by_cases hlen : r.rest.length < size
  · rw [ByteReader.fixedString, bytes, ByteReader.require] at h
    simp [exec_bind, hlen] at h
  · rw [exec_bind, ByteReader.fixedString, exec_bind, bytes, exec_bind, exec_require r _ (by omega)] at h
    simpa [exec_bind, exec_map, exec_take] using h

theorem exec_skip_bind_eq_ok {count : Nat} {k : Unit → Read α}
    (h : (exec (skip count >>= k) r).1 = .ok a) :
    (exec (k ()) (r.advance count (r.rest.drop count))).1 = .ok a := by
  by_cases hlen : r.rest.length < count
  · rw [skip, ByteReader.require] at h
    simp [exec_bind, hlen] at h
  · rw [exec_bind, skip, exec_bind, exec_require r _ (by omega)] at h
    simpa [exec_bind, exec_map, exec_take] using h

theorem exec_fromExcept_bind_eq_ok {β : Type} {x : Except Error β} {k : β → Read α}
    (h : (exec (fromExcept x >>= k) r).1 = .ok a) : ∃ b, (exec (k b) r).1 = .ok a := by
  rw [exec_bind, exec_fromExcept] at h
  cases x with
  | ok b => exact ⟨b, h⟩
  | error e => cases h

/-- The counts of a header are the words at their places. -/
theorem readHnswHeader_words {bytes : Bytes} {context : String} {position : Nat} {rest : Bytes}
    {f : HnswFileHeader}
    (h : (exec (readHnswHeader bytes) ⟨context, position, rest⟩).1 = .ok f) :
    f.nodeCount = wordAt rest 16 8 ∧ f.config.m = wordAt rest 32 4 ∧
      f.upperLinkCount = wordAt rest 80 8 := by
  unfold readHnswHeader at h
  have h := exec_fixedString_bind_eq_ok h
  obtain ⟨-, h⟩ := exec_check_bind_eq_ok h
  have h := exec_word_bind_eq_ok h
  obtain ⟨-, h⟩ := exec_check_bind_eq_ok h
  obtain ⟨-, h⟩ := exec_check_bind_eq_ok h
  have h := exec_word_bind_eq_ok h
  obtain ⟨-, h⟩ := exec_check_bind_eq_ok h
  have h := exec_word_bind_eq_ok h
  obtain ⟨-, h⟩ := exec_check_bind_eq_ok h
  have h := exec_word_bind_eq_ok h
  obtain ⟨-, h⟩ := exec_check_bind_eq_ok h
  have h := exec_word_bind_eq_ok h
  have h := exec_word_bind_eq_ok h
  have h := exec_word_bind_eq_ok h
  have h := exec_word_bind_eq_ok h
  have h := exec_word_bind_eq_ok h
  have h := exec_word_bind_eq_ok h
  have h := exec_word_bind_eq_ok h
  have h := exec_word_bind_eq_ok h
  obtain ⟨metric, h⟩ := exec_fromExcept_bind_eq_ok h
  have h := exec_skip_bind_eq_ok h
  obtain ⟨-, h⟩ := exec_fromExcept_bind_eq_ok h
  have h := exec_word_bind_eq_ok h
  have h := exec_word_bind_eq_ok h
  have h := exec_word_bind_eq_ok h
  cases h
  simp [wordAt, advance, List.drop_drop]

end Fields

section Parse
variable {bytes : Bytes} {fileSize : Nat} {f : HnswFileHeader}

theorem parseHnswFileHeader_words (h : parseHnswFileHeader bytes fileSize = .ok f) :
    f.nodeCount = wordAt bytes 16 8 ∧ f.config.m = wordAt bytes 32 4 ∧
      f.upperLinkCount = wordAt bytes 80 8 := by
  unfold parseHnswFileHeader at h
  split at h
  · cases h
  · simp only [Except.bind_eq_ok] at h
    obtain ⟨g, hg, _, -, hf⟩ := h
    cases hf
    simpa [wordAt, List.drop_take, List.take_take, kHnswFileHeaderSize] using
      readHnswHeader_words hg

/-- The sizes an accepted header stands for are those its sums give if and only if its
stored counts describe less than 2^64 bytes. -/
theorem parseHnswFileHeader_fits_iff (h : parseHnswFileHeader bytes fileSize = .ok f) :
    f.Fits fileSize ↔ storedSize bytes < 18446744073709551616 := by
  have hf := parseHnswFileHeader_eq_ok h
  obtain ⟨hnodes, hm, hupper⟩ := parseHnswFileHeader_words h
  have hlinks := hf.layer0LinkCount
  rw [hf.fits_iff, storedSize, ← hnodes, ← hm, ← hupper, hlinks, HnswConfig.maxM0]
  have hlevels : f.levelsOffset = kHnswFileHeaderSize := rfl
  rw [hlevels]
  generalize f.nodeCount * (f.config.m * 2 + 1) = links
  omega

/-- The file of three nodes, of which two have upper layers. -/
theorem parseHnswFileHeader_fits_three : ∃ (h : HnswIndex) (f : HnswFileHeader),
    h.nodeLevel = [0, 2, 1] ∧ f.nodeCount = 3 ∧ f.upperLinkCount = 9 ∧
      parseHnswFileHeader (writeHnswFile h 3) (writeHnswFile h 3).length = .ok f ∧
      f.Fits (writeHnswFile h 3).length := by
  have hfile : (HnswIndex.addLevels .insertion
      (⟨1, 3, by decide, fun _ _ => 0, fun _ => true⟩ : SlotView Nat) HnswIndex.narrow32
      (.empty .cosine ⟨2, 2, 1, 0⟩) [0, 2, 1]).toOption.any fun h =>
        let bytes := writeHnswFile h 3
        decide (h.nodeLevel = [0, 2, 1] ∧ storedSize bytes < 18446744073709551616) &&
        (parseHnswFileHeader bytes bytes.length).toOption.any fun f =>
          decide (f.nodeCount = 3 ∧ f.upperLinkCount = 9) := by decide +kernel
  simp only [Option.any_eq_true, Bool.and_eq_true, decide_eq_true_eq, Except.toOption_eq_some]
    at hfile
  obtain ⟨h, -, ⟨hlevels, hsmall⟩, f, hparse, hnodes, hupper⟩ := hfile
  exact ⟨h, f, hlevels, hnodes, hupper, hparse, (parseHnswFileHeader_fits_iff hparse).mpr hsmall⟩

end Parse

section Inflated

/-- The header of an empty graph that announces 2^62 upper links: with them its size
wraps around to that of the header alone. -/
def inflatedFields : Bytes :=
  Persistence.fixedString kHnswFileMagic 8 ++ (u32 kHnswFileVersion ++ (u32 1 ++ (u64 0 ++ (u64 0 ++
    (u32 2 ++ (u32 2 ++ (u32 1 ++ (u32 kInvalidLocalId ++ (u64 0 ++ (u64 0 ++ (u32 0 ++
    (u8 0 ++ (pad 3 ++ (u64 0 ++ (u64 4611686018427387904 ++ (u32 0 ++ pad 32))))))))))))))))

def inflatedIndex : Bytes := inflatedFields ++ u32 (crc32 inflatedFields 0).toNat

def inflatedHeader : HnswFileHeader :=
  ⟨kHnswFileVersion, 1, .l2Squared, ⟨2, 2, 1, 0#64⟩, 0, 0, 0, 4611686018427387904, kInvalidLocalId,
    0, 0#64, 0, (crc32 inflatedFields 0).toNat⟩

theorem length_inflatedFields : inflatedFields.length = kHeaderCrcOffset := by
  simp [inflatedFields, Persistence.u8, Persistence.u32,
    Persistence.u64, pad, Persistence.fixedString, kHnswFileMagic, kHeaderCrcOffset]

theorem length_inflatedIndex : inflatedIndex.length = kHnswFileHeaderSize := by
  rw [inflatedIndex, List.length_append, length_inflatedFields, Persistence.u32,
    length_littleEndian]
  rfl

theorem readHnswHeader_inflatedIndex :
    (exec (readHnswHeader inflatedIndex) ⟨"hnsw index header", 0, inflatedIndex⟩).1 =
      .ok inflatedHeader := by
  have hcrc : fromLittleEndian ((inflatedIndex.drop kHeaderCrcOffset).take 4) =
      (crc32 inflatedFields 0).toNat := by
    rw [inflatedIndex, List.drop_left' length_inflatedFields, Persistence.u32,
      List.take_of_length_le (length_littleEndian 4 _).le, fromLittleEndian_of_lt]
    exact (crc32 inflatedFields 0).isLt
  have hfields : inflatedIndex.take kHeaderCrcOffset = inflatedFields := by
    rw [inflatedIndex, List.take_left' length_inflatedFields]
  have hconfig : (⟨2, 2, 1, 0#64⟩ : HnswConfig).validate = .ok () := by decide
  have hentry : kInvalidLocalId % 4294967296 = kInvalidLocalId := by decide
  unfold readHnswHeader inflatedHeader
  rw [hcrc, hfields, inflatedIndex]
  generalize crc32 inflatedFields 0 = crc
  simp only [inflatedFields, List.append_assoc]
  simp [exec_bind, exec_map, ByteReader.exec_fixedString, kHnswFileMagic, check,
    kHnswFileVersion, kMaxDimension, metricOfCode, hconfig, hentry, Except.mapError]

theorem parse_inflatedIndex :
    parseHnswFileHeader inflatedIndex inflatedIndex.length = .ok inflatedHeader := by
  have hcross : crossCheck inflatedHeader kHnswFileHeaderSize = .ok () := by
    simp [crossCheck, inflatedHeader, checkedMultiply, check, HnswFileHeader.totalSize,
      HnswFileHeader.upperOffset, HnswFileHeader.layer0Offset, HnswFileHeader.offsetsOffset,
      HnswFileHeader.levelsOffset, kHnswFileHeaderSize, wrap64]
    rfl
  rw [parseHnswFileHeader, if_neg (by rw [length_inflatedIndex]; exact Nat.lt_irrefl _),
    List.take_of_length_le length_inflatedIndex.le, readHnswHeader_inflatedIndex,
    length_inflatedIndex]
  simp only [bind, Except.bind, hcross, pure, Except.pure]

theorem inflatedIndex_not_fits :
    ¬ ∀ (bytes : Bytes) (fileSize : Nat) (f : HnswFileHeader),
      parseHnswFileHeader bytes fileSize = .ok f → f.Fits fileSize := by
  intro hall
  have hle : 4611686018427387904 * 4 ≤ inflatedIndex.length :=
    (hall _ _ _ parse_inflatedIndex).upper_le
  rw [length_inflatedIndex, kHnswFileHeaderSize] at hle
  omega

end Inflated

end VectorDb.Index
