import VectorDb.Persistence.Crc
import VectorDb.Index.HnswRoundTrip

/-!
The payload checksum of a graph's file: four chained calls when it is written, one call
when it is verified.
-/
set_option autoImplicit false

namespace VectorDb.Index

open VectorDb.Lib VectorDb.Persistence

/-- `verify_hnsw_file_payload`. -/
def verifyHnswFilePayload (bytes : Bytes) : Except Error Bool := do
  let header ← parseHnswFileHeader bytes bytes.length
  let payloadSize := wrap64 (header.totalSize + (18446744073709551616 - kHnswFileHeaderSize))
  return (crc32 ((bytes.drop kHnswFileHeaderSize).take payloadSize) 0).toNat == header.payloadCrc

theorem drop_writeHnswFile (h : HnswIndex) (dimension : Dimension) :
    (writeHnswFile h dimension).drop kHnswFileHeaderSize = hnswPayload h := by
  rw [writeHnswFile, ← List.append_assoc, List.drop_left']
  simp [length_hnswHeaderFields, u32, kHnswFileHeaderSize, kHeaderCrcOffset]

theorem hnswPayloadCrc_eq (h : HnswIndex) : hnswPayloadCrc h = crc32 (hnswPayload h) 0 := by
  simp only [hnswPayloadCrc, hnswPayload, crc32_append]

/-- What was written is verified. -/
theorem Storable.verify_write {h : HnswIndex} {dimension : Dimension}
    (hs : Storable h dimension) :
    verifyHnswFilePayload (writeHnswFile h dimension) = .ok true := by
  have hsize := hs.recordable.length_eq_totalSize
  have hlength := length_writeHnswFile h dimension
  have hn := hs.recordable.nodeCount_lt
  have h0 := hs.recordable.layer0_length_lt
  have hu := hs.upper_length
  have ho := hs.recordable.offsets_length
  have hall : wrap64 ((headerOf h dimension).totalSize +
      (18446744073709551616 - kHnswFileHeaderSize)) = (hnswPayload h).length := by
    have hdrop := congrArg List.length (drop_writeHnswFile h dimension)
    rw [List.length_drop] at hdrop
    rw [← hdrop, ← hsize, hlength, ho, wrap64, kHnswFileHeaderSize]
    omega
  rw [verifyHnswFilePayload, hs.parse_write]
  simp only [bind, Except.bind, drop_writeHnswFile, hall, List.take_length]
  rw [← hnswPayloadCrc_eq]
  simp [headerOf, pure, Except.pure]

/-- The checksum is the remainder of the bits behind the inverted seed, taken in any number
of pieces; a file's checksum is that of its payload; and no damage within four consecutive
bytes goes unnoticed. -/
theorem crc32_divides_and_composes (a b : Bytes) (seed : BitVec 32) :
    (crc32 a seed = ~~~ divideBits kPolynomial (~~~ seed) (bitsOf a) ∧
      registerPoly (~~~ crc32 a seed) =
        (Polynomial.X ^ (8 * a.length) * registerPoly (~~~ seed) +
          Polynomial.X ^ 32 * bitsPoly (bitsOf a)) %ₘ divisorPoly kPolynomial) ∧
    crc32 b (crc32 a seed) = crc32 (a ++ b) seed ∧
    (∀ (h : HnswIndex) (dimension : Dimension),
      hnswPayloadCrc h = crc32 ((writeHnswFile h dimension).drop kHnswFileHeaderSize) 0 ∧
      (Storable h dimension → verifyHnswFilePayload (writeHnswFile h dimension) = .ok true)) ∧
    (a.length = b.length → a ≠ b → (∃ start, AgreeOutside start a b) →
      crc32 a seed ≠ crc32 b seed) := by
  refine ⟨⟨crc32_eq a seed, registerPoly_crc32 a seed⟩, (crc32_append a b seed).symm, ?_, ?_⟩
  · intro h dimension
    refine ⟨?_, Storable.verify_write⟩
    rw [drop_writeHnswFile, hnswPayloadCrc_eq]
  · rintro hlength hne ⟨start, hagree⟩
    exact crc32_ne seed hlength hne hagree

/-- One byte that differs. -/
theorem crc32_tells_apart : crc32 [1, 2, 3] 0 ≠ crc32 [1, 7, 3] 0 := by
  refine (crc32_divides_and_composes [1, 2, 3] [1, 7, 3] 0).2.2.2 rfl (by decide) ⟨1, ?_⟩
  intro i hi
  match i with
  | 0 => rfl
  | 1 | 2 | 3 | 4 => omega
  | i + 5 => rfl

end VectorDb.Index
