import VectorDb.Persistence.ByteIo
import VectorDb.Storage.VectorStore

/-!
src/storage/vector_file.cpp: what is written for a store, and the checks a file
passes on its way back into one.
-/
set_option autoImplicit false

namespace VectorDb.Storage

open VectorDb.Lib VectorDb.Persistence Throwing

/-- `"VDBVEC"`. -/
def kVectorFileMagic : Bytes := [86, 68, 66, 86, 69, 67]

def kVectorFileVersion : Nat := 1

def kVectorFileHeaderSize : Nat := 64

/-- `kHeaderCrcOffset` of vector_file.cpp. -/
def kVectorHeaderCrcOffset : Nat := 60

def kFlagNormalized : Nat := 1

structure VectorFileHeader where
  formatVersion : Nat
  dimension : Dimension
  slotCount : Nat
  liveCount : Nat
  normalized : Bool
  payloadCrc : Nat
  headerCrc : Nat

namespace VectorFileHeader

def payloadOffset (_ : VectorFileHeader) : Nat := kVectorFileHeaderSize

def idsOffset (f : VectorFileHeader) : Nat :=
  wrap64 (f.payloadOffset + f.slotCount * f.dimension * 4)

def normsOffset (f : VectorFileHeader) : Nat := wrap64 (f.idsOffset + f.slotCount * 8)

def liveOffset (f : VectorFileHeader) : Nat := wrap64 (f.normsOffset + f.slotCount * 4)

def totalSize (f : VectorFileHeader) : Nat := wrap64 (f.liveOffset + f.slotCount)

/-- No offset wraps around in a header whose counts are in range. -/
theorem offsets {f : VectorFileHeader} (hn : f.slotCount ≤ kMaxVectorCount)
    (hd : f.dimension ≤ kMaxDimension) :
    f.idsOffset = 64 + f.slotCount * f.dimension * 4 ∧
      f.normsOffset = f.idsOffset + f.slotCount * 8 ∧
      f.liveOffset = f.normsOffset + f.slotCount * 4 ∧
      f.totalSize = f.liveOffset + f.slotCount ∧ f.totalSize < 18446744073709551616 := by
  have hmax : kMaxVectorCount < 4294967295 ∧ kMaxDimension < 65537 := by decide
  have hslots := hn.trans_lt hmax.1
  have hc : f.slotCount * f.dimension < 4294967295 * 65537 :=
    Nat.mul_lt_mul_of_lt_of_le hslots (hd.trans hmax.2.le) (by decide)
  have hids : f.idsOffset = 64 + f.slotCount * f.dimension * 4 :=
    Nat.mod_eq_of_lt (by rw [payloadOffset, kVectorFileHeaderSize]; omega)
  have hnorms : f.normsOffset = f.idsOffset + f.slotCount * 8 :=
    Nat.mod_eq_of_lt (by rw [hids]; omega)
  have hlive : f.liveOffset = f.normsOffset + f.slotCount * 4 :=
    Nat.mod_eq_of_lt (by rw [hnorms, hids]; omega)
  have htotal : f.totalSize = f.liveOffset + f.slotCount :=
    Nat.mod_eq_of_lt (by rw [hlive, hnorms, hids]; omega)
  exact ⟨hids, hnorms, hlive, htotal, by rw [htotal, hlive, hnorms, hids]; omega⟩

end VectorFileHeader

/-- `checked_multiply` of vector_file.cpp. -/
def vectorCheckedMultiply (a b : Nat) (what : String) : Except Error Nat :=
  if a ≠ 0 ∧ 18446744073709551615 / a < b then
    .error (.corruption ("vector file: " ++ what ++ " overflows: " ++ toString a ++ " * " ++
      toString b))
  else .ok (a * b)

/-- The floats of all slots, one after the other. -/
def payloadBytes (s : VectorStore) : Bytes :=
  packWords 4 (s.vectors.rows.flatten.map BitVec.toNat)

def idsBytes (s : VectorStore) : Bytes :=
  packWords 8 ((List.range s.slotCount).map fun slot => (s.vectorId slot).val)

def normsBytes (s : VectorStore) : Bytes :=
  packWords 4 ((List.range s.slotCount).map fun slot => (s.norm slot).toNat)

def liveBytes (s : VectorStore) : Bytes :=
  packWords 1 ((List.range s.slotCount).map fun slot => (s.isLive slot).toNat)

/-- The header up to its checksum. -/
def vectorHeaderFields (s : VectorStore) : Bytes :=
  fixedString kVectorFileMagic 8 ++ (u32 kVectorFileVersion ++ (u32 s.dimension ++
    (u64 s.slotCount ++ (u64 s.liveCount ++ (u8 (if s.normalizes then kFlagNormalized else 0) ++
    (pad 7 ++ (u64 (s.slotCount * s.dimension * 4) ++ (u32 (crc32 (payloadBytes s) 0).toNat ++
    pad 8))))))))

/-- The contents `write_vector_file` gives its file. -/
def writeVectorFile (s : VectorStore) : Bytes :=
  vectorHeaderFields s ++ (u32 (crc32 (vectorHeaderFields s) 0).toNat ++ (payloadBytes s ++
    (idsBytes s ++ (normsBytes s ++ liveBytes s))))

/-- What `parse_vector_file_header` reads, with the checks it makes on the way. -/
def readVectorHeader (bytes : Bytes) (fileSize : Nat) : ByteReader.Read VectorFileHeader := do
  let magic ← ByteReader.fixedString 8
  fromExcept (check (magic = kVectorFileMagic) (.corruption ("vector file: bad magic '" ++
    asText magic ++ "' — this is not a VectorDB vector file (expected 'VDBVEC')")))
  let formatVersion ← ByteReader.u32
  fromExcept (check (formatVersion = kVectorFileVersion)
    (.unsupportedVersion "vector file" formatVersion kVectorFileVersion))
  let storedCrc := fromLittleEndian ((bytes.drop kVectorHeaderCrcOffset).take 4)
  let computedCrc := (crc32 (bytes.take kVectorHeaderCrcOffset) 0).toNat
  fromExcept (check (storedCrc = computedCrc) (.corruption
    ("vector file: header checksum mismatch (stored " ++ toString storedCrc ++ ", computed " ++
      toString computedCrc ++ ") — the header has been damaged")))
  let dimension ← ByteReader.u32
  fromExcept (check (dimension ≠ 0 ∧ dimension ≤ kMaxDimension) (.corruption
    ("vector file: dimension " ++ toString dimension ++ " is outside the supported range [1, " ++
      toString kMaxDimension ++ "]")))
  let slotCount ← ByteReader.u64
  fromExcept (check (slotCount ≤ kMaxVectorCount) (.corruption
    ("vector file: slot count " ++ toString slotCount ++ " exceeds the maximum of " ++
      toString kMaxVectorCount)))
  let liveCount ← ByteReader.u64
  fromExcept (check (liveCount ≤ slotCount) (.corruption
    ("vector file: live count " ++ toString liveCount ++ " exceeds slot count " ++
      toString slotCount)))
  let flags ← ByteReader.u8
  ByteReader.skip 7
  let components ← fromExcept (vectorCheckedMultiply slotCount dimension "slot_count * dimension")
  let expectedPayload ← fromExcept (vectorCheckedMultiply components 4 "payload size")
  let declaredPayload ← ByteReader.u64
  fromExcept (check (declaredPayload = expectedPayload) (.corruption
    ("vector file: header declares a " ++ toString declaredPayload ++
      " byte payload but slot_count * dimension * 4 = " ++ toString expectedPayload)))
  let payloadCrc ← ByteReader.u32
  let header : VectorFileHeader :=
    ⟨formatVersion, dimension, slotCount, liveCount, flags % 2 = kFlagNormalized, payloadCrc,
      storedCrc⟩
  fromExcept (check (fileSize = header.totalSize) (.corruption
    ("vector file: header describes " ++ toString header.totalSize ++ " bytes but the file is " ++
      toString fileSize ++
      (if fileSize < header.totalSize then " — the file is truncated"
        else " — the file has trailing data"))))
  return header

def parseVectorFileHeader (bytes : Bytes) (fileSize : Nat) : Except Error VectorFileHeader :=
  if bytes.length < kVectorFileHeaderSize then
    .error (.corruption ("vector file: only " ++ toString bytes.length ++
      " bytes, which is smaller than the " ++ toString kVectorFileHeaderSize ++ " byte header"))
  else (exec (readVectorHeader bytes fileSize)
    ⟨"vector file header", 0, bytes.take kVectorFileHeaderSize⟩).1

/-- The floats of one slot, where the header says they are. -/
def floatsAt (bytes : Bytes) (header : VectorFileHeader) (slot : Nat) : FloatVector :=
  (unpackWords 4 header.dimension
    (bytes.drop (header.payloadOffset + slot * header.dimension * 4))).map (BitVec.ofNat 32)

/-- The loop over the slots. -/
def readSlots (bytes : Bytes) (header : VectorFileHeader) : VectorStore.Call Unit :=
  let ids := unpackWords 8 header.slotCount (bytes.drop header.idsOffset)
  let norms := unpackWords 4 header.slotCount (bytes.drop header.normsOffset)
  let live := unpackWords 1 header.slotCount (bytes.drop header.liveOffset)
  (List.range header.slotCount).forM fun slot => do
    let _ ← VectorStore.appendTrusted (Fin.ofNat 18446744073709551616 (ids.getD slot 0))
      (floatsAt bytes header slot) (BitVec.ofNat 32 (norms.getD slot 0)) (live.getD slot 0 ≠ 0)

/-- `read_vector_file` on a file's contents. -/
def readVectorFile (bytes : Bytes) : Except Error VectorStore := do
  let header ← parseVectorFileHeader bytes bytes.length
  let store ← VectorStore.create header.dimension header.normalized
  let liveSeen := (unpackWords 1 header.slotCount (bytes.drop header.liveOffset)).countP (· ≠ 0)
  match exec (readSlots bytes header) store with
  | (.error e, _) => .error e
  | (.ok _, store) =>
    check (liveSeen = header.liveCount) (.corruption
      ("vector file: header claims " ++ toString header.liveCount ++
        " live vectors but the liveness bytes contain " ++ toString liveSeen))
    return store

/-- `verify_vector_file_payload`. -/
def verifyVectorFilePayload (bytes : Bytes) : Except Error Bool := do
  let header ← parseVectorFileHeader bytes bytes.length
  let payload := (bytes.drop header.payloadOffset).take (header.slotCount * header.dimension * 4)
  return (crc32 payload 0).toNat == header.payloadCrc

end VectorDb.Storage
