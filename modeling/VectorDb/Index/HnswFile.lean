import VectorDb.Index.HnswIndex
import VectorDb.Persistence.ByteIo

/-!
The file format of src/index/hnsw/hnsw_file.cpp: what is written for a graph, and
the checks a file passes before its graph is installed.
-/
set_option autoImplicit false

namespace VectorDb.Index

open VectorDb.Lib VectorDb.Persistence Throwing

/-- `"VDBHNSW"`. -/
def kHnswFileMagic : Bytes := [86, 68, 66, 72, 78, 83, 87]

def kHnswFileVersion : Nat := 1

def kHnswFileHeaderSize : Nat := 128

def kHeaderCrcOffset : Nat := 124

structure HnswFileHeader where
  formatVersion : Nat
  dimension : Dimension
  metric : Metric
  config : HnswConfig
  nodeCount : Nat
  liveCount : Nat
  layer0LinkCount : Nat
  upperLinkCount : Nat
  entryPoint : LocalId
  maxLevel : Nat
  rngState : BitVec 64
  payloadCrc : Nat
  headerCrc : Nat

namespace HnswFileHeader

def levelsOffset (_ : HnswFileHeader) : Nat := kHnswFileHeaderSize

def offsetsOffset (f : HnswFileHeader) : Nat := wrap64 (f.levelsOffset + f.nodeCount)

def layer0Offset (f : HnswFileHeader) : Nat := wrap64 (f.offsetsOffset + f.nodeCount * 4)

def upperOffset (f : HnswFileHeader) : Nat := wrap64 (f.layer0Offset + f.layer0LinkCount * 4)

def totalSize (f : HnswFileHeader) : Nat := wrap64 (f.upperOffset + f.upperLinkCount * 4)

end HnswFileHeader

def checkedMultiply (a b : Nat) (what : String) : Except Error Nat :=
  if a ≠ 0 ∧ 18446744073709551615 / a < b then
    .error (.corruption ("hnsw index: " ++ what ++ " overflows: " ++ toString a ++ " * " ++
      toString b))
  else .ok (a * b)

/-- `static_cast<std::uint8_t>(metric)`. -/
def metricCode : Metric → Nat
  | .l2Squared => 0
  | .cosine => 1
  | .innerProduct => 2

def metricOfCode : Nat → Option Metric
  | 0 => some .l2Squared
  | 1 => some .cosine
  | 2 => some .innerProduct
  | _ => none

@[simp] theorem metricOfCode_metricCode (m : Metric) : metricOfCode (metricCode m) = some m := by
  cases m <;> rfl

/-- The bytes after the header. -/
def hnswPayload (h : HnswIndex) : Bytes :=
  packWords 1 h.nodeLevel ++ (packWords 4 h.upperOffsets ++ (packWords 4 h.layer0Links ++
    packWords 4 h.upperLinks))

def hnswPayloadCrc (h : HnswIndex) : BitVec 32 :=
  let crc := crc32 (packWords 1 h.nodeLevel) 0
  let crc := crc32 (packWords 4 h.upperOffsets) crc
  let crc := crc32 (packWords 4 h.layer0Links) crc
  crc32 (packWords 4 h.upperLinks) crc

/-- The header up to its checksum. -/
def hnswHeaderFields (h : HnswIndex) (dimension : Dimension) : Bytes :=
  fixedString kHnswFileMagic 8 ++ (u32 kHnswFileVersion ++ (u32 dimension ++
    (u64 h.nodeCount ++ (u64 h.liveCount ++ (u32 h.config.m ++ (u32 h.config.efConstruction ++
    (u32 h.config.efSearch ++ (u32 h.entryPoint ++ (u64 h.config.seed.toNat ++
    (u64 h.rngState.toNat ++ (u32 h.maxLevel ++ (u8 (metricCode h.metric) ++ (pad 3 ++
    (u64 h.layer0Links.length ++ (u64 h.upperLinks.length ++ (u32 (hnswPayloadCrc h).toNat ++
    pad 32))))))))))))))))

/-- The contents `write_hnsw_file` gives its file. -/
def writeHnswFile (h : HnswIndex) (dimension : Dimension) : Bytes :=
  hnswHeaderFields h dimension ++ (u32 (crc32 (hnswHeaderFields h dimension) 0).toNat ++
    hnswPayload h)

/-- What `parse_hnsw_file_header` reads, with the checks it makes on the way. -/
def readHnswHeader (bytes : Bytes) : ByteReader.Read HnswFileHeader := do
  let magic ← ByteReader.fixedString 8
  fromExcept (check (magic = kHnswFileMagic) (.corruption ("hnsw index: bad magic '" ++
    asText magic ++ "' — this is not a VectorDB index file (expected 'VDBHNSW')")))
  let formatVersion ← ByteReader.u32
  fromExcept (check (formatVersion = kHnswFileVersion)
    (.unsupportedVersion "hnsw index" formatVersion kHnswFileVersion))
  let storedCrc := fromLittleEndian ((bytes.drop kHeaderCrcOffset).take 4)
  let computedCrc := (crc32 (bytes.take kHeaderCrcOffset) 0).toNat
  fromExcept (check (storedCrc = computedCrc) (.corruption
    ("hnsw index: header checksum mismatch (stored " ++ toString storedCrc ++ ", computed " ++
      toString computedCrc ++ ")")))
  let dimension ← ByteReader.u32
  fromExcept (check (dimension ≠ 0 ∧ dimension ≤ kMaxDimension) (.corruption
    ("hnsw index: dimension " ++ toString dimension ++ " is outside [1, " ++
      toString kMaxDimension ++ "]")))
  let nodeCount ← ByteReader.u64
  fromExcept (check (nodeCount ≤ kMaxVectorCount) (.corruption
    ("hnsw index: node count " ++ toString nodeCount ++ " exceeds the maximum of " ++
      toString kMaxVectorCount)))
  let liveCount ← ByteReader.u64
  fromExcept (check (liveCount ≤ nodeCount) (.corruption
    ("hnsw index: live count " ++ toString liveCount ++ " exceeds node count " ++
      toString nodeCount)))
  let m ← ByteReader.u32
  let efConstruction ← ByteReader.u32
  let efSearch ← ByteReader.u32
  let entryPoint ← ByteReader.u32
  let seed ← ByteReader.u64
  let rngState ← ByteReader.u64
  let maxLevel ← ByteReader.u32
  let code ← ByteReader.u8
  let metric ← fromExcept (match metricOfCode code with
    | some metric => .ok metric
    | none => .error (.corruption ("hnsw index: unknown metric code " ++ toString code)))
  ByteReader.skip 3
  let config : HnswConfig := ⟨m, efConstruction, efSearch, BitVec.ofNat 64 seed⟩
  fromExcept (config.validate.mapError fun e =>
    .corruption ("hnsw index: stored configuration is invalid: " ++ e.what))
  let layer0LinkCount ← ByteReader.u64
  let upperLinkCount ← ByteReader.u64
  let payloadCrc ← ByteReader.u32
  return ⟨formatVersion, dimension, metric, config, nodeCount, liveCount, layer0LinkCount,
    upperLinkCount, entryPoint, maxLevel, BitVec.ofNat 64 rngState, payloadCrc, storedCrc⟩

/-- The structural cross-checks after them. -/
def crossCheck (f : HnswFileHeader) (fileSize : Nat) : Except Error Unit := do
  let expectedLayer0 ← checkedMultiply f.nodeCount (f.config.maxM0 + 1) "layer 0 link count"
  check (f.layer0LinkCount = expectedLayer0) (.corruption
    ("hnsw index: layer 0 holds " ++ toString f.layer0LinkCount ++
      " entries but node_count * (2M + 1) = " ++ toString expectedLayer0))
  check (f.maxLevel ≤ 254) (.corruption
    ("hnsw index: max level " ++ toString f.maxLevel ++
      " exceeds the 254 that a u8 level can encode"))
  if f.nodeCount = 0 then
    check (f.entryPoint = kInvalidLocalId)
      (.corruption "hnsw index: empty graph has an entry point")
  else
    check (f.entryPoint < f.nodeCount) (.corruption
      ("hnsw index: entry point " ++ toString f.entryPoint ++ " is outside the node range [0, " ++
        toString f.nodeCount ++ ")"))
  check (fileSize = f.totalSize) (.corruption
    ("hnsw index: header describes " ++ toString f.totalSize ++ " bytes but the file is " ++
      toString fileSize ++
      (if fileSize < f.totalSize then " — truncated" else " — trailing data")))

def parseHnswFileHeader (bytes : Bytes) (fileSize : Nat) : Except Error HnswFileHeader :=
  if bytes.length < kHnswFileHeaderSize then
    .error (.corruption ("hnsw index: only " ++ toString bytes.length ++
      " bytes, smaller than the " ++ toString kHnswFileHeaderSize ++ " byte header"))
  else do
    let header ← (exec (readHnswHeader bytes)
      ⟨"hnsw index header", 0, bytes.take kHnswFileHeaderSize⟩).1
    crossCheck header fileSize
    return header

section Validation
variable (nodeCount : Nat) (levels : List Nat)

/-- What `validate_block` checks of one neighbour. -/
def validateNeighbour (node layer neighbour : Nat) : Except Error Unit := do
  check (neighbour < nodeCount) (.corruption
    ("hnsw index: node " ++ toString node ++ " layer " ++ toString layer ++ " references node " ++
      toString neighbour ++ ", outside [0, " ++ toString nodeCount ++ ")"))
  check (neighbour ≠ node) (.corruption
    ("hnsw index: node " ++ toString node ++ " links to itself on layer " ++ toString layer))
  check (layer ≤ levels.getD neighbour 0) (.corruption
    ("hnsw index: node " ++ toString node ++ " links on layer " ++ toString layer ++ " to node " ++
      toString neighbour ++ ", which only reaches layer " ++ toString (levels.getD neighbour 0)))

def validateBlock (array : List LocalId) (base budget node layer : Nat) : Except Error Unit := do
  check (blockCount array base ≤ budget) (.corruption
    ("hnsw index: node " ++ toString node ++ " layer " ++ toString layer ++ " claims " ++
      toString (blockCount array base) ++ " neighbours, above the " ++ toString budget ++
      " budget"))
  (readBlock array base).forM (validateNeighbour nodeCount levels node layer)

/-- The loop body over the nodes. -/
def validateNode (header : HnswFileHeader) (offsets : List Nat) (layer0 upper : List LocalId)
    (node : Nat) : Except Error Unit := do
  let level := levels.getD node 0
  let offset := offsets.getD node 0
  check (level ≤ header.maxLevel) (.corruption
    ("hnsw index: node " ++ toString node ++ " claims level " ++ toString level ++
      " above the graph maximum of " ++ toString header.maxLevel))
  validateBlock nodeCount levels layer0 (node * (header.config.maxM0 + 1)) header.config.maxM0
    node 0
  if level = 0 then
    check (offset = kNoUpperLinks) (.corruption
      ("hnsw index: node " ++ toString node ++ " is level 0 but carries an upper-layer offset"))
  else
    check (offset ≠ kNoUpperLinks ∧
        offset + level * (header.config.m + 1) ≤ header.upperLinkCount) (.corruption
      ("hnsw index: node " ++ toString node ++ " has upper offset " ++ toString offset ++
        " which would run past the " ++ toString header.upperLinkCount ++
        " entry upper-link arena"))
    (List.range level).forM fun layer =>
      validateBlock nodeCount levels upper (offset + layer * (header.config.m + 1))
        header.config.m node (layer + 1)

end Validation

/-- `max_size()` of a `std::vector` of 32-bit words. -/
def kMaxWords : Nat := 2305843009213693951

/-- Construct a `std::vector` of 32-bit words; past `max_size()` that throws a
`std::length_error`. -/
def allocateWords (count : Nat) : Except Error Unit :=
  check (count ≤ kMaxWords) (.foreign "cannot create std::vector larger than max_size()")

/-- `read_hnsw_file` on a file's contents, for a store of `slots` slots. -/
def readHnswFile (bytes : Bytes) (slots : Nat) (metric : Metric) (dimension : Dimension) :
    Except Error HnswIndex := do
  let header ← parseHnswFileHeader bytes bytes.length
  check (header.metric = metric) (.corruption
    ("hnsw index was built for metric '" ++ metricName header.metric ++
      "' but this database uses '" ++ metricName metric ++ "'; rebuild the index"))
  check (header.dimension = dimension) (.corruption
    ("hnsw index was built for dimension " ++ toString header.dimension ++
      " but this database uses " ++ toString dimension ++ "; rebuild the index"))
  check (header.nodeCount = slots) (.corruption
    ("hnsw index holds " ++ toString header.nodeCount ++ " nodes but the vector store holds " ++
      toString slots ++ " slots; rebuild the index"))
  allocateWords header.nodeCount
  allocateWords header.layer0LinkCount
  allocateWords header.upperLinkCount
  let levels := unpackWords 1 header.nodeCount (bytes.drop header.levelsOffset)
  let offsets := unpackWords 4 header.nodeCount (bytes.drop header.offsetsOffset)
  let layer0 := unpackWords 4 header.layer0LinkCount (bytes.drop header.layer0Offset)
  let upper := unpackWords 4 header.upperLinkCount (bytes.drop header.upperOffset)
  (List.range header.nodeCount).forM
    (validateNode header.nodeCount levels header offsets layer0 upper)
  check (header.nodeCount = 0 ∨ levels.getD header.entryPoint 0 = header.maxLevel) (.corruption
    ("hnsw index: entry point " ++ toString header.entryPoint ++ " is at level " ++
      toString (levels.getD header.entryPoint 0) ++ " but the graph maximum is " ++
      toString header.maxLevel))
  let index ← HnswIndex.create header.metric header.config
  return index.restore levels layer0 upper offsets header.entryPoint header.maxLevel
    header.liveCount header.rngState

end VectorDb.Index
