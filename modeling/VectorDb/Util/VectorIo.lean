import VectorDb.Storage.VectorRoundTrip

/-!
src/util/vector_io.cpp: the binary matrix that vectors are exchanged in, and its way
back into an array.
-/
set_option autoImplicit false

namespace VectorDb.Util

open VectorDb.Lib VectorDb.Persistence VectorDb.Storage Throwing

/-- `"VDBDATA"`. -/
def kVectorMatrixMagic : Bytes := [86, 68, 66, 68, 65, 84, 65]

def kVectorMatrixVersion : Nat := 1

def kVectorMatrixHeaderSize : Nat := 32

/-- `kHeaderCrcOffset` of vector_io.cpp. -/
def kMatrixHeaderCrcOffset : Nat := 28

def kFlagHasIds : Nat := 1

def kMaxMatrixBytes : Nat := 64 * 1024 * 1024 * 1024

@[ext] structure VectorBatch where
  vectors : VectorArray
  ids : List VectorId

def VectorBatch.hasIds (batch : VectorBatch) : Bool := !batch.ids.isEmpty

/-- The floats of all vectors, one after the other. -/
def matrixPayload (vectors : VectorArray) : Bytes :=
  packWords 4 (vectors.rows.flatten.map BitVec.toNat)

def matrixIds (ids : List VectorId) : Bytes := packWords 8 (ids.map Fin.val)

/-- The header up to its checksum. -/
def matrixHeaderFields (vectors : VectorArray) (ids : List VectorId) : Bytes :=
  fixedString kVectorMatrixMagic 8 ++ (u32 kVectorMatrixVersion ++ (u32 vectors.dimension ++
    (u64 vectors.size ++ u32 (if ids.isEmpty then 0 else kFlagHasIds))))

/-- The contents `write_vector_matrix` gives its file. -/
def writeVectorMatrix (vectors : VectorArray) (ids : List VectorId) : Except Error Bytes := do
  check (ids = [] ∨ ids.length = vectors.size) (.invalidArgument
    ("id count " ++ toString ids.length ++ " does not match vector count " ++
      toString vectors.size))
  let header := matrixHeaderFields vectors ids
  return header ++ (u32 (crc32 header 0).toNat ++ (matrixPayload vectors ++ matrixIds ids))

/-- `read_file` of file_io.cpp, for a file that can be read. -/
def readFile (path : String) (file : Bytes) (maxBytes : Nat) : Except Error Bytes := do
  check (file.length ≤ maxBytes) (.corruption
    ("'" ++ path ++ "' is " ++ toString file.length ++ " bytes, which exceeds the " ++
      toString maxBytes ++ " byte limit for this artefact"))
  return file

structure VectorMatrixInfo where
  dimension : Dimension
  count : Nat
  hasIds : Bool

namespace VectorMatrixInfo
variable (info : VectorMatrixInfo)

def payloadBytes : Nat := wrap64 (info.count * info.dimension * 4)

def idBytes : Nat := if info.hasIds then wrap64 (info.count * 8) else 0

def expected : Nat := wrap64 (kVectorMatrixHeaderSize + info.payloadBytes + info.idBytes)

end VectorMatrixInfo

section Read
variable (path : String)

/-- The header, with the checks that are made on the way. -/
def readMatrixHeader (bytes : Bytes) : ByteReader.Read VectorMatrixInfo := do
  let magic ← ByteReader.fixedString 8
  fromExcept (check (magic = kVectorMatrixMagic) (.corruption
    ("'" ++ path ++ "': bad magic '" ++ asText magic ++
      "' (expected 'VDBDATA'); is this a .vecs file?")))
  let version ← ByteReader.u32
  fromExcept (check (version = kVectorMatrixVersion)
    (.unsupportedVersion "vector matrix" version kVectorMatrixVersion))
  let storedCrc := fromLittleEndian ((bytes.drop kMatrixHeaderCrcOffset).take 4)
  fromExcept (check (storedCrc = (crc32 (bytes.take kMatrixHeaderCrcOffset) 0).toNat)
    (.corruption ("'" ++ path ++ "': header checksum mismatch")))
  let dimension ← ByteReader.u32
  fromExcept (check (dimension ≠ 0 ∧ dimension ≤ kMaxDimension) (.corruption
    ("'" ++ path ++ "': dimension " ++ toString dimension ++ " is outside [1, " ++
      toString kMaxDimension ++ "]")))
  let count ← ByteReader.u64
  fromExcept (check (count ≤ kMaxVectorCount) (.corruption
    ("'" ++ path ++ "': count " ++ toString count ++ " exceeds the maximum of " ++
      toString kMaxVectorCount)))
  let flags ← ByteReader.u32
  return ⟨dimension, count, flags % 2 = kFlagHasIds⟩

def checkMatrixSize (info : VectorMatrixInfo) (size : Nat) : Except Error Unit := do
  check (info.count = 0 ∨ info.dimension ≤ 18446744073709551615 / info.count / 4)
    (.corruption ("'" ++ path ++ "': count * dimension overflows"))
  check (size = info.expected) (.corruption
    ("'" ++ path ++ "': header describes " ++ toString info.expected ++
      " bytes but the file is " ++ toString size ++
      (if size < info.expected then " — truncated" else " — trailing data")))

/-- The floats of one row. -/
def matrixRow (bytes : Bytes) (dimension : Dimension) (i : Nat) : FloatVector :=
  (unpackWords 4 dimension (bytes.drop (kVectorMatrixHeaderSize + i * dimension * 4))).map
    (BitVec.ofNat 32)

/-- The loop over the rows. -/
def readRows (bytes : Bytes) (dimension : Dimension) (count : Nat) (vectors : VectorArray) :
    Except Error VectorArray :=
  (List.range count).foldlM (fun vectors i => vectors.pushBack (matrixRow bytes dimension i)) vectors

/-- The loop over the ids. -/
def readIds : Nat → ByteReader.Read (List VectorId)
  | 0 => return []
  | count + 1 => do
    let id ← ByteReader.u64
    return Fin.ofNat 18446744073709551616 id :: (← readIds count)

/-- `read_vector_matrix` on a file's contents. -/
def readVectorMatrix (file : Bytes) : Except Error VectorBatch := do
  let bytes ← readFile path file kMaxMatrixBytes
  check (kVectorMatrixHeaderSize ≤ bytes.length) (.corruption
    ("'" ++ path ++ "' is only " ++ toString bytes.length ++
      " bytes, smaller than a vector matrix header"))
  let info ← (exec (readMatrixHeader path bytes)
    ⟨"vector matrix header", 0, bytes.take kVectorMatrixHeaderSize⟩).1
  checkMatrixSize path info bytes.length
  let vectors ← readRows bytes info.dimension info.count (← VectorArray.create info.dimension)
  if info.hasIds then
    let ids ← (exec (readIds info.count) ⟨"vector matrix ids", 0,
      (bytes.drop (kVectorMatrixHeaderSize + info.payloadBytes)).take info.idBytes⟩).1
    return ⟨vectors, ids⟩
  return ⟨vectors, []⟩

end Read

/-- How many bytes a matrix takes. -/
def matrixSize (vectors : VectorArray) (ids : List VectorId) : Nat :=
  32 + vectors.size * vectors.dimension * 4 + ids.length * 8

/-- The contents of the file of a matrix. -/
def matrixFile (vectors : VectorArray) (ids : List VectorId) : Bytes :=
  matrixHeaderFields vectors ids ++ (u32 (crc32 (matrixHeaderFields vectors ids) 0).toNat ++
    (matrixPayload vectors ++ matrixIds ids))

section Write
variable (vectors : VectorArray) (ids : List VectorId)

theorem length_matrixHeaderFields :
    (matrixHeaderFields vectors ids).length = kMatrixHeaderCrcOffset := by
  simp [matrixHeaderFields, u32, u64, pad, fixedString, kVectorMatrixMagic, kMatrixHeaderCrcOffset]

theorem length_matrixPayload :
    (matrixPayload vectors).length = vectors.size * vectors.dimension * 4 := by
  rw [matrixPayload, length_packWords, List.length_map,
    length_flatten_of_length vectors.length_rows]
  rfl

theorem length_matrixFile : (matrixFile vectors ids).length = matrixSize vectors ids := by
  simp only [matrixFile, List.length_append, length_matrixHeaderFields, length_matrixPayload, u32,
    length_littleEndian, matrixIds, length_packWords, List.length_map, kMatrixHeaderCrcOffset,
    matrixSize]
  omega

variable {vectors ids}

theorem writeVectorMatrix_eq_ok {bytes : Bytes} :
    writeVectorMatrix vectors ids = .ok bytes ↔
      (ids = [] ∨ ids.length = vectors.size) ∧ bytes = matrixFile vectors ids := by
  rw [writeVectorMatrix, Except.bind_eq_ok]
  constructor
  · rintro ⟨_, hcheck, hbytes⟩
    exact ⟨check_eq_ok.mp hcheck, (Except.ok.inj hbytes).symm⟩
  · rintro ⟨hids, rfl⟩
    exact ⟨(), check_eq_ok.mpr hids, rfl⟩

end Write

section RoundTrip
variable {vectors : VectorArray} {ids : List VectorId}

/-- The header of a matrix, read back. -/
def matrixInfoOf (vectors : VectorArray) (ids : List VectorId) : VectorMatrixInfo :=
  ⟨vectors.dimension, vectors.size, !ids.isEmpty⟩

theorem size_lt (vectors : VectorArray) : vectors.size < 4294967295 := by
  have hcount : vectors.size ≤ kMaxVectorCount := vectors.count_le
  have hmax : kMaxVectorCount < 4294967295 := by decide
  exact hcount.trans_lt hmax

theorem components_lt (vectors : VectorArray) :
    vectors.size * vectors.dimension < 4294967295 * 65537 := by
  have hmax : kMaxDimension < 65537 := by decide
  exact Nat.mul_lt_mul_of_lt_of_le (size_lt vectors) (vectors.dimension_le.trans hmax.le) (by decide)

theorem readMatrixHeader_matrixFile (path : String) :
    (exec (readMatrixHeader path (matrixFile vectors ids)) ⟨"vector matrix header", 0,
      (matrixFile vectors ids).take kVectorMatrixHeaderSize⟩).1 =
      .ok (matrixInfoOf vectors ids) := by
  have hfields := length_matrixHeaderFields vectors ids
  have htake : (matrixFile vectors ids).take kVectorMatrixHeaderSize =
      matrixHeaderFields vectors ids ++ u32 (crc32 (matrixHeaderFields vectors ids) 0).toNat := by
    rw [matrixFile, ← List.append_assoc, List.take_left']
    simp [hfields, u32, kVectorMatrixHeaderSize, kMatrixHeaderCrcOffset]
  have hcrc : fromLittleEndian (((matrixFile vectors ids).drop kMatrixHeaderCrcOffset).take 4) =
      (crc32 (matrixHeaderFields vectors ids) 0).toNat := by
    rw [matrixFile, List.drop_left' hfields, u32, List.take_left' (length_littleEndian 4 _),
      fromLittleEndian_of_lt]
    exact (crc32 (matrixHeaderFields vectors ids) 0).isLt
  have hsummed : (matrixFile vectors ids).take kMatrixHeaderCrcOffset =
      matrixHeaderFields vectors ids := by
    rw [matrixFile, List.take_left' hfields]
  have hn := size_lt vectors
  have hpos : vectors.dimension ≠ 0 := vectors.dimension_pos
  have hle : vectors.dimension ≤ kMaxDimension := vectors.dimension_le
  have hdim : vectors.dimension % 4294967296 = vectors.dimension := by
    have hmax : kMaxDimension < 4294967296 := by decide
    exact Nat.mod_eq_of_lt (hle.trans_lt hmax)
  have hsize : vectors.size % 18446744073709551616 = vectors.size := Nat.mod_eq_of_lt (by omega)
  have hcount : vectors.size ≤ kMaxVectorCount := vectors.count_le
  have hflag : decide ((if ids = [] then 0 else kFlagHasIds) % 2 = kFlagHasIds) =
      !ids.isEmpty := by
    cases ids with
    | nil => rfl
    | cons id ids => rfl
  rw [htake]
  unfold readMatrixHeader
  rw [hcrc, hsummed]
  generalize crc32 (matrixHeaderFields vectors ids) 0 = crc
  simp only [matrixHeaderFields, List.append_assoc]
  simp [exec_bind, exec_map, ByteReader.exec_fixedString, kVectorMatrixMagic, check,
    kVectorMatrixVersion, hdim, hpos, hle, hsize, hcount, hflag, matrixInfoOf]

theorem matrixInfoOf_sizes (hids : ids = [] ∨ ids.length = vectors.size) :
    (matrixInfoOf vectors ids).payloadBytes = vectors.size * vectors.dimension * 4 ∧
      (matrixInfoOf vectors ids).idBytes = ids.length * 8 ∧
      (matrixInfoOf vectors ids).expected = (matrixFile vectors ids).length := by
  have hn := size_lt vectors
  have hc := components_lt vectors
  have hpayload : (matrixInfoOf vectors ids).payloadBytes =
      vectors.size * vectors.dimension * 4 := Nat.mod_eq_of_lt (by simp only [matrixInfoOf]; omega)
  have hidBytes : (matrixInfoOf vectors ids).idBytes = ids.length * 8 := by
    rcases hids with rfl | hlen
    · rfl
    · cases ids with
      | nil => rfl
      | cons id ids =>
        show wrap64 (vectors.size * 8) = _
        rw [hlen, wrap64, Nat.mod_eq_of_lt (by omega)]
  have hids_le : ids.length ≤ vectors.size := by
    rcases hids with rfl | hlen
    · exact Nat.zero_le _
    · exact hlen.le
  refine ⟨hpayload, hidBytes, ?_⟩
  rw [VectorMatrixInfo.expected, hpayload, hidBytes, length_matrixFile, matrixSize,
    kVectorMatrixHeaderSize, wrap64, Nat.mod_eq_of_lt (by omega)]

theorem checkMatrixSize_matrixFile (path : String) (hids : ids = [] ∨ ids.length = vectors.size) :
    checkMatrixSize path (matrixInfoOf vectors ids) (matrixFile vectors ids).length = .ok () := by
  have hc := components_lt vectors
  have hoverflow : vectors.size = 0 ∨
      vectors.dimension ≤ 18446744073709551615 / vectors.size / 4 := by
    rcases Nat.eq_zero_or_pos vectors.size with hzero | hpos
    · exact .inl hzero
    · refine .inr ?_
      rw [Nat.div_div_eq_div_mul, Nat.le_div_iff_mul_le (by omega)]
      calc vectors.dimension * (vectors.size * 4)
          = vectors.size * vectors.dimension * 4 := by ring
        _ ≤ 18446744073709551615 := by omega
  rw [checkMatrixSize, Except.bind_eq_ok]
  exact ⟨(), check_eq_ok.mpr hoverflow,
    check_eq_ok.mpr (matrixInfoOf_sizes hids).2.2.symm⟩

/-- Behind the header come the rows and then the ids. -/
theorem drop_matrixFile : (matrixFile vectors ids).drop kVectorMatrixHeaderSize =
    matrixPayload vectors ++ matrixIds ids := by
  rw [matrixFile, ← List.append_assoc, List.drop_left']
  simp [length_matrixHeaderFields, u32, kVectorMatrixHeaderSize, kMatrixHeaderCrcOffset]

theorem matrixRow_matrixFile {i : Nat} (hi : i < vectors.size) :
    matrixRow (matrixFile vectors ids) vectors.dimension i = vectors.row i := by
  have hrow : vectors.row i = vectors.rows[i] := List.getD_eq_getElem _ _ hi
  rw [hrow, matrixRow, ← List.drop_drop, drop_matrixFile, matrixPayload]
  exact unpackWords_row vectors.length_rows hi _

theorem readRows_matrixFile {a : VectorArray} (hdim : a.dimension = vectors.dimension)
    (hrows : a.rows = []) : readRows (matrixFile vectors ids) vectors.dimension vectors.size a =
      .ok vectors := by
  have hmap : (List.range vectors.size).map (matrixRow (matrixFile vectors ids) vectors.dimension) =
      vectors.rows := by
    refine List.ext_getElem (by simp [VectorArray.size]) fun i hi _ => ?_
    rw [List.getElem_map, List.getElem_range, matrixRow_matrixFile (by simpa using hi)]
    exact List.getD_eq_getElem _ _ _
  have hroom : a.size + vectors.rows.length ≤ kMaxVectorCount := by
    rw [VectorArray.size, hrows, List.length_nil, Nat.zero_add]
    exact vectors.count_le
  obtain ⟨b, hb⟩ := VectorArray.exists_foldlM_pushBack
    (fun row hrow => (vectors.length_rows row hrow).trans hdim.symm) hroom
  obtain ⟨hbdim, hbrows⟩ := VectorArray.foldlM_pushBack_ok hb
  rw [readRows, ← List.foldlM_map, hmap, hb]
  exact congrArg Except.ok (VectorArray.ext (hbdim.trans hdim) (by rw [hbrows, hrows, List.nil_append]))

theorem exec_readIds (context : String) (position : Nat) (ids : List VectorId) (rest : Bytes) :
    exec (readIds ids.length) ⟨context, position, matrixIds ids ++ rest⟩ =
      (.ok ids, ⟨context, position + ids.length * 8, rest⟩) := by
  induction ids generalizing position with
  | nil => rfl
  | cons id ids ih =>
    have hfield : matrixIds (id :: ids) ++ rest = u64 id.val ++ (matrixIds ids ++ rest) := by
      simp [matrixIds, packWords, u64]
    rw [hfield, List.length_cons, readIds]
    simp only [exec_bind, ByteReader.exec_u64, ih, exec_pure]
    rw [Nat.mod_eq_of_lt id.isLt, Nat.succ_mul, Nat.add_assoc, Nat.add_comm 8]
    simp

/-- A matrix that is not too large for the reader comes back as it was. -/
theorem readVectorMatrix_matrixFile (path : String) (hids : ids = [] ∨ ids.length = vectors.size)
    (hsize : matrixSize vectors ids ≤ kMaxMatrixBytes) :
    readVectorMatrix path (matrixFile vectors ids) = .ok ⟨vectors, ids⟩ := by
  have hlength := length_matrixFile vectors ids
  obtain ⟨hpayload, hidBytes, -⟩ := matrixInfoOf_sizes hids
  obtain ⟨a, ha, hadim, harows⟩ :=
    VectorArray.create_ok vectors.dimension_pos vectors.dimension_le
  have hfile : readFile path (matrixFile vectors ids) kMaxMatrixBytes =
      .ok (matrixFile vectors ids) := by
    rw [readFile, Except.bind_eq_ok]
    exact ⟨(), check_eq_ok.mpr (hlength ▸ hsize), rfl⟩
  have hheader : ∀ e, check (kVectorMatrixHeaderSize ≤ (matrixFile vectors ids).length) e = .ok () := by
    intro e
    rw [check_eq_ok, hlength, matrixSize, kVectorMatrixHeaderSize]
    omega
  have hidPart : ((matrixFile vectors ids).drop (kVectorMatrixHeaderSize +
      vectors.size * vectors.dimension * 4)).take (ids.length * 8) = matrixIds ids ++ [] := by
    rw [← List.drop_drop, drop_matrixFile, List.drop_left' (length_matrixPayload vectors),
      List.append_nil, List.take_of_length_le (by simp [matrixIds])]
  rw [readVectorMatrix, hfile]
  simp only [bind, Except.bind, hheader, readMatrixHeader_matrixFile,
    checkMatrixSize_matrixFile path hids, hpayload, hidBytes, hidPart]
  simp only [show (matrixInfoOf vectors ids).dimension = vectors.dimension from rfl,
    show (matrixInfoOf vectors ids).count = vectors.size from rfl, ha,
    readRows_matrixFile hadim harows]
  rcases hids with rfl | hlen
  · rfl
  · by_cases hhas : (matrixInfoOf vectors ids).hasIds = true
    · rw [if_pos hhas, ← hlen, exec_readIds]
      rfl
    · have hnil : ids = [] := by simpa [matrixInfoOf] using hhas
      rw [if_neg hhas, hnil]
      rfl

/-- A larger one is written, and then refused. -/
theorem readVectorMatrix_tooLarge (path : String) (hsize : kMaxMatrixBytes < matrixSize vectors ids) :
    ∃ what, readVectorMatrix path (matrixFile vectors ids) = .error (.corruption what) := by
  have hlong : ¬ (matrixFile vectors ids).length ≤ kMaxMatrixBytes := by
    rw [length_matrixFile]
    omega
  refine ⟨"'" ++ path ++ "' is " ++ toString (matrixFile vectors ids).length ++
    " bytes, which exceeds the " ++ toString kMaxMatrixBytes ++ " byte limit for this artefact", ?_⟩
  rw [readVectorMatrix, readFile, check, if_neg hlong]
  rfl

end RoundTrip

end VectorDb.Util
