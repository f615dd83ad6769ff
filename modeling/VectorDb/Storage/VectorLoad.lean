import VectorDb.Storage.VectorStoreRuns

/-!
What a file has passed once `read_vector_file` accepts it, which of its bytes are
read, and what the store it gives has from it.
-/
set_option autoImplicit false

namespace VectorDb.Storage

open VectorDb.Lib VectorDb.Persistence ByteReader Throwing

/-- A header that passed every check, of a file of this size. -/
structure VectorFileHeader.Accepted (f : VectorFileHeader) (fileSize : Nat) : Prop where
  dimension_pos : f.dimension ≠ 0
  dimension_le : f.dimension ≤ kMaxDimension
  slotCount_le : f.slotCount ≤ kMaxVectorCount
  liveCount_le : f.liveCount ≤ f.slotCount
  fileSize : fileSize = f.totalSize

theorem vectorCheckedMultiply_eq_error {a b : Nat} {what : String} {e : Error}
    (h : vectorCheckedMultiply a b what = .error e) : e.isCorruption = true := by
  unfold vectorCheckedMultiply at h
  split at h
  · cases h
    rfl
  · cases h

theorem readVectorHeader_checks (bytes : Bytes) (fileSize : Nat) :
    Checks (readVectorHeader bytes fileSize) fun f => f.Accepted fileSize := by
  unfold readVectorHeader
  refine (Checks.fixedString 8).bind fun magic _ => ?_
  refine (Checks.check rfl).bind fun _ _ => ?_
  refine (Checks.word 4 _).bind fun formatVersion _ => ?_
  refine (Checks.check rfl).bind fun _ _ => ?_
  refine (Checks.check rfl).bind fun _ _ => ?_
  refine (Checks.word 4 _).bind fun dimension _ => ?_
  refine (Checks.check rfl).bind fun _ hdim => ?_
  refine (Checks.word 8 _).bind fun slotCount _ => ?_
  refine (Checks.check rfl).bind fun _ hslot => ?_
  refine (Checks.word 8 _).bind fun liveCount _ => ?_
  refine (Checks.check rfl).bind fun _ hlive => ?_
  refine (Checks.word 1 _).bind fun flags _ => ?_
  refine (Checks.skip 7).bind fun _ _ => ?_
  refine (Checks.fromExcept fun _ => vectorCheckedMultiply_eq_error).bind fun components _ => ?_
  refine (Checks.fromExcept fun _ => vectorCheckedMultiply_eq_error).bind fun payload _ => ?_
  refine (Checks.word 8 _).bind fun declared _ => ?_
  refine (Checks.check rfl).bind fun _ _ => ?_
  refine (Checks.word 4 _).bind fun payloadCrc _ => ?_
  refine (Checks.check rfl).bind fun _ hsize => ?_
  exact Checks.pure ⟨hdim.1, hdim.2, hslot, hlive, hsize⟩

theorem parseVectorFileHeader_eq_ok {bytes : Bytes} {fileSize : Nat} {f : VectorFileHeader}
    (h : parseVectorFileHeader bytes fileSize = .ok f) :
    kVectorFileHeaderSize ≤ bytes.length ∧ f.Accepted fileSize := by
  unfold parseVectorFileHeader at h
  split at h
  · cases h
  next hlen =>
    have hchecks := readVectorHeader_checks bytes fileSize
      ⟨"vector file header", 0, bytes.take kVectorFileHeaderSize⟩ trivial
    rw [← Prod.mk.eta (p := exec _ _), h] at hchecks
    exact ⟨Nat.le_of_not_lt hlen, hchecks⟩

theorem parseVectorFileHeader_eq_error {bytes : Bytes} {fileSize : Nat} {e : Error}
    (h : parseVectorFileHeader bytes fileSize = .error e) : e.isCorruption = true := by
  unfold parseVectorFileHeader at h
  split at h
  · cases h
    rfl
  · have hchecks := readVectorHeader_checks bytes fileSize
      ⟨"vector file header", 0, bytes.take kVectorFileHeaderSize⟩ trivial
    rw [← Prod.mk.eta (p := exec _ _), h] at hchecks
    exact hchecks

/-- Where a file has its parts, and how long they are. -/
def VectorFileHeader.regions (f : VectorFileHeader) : List (Nat × Nat) :=
  [(0, kVectorFileHeaderSize), (f.payloadOffset, f.slotCount * f.dimension * 4),
    (f.idsOffset, f.slotCount * 8), (f.normsOffset, f.slotCount * 4), (f.liveOffset, f.slotCount)]

section Inside

/-- `subspan`, where all that is asked for is there. -/
def subspan (bytes : Bytes) (offset count : Nat) : Option Bytes :=
  if offset + count ≤ bytes.length then some ((bytes.drop offset).take count) else none

/-- An array of words, each of them inside the span. -/
def wordsInside (width : Nat) : Nat → Bytes → Option (List Nat)
  | 0, _ => some []
  | count + 1, span => do
    return fromLittleEndian (← subspan span 0 width) ::
      (← wordsInside width count (span.drop width))

/-- The words of a part of the file. -/
def arrayInside (width count : Nat) (bytes : Bytes) (offset size : Nat) : Option (List Nat) := do
  wordsInside width count (← subspan bytes offset size)

/-- The loop over the slots, unless one of its reads leaves the file. -/
def readSlotsInside (bytes : Bytes) (header : VectorFileHeader) :
    Option (VectorStore.Call Unit) := do
  let ids ← arrayInside 8 header.slotCount bytes header.idsOffset (wrap64 (header.slotCount * 8))
  let norms ← arrayInside 4 header.slotCount bytes header.normsOffset
    (wrap64 (header.slotCount * 4))
  let live ← arrayInside 1 header.slotCount bytes header.liveOffset header.slotCount
  let floats ← (List.range header.slotCount).mapM fun slot =>
    arrayInside 4 header.dimension bytes
      (header.payloadOffset + wrap64 (slot * header.dimension) * 4) (header.dimension * 4)
  return (List.range header.slotCount).forM fun slot => do
    let _ ← VectorStore.appendTrusted (Fin.ofNat 18446744073709551616 (ids.getD slot 0))
      ((floats.getD slot []).map (BitVec.ofNat 32)) (BitVec.ofNat 32 (norms.getD slot 0))
      (live.getD slot 0 ≠ 0)

def verifyPayloadInside (bytes : Bytes) (header : VectorFileHeader) : Option Bool := do
  let payload ← subspan bytes header.payloadOffset
    (wrap64 (wrap64 (header.slotCount * header.dimension) * 4))
  return (crc32 payload 0).toNat == header.payloadCrc

theorem subspan_eq {bytes : Bytes} {offset count : Nat} (h : offset + count ≤ bytes.length) :
    subspan bytes offset count = some ((bytes.drop offset).take count) := if_pos h

theorem wordsInside_eq (width count : Nat) (span : Bytes) (h : count * width ≤ span.length) :
    wordsInside width count span = some (unpackWords width count span) := by
  induction count generalizing span with
  | zero => rfl
  | succ count ih =>
    rw [Nat.succ_mul] at h
    rw [wordsInside, subspan_eq (by omega), ih _ (by rw [List.length_drop]; omega), unpackWords]
    rfl

theorem unpackWords_take (width count : Nat) (bytes : Bytes) {n : Nat} (h : count * width ≤ n) :
    unpackWords width count (bytes.take n) = unpackWords width count bytes := by
  induction count generalizing bytes n with
  | zero => rfl
  | succ count ih =>
    rw [Nat.succ_mul] at h
    rw [unpackWords, unpackWords, List.take_take, min_eq_left (by omega), List.drop_take,
      ih _ (by omega)]

/-- An array that lies inside the file is read as it stands there. -/
theorem arrayInside_eq {bytes : Bytes} {offset width count size : Nat}
    (hsize : size = count * width) (h : offset + count * width ≤ bytes.length) :
    arrayInside width count bytes offset size =
      some (unpackWords width count (bytes.drop offset)) := by
  rw [arrayInside, hsize, subspan_eq h]
  show wordsInside width count _ = _
  rw [wordsInside_eq, unpackWords_take _ _ _ (Nat.le_refl _)]
  rw [List.length_take, List.length_drop]
  omega

theorem mapM_some {α β : Type} {l : List α} {f : α → Option β} {g : α → β}
    (h : ∀ x ∈ l, f x = some (g x)) : l.mapM f = some (l.map g) := by
  induction l with
  | nil => rfl
  | cons x l ih =>
    rw [List.mapM_cons, h x (by simp), ih fun y hy => h y (by simp [hy])]
    rfl

theorem getD_map_range {α : Type} (f : Nat → α) (d : α) {i n : Nat} (h : i < n) :
    ((List.range n).map f).getD i d = f i := by
  rw [List.getD_eq_getElem _ _ (by simpa using h), List.getElem_map, List.getElem_range]

theorem forM_congr {ε σ α : Type} {l : List α} {f g : α → Throwing ε σ PUnit}
    (h : ∀ x ∈ l, f x = g x) : l.forM f = l.forM g := by
  induction l with
  | nil => rfl
  | cons x l ih => rw [List.forM, List.forM, h x (by simp), ih fun y hy => h y (by simp [hy])]

variable {bytes : Bytes} {header : VectorFileHeader}

theorem readSlotsInside_eq (hf : header.Accepted bytes.length) :
    readSlotsInside bytes header = some (readSlots bytes header) := by
  obtain ⟨hids, hnorms, hlive, htotal, hlt⟩ := header.offsets hf.slotCount_le hf.dimension_le
  have hsize := hf.fileSize
  have hfloats : (List.range header.slotCount).mapM (fun slot =>
      arrayInside 4 header.dimension bytes
        (header.payloadOffset + wrap64 (slot * header.dimension) * 4) (header.dimension * 4)) =
      some ((List.range header.slotCount).map fun slot => unpackWords 4 header.dimension
        (bytes.drop (header.payloadOffset + slot * header.dimension * 4))) := by
    refine mapM_some fun slot hslot => ?_
    have hend : (slot + 1) * header.dimension ≤ header.slotCount * header.dimension :=
      Nat.mul_le_mul_right _ (List.mem_range.mp hslot)
    rw [Nat.succ_mul] at hend
    have hwrap : wrap64 (slot * header.dimension) = slot * header.dimension :=
      Nat.mod_eq_of_lt (by omega)
    rw [hwrap]
    refine arrayInside_eq rfl ?_
    rw [VectorFileHeader.payloadOffset, kVectorFileHeaderSize]
    omega
  have hids' : arrayInside 8 header.slotCount bytes header.idsOffset
      (wrap64 (header.slotCount * 8)) =
        some (unpackWords 8 header.slotCount (bytes.drop header.idsOffset)) :=
    arrayInside_eq (Nat.mod_eq_of_lt (by omega)) (by omega)
  have hnorms' : arrayInside 4 header.slotCount bytes header.normsOffset
      (wrap64 (header.slotCount * 4)) =
        some (unpackWords 4 header.slotCount (bytes.drop header.normsOffset)) :=
    arrayInside_eq (Nat.mod_eq_of_lt (by omega)) (by omega)
  have hlive' : arrayInside 1 header.slotCount bytes header.liveOffset header.slotCount =
      some (unpackWords 1 header.slotCount (bytes.drop header.liveOffset)) :=
    arrayInside_eq (Nat.mul_one _).symm (by omega)
  rw [readSlotsInside, hids', hnorms', hlive', hfloats]
  refine congrArg some (forM_congr fun slot hslot => ?_)
  rw [getD_map_range _ [] (List.mem_range.mp hslot)]
  rfl

theorem verifyPayloadInside_eq (hf : header.Accepted bytes.length) :
    verifyPayloadInside bytes header =
      some ((crc32 ((bytes.drop header.payloadOffset).take
        (header.slotCount * header.dimension * 4)) 0).toNat == header.payloadCrc) := by
  obtain ⟨hids, hnorms, hlive, htotal, hlt⟩ := header.offsets hf.slotCount_le hf.dimension_le
  have hsize := hf.fileSize
  have hcomponents : wrap64 (header.slotCount * header.dimension) =
      header.slotCount * header.dimension := Nat.mod_eq_of_lt (by omega)
  have hwrap : wrap64 (header.slotCount * header.dimension * 4) =
      header.slotCount * header.dimension * 4 := Nat.mod_eq_of_lt (by omega)
  have hend : header.payloadOffset + header.slotCount * header.dimension * 4 ≤ bytes.length := by
    rw [VectorFileHeader.payloadOffset, kVectorFileHeaderSize]
    omega
  rw [verifyPayloadInside, hcomponents, hwrap, subspan_eq hend]
  rfl

/-- The parts of an accepted file lie one after the other and fill it, and no read
leaves it. -/
theorem vector_file_bounds {fileSize : Nat}
    (h : parseVectorFileHeader bytes fileSize = .ok header) :
    header.regions.IsChain (fun p q => p.1 + p.2 = q.1) ∧
      header.regions.Pairwise (fun p q => p.1 + p.2 ≤ q.1) ∧
      (∀ i, i < fileSize ↔ ∃ r ∈ header.regions, r.1 ≤ i ∧ i < r.1 + r.2) ∧
      fileSize = header.liveOffset + header.slotCount ∧
      header.totalSize = header.liveOffset + header.slotCount ∧
      kVectorFileHeaderSize ≤ bytes.length ∧
      (bytes.length = fileSize →
        readSlotsInside bytes header = some (readSlots bytes header) ∧
        ∃ b, verifyVectorFilePayload bytes = .ok b ∧
          verifyPayloadInside bytes header = some b) := by
  obtain ⟨hheader, hf⟩ := parseVectorFileHeader_eq_ok h
  obtain ⟨hids, hnorms, hlive, htotal, hlt⟩ := header.offsets hf.slotCount_le hf.dimension_le
  have hpayload : header.payloadOffset = 64 := rfl
  have hsize := hf.fileSize
  refine ⟨?_, ?_, fun i => ?_, hsize.trans htotal, htotal, hheader, fun hlen => ?_⟩
  · simp only [VectorFileHeader.regions, kVectorFileHeaderSize, List.isChain_cons_cons,
      List.isChain_singleton, and_true]
    omega
  · simp only [VectorFileHeader.regions, kVectorFileHeaderSize, List.pairwise_cons, List.mem_cons,
      List.not_mem_nil, or_false, forall_eq_or_imp, forall_eq, List.Pairwise.nil, and_true,
      false_imp_iff, implies_true]
    omega
  · simp only [VectorFileHeader.regions, kVectorFileHeaderSize, List.mem_cons, List.not_mem_nil,
      or_false, exists_eq_or_imp, exists_eq_left]
    omega
  · subst hlen
    exact ⟨readSlotsInside_eq hf, _, by rw [verifyVectorFilePayload, h]; rfl,
      verifyPayloadInside_eq hf⟩

end Inside

theorem vector_file_bounds_three_slots :
    ∃ (s : VectorStore) (header : VectorFileHeader), s.live = [true, false, true] ∧
      header.slotCount = 3 ∧ header.liveCount = 2 ∧
      (writeVectorFile s).length = header.liveOffset + header.slotCount ∧
      readSlotsInside (writeVectorFile s) header = some (readSlots (writeVectorFile s) header) := by
  obtain ⟨s, h, hslots, -⟩ := VectorStore.reachable_three_slots
  have hs := (VectorStore.reachable_invariant _ h).1
  obtain ⟨-, -, -, hsize, -, -, hreads⟩ := vector_file_bounds
    (parseVectorFileHeader_write s hs.liveCount_le)
  have hcount : s.slotCount = 3 := by rw [← hs.live, hslots]; rfl
  have hlive : s.liveCount = 2 := by rw [hs.liveCount, hslots]; rfl
  exact ⟨s, vectorHeaderOf s, hslots, hcount, hlive, hsize, (hreads rfl).1⟩

section Loaded

/-- The ids of a file's slots. -/
def fileIds (bytes : Bytes) (header : VectorFileHeader) : List VectorId :=
  (unpackWords 8 header.slotCount (bytes.drop header.idsOffset)).map
    (Fin.ofNat 18446744073709551616)

/-- Which of them the file has as live. -/
def fileLive (bytes : Bytes) (header : VectorFileHeader) : List Bool :=
  (unpackWords 1 header.slotCount (bytes.drop header.liveOffset)).map fun byte => byte ≠ 0

/-- The ids of the live slots. -/
def fileLiveIds (bytes : Bytes) (header : VectorFileHeader) : List VectorId :=
  ((List.range header.slotCount).filter fun slot => (fileLive bytes header).getD slot false).map
    fun slot => (fileIds bytes header).getD slot 0

variable {bytes : Bytes} {header : VectorFileHeader} {s : VectorStore} {n : Nat}

/-- What a store has after `n` slots of a file. -/
structure Loaded (bytes : Bytes) (header : VectorFileHeader) (n : Nat) (s : VectorStore) : Prop where
  dimension : s.dimension = header.dimension
  normalizes : s.normalizes = header.normalized
  slotCount : s.slotCount = n
  ids : s.localToId = (fileIds bytes header).take n
  live : s.live = (fileLive bytes header).take n
  liveCount : s.liveCount = s.live.count true
  consistent : (fileLiveIds bytes header).Nodup → s.Consistent

theorem getD_take {α : Type} (l : List α) (d : α) {i n : Nat} (h : i < n) :
    (l.take n).getD i d = l.getD i d := by
  rw [List.getD_eq_getElem?_getD, List.getElem?_take_of_lt h, List.getD_eq_getElem?_getD]

theorem Loaded.contains (h : Loaded bytes header n s) (hn : n < header.slotCount)
    (hnodup : (fileLiveIds bytes header).Nodup) (halive : (fileLive bytes header).getD n false = true) :
    s.contains ((fileIds bytes header).getD n 0) = false := by
  rw [Bool.eq_false_iff]
  intro hcontains
  obtain ⟨l, hl⟩ := Option.isSome_iff_exists.mp hcontains
  obtain ⟨hslot, hlive, hid⟩ := ((h.consistent hnodup).find_iff _ l).mp hl
  rw [h.slotCount] at hslot
  rw [VectorStore.isLive, h.live, getD_take _ _ hslot] at hlive
  rw [VectorStore.vectorId, h.ids, getD_take _ _ hslot] at hid
  have hsame := List.inj_on_of_nodup_map hnodup
    (List.mem_filter.mpr ⟨List.mem_range.mpr (Nat.lt_trans hslot hn), hlive⟩)
    (List.mem_filter.mpr ⟨List.mem_range.mpr hn, halive⟩) hid
  exact Nat.ne_of_lt hslot hsame

/-- One more slot of the file. -/
theorem Loaded.append {t : VectorStore} (h : Loaded bytes header n s) (hn : n < header.slotCount)
    {row : FloatVector} {norm : BitVec 32}
    (ht : VectorStore.Appended s t ((fileIds bytes header).getD n 0) row norm
      ((fileLive bytes header).getD n false)) : Loaded bytes header (n + 1) t := by
  refine ⟨ht.dimension.trans h.dimension, ht.normalizes.trans h.normalizes,
    ht.slotCount.trans (congrArg (· + 1) h.slotCount), ?_, ?_, ?_, fun hnodup => ?_⟩
  · rw [ht.ids, h.ids, take_succ_getD (by simpa [fileIds] using hn) 0]
  · rw [ht.live, h.live, take_succ_getD (by simpa [fileLive] using hn) false]
  · rw [ht.liveCount, ht.live, List.count_append, ← h.liveCount]
    cases (fileLive bytes header).getD n false <;> rfl
  · exact ht.consistent (h.consistent hnodup) fun halive => h.contains hn hnodup halive

theorem Loaded.counted (h : Loaded bytes header header.slotCount s) : s.Counted := by
  refine ⟨?_, h.liveCount⟩
  rw [h.live, h.slotCount, List.length_take, fileLive, List.length_map, length_unpackWords,
    min_self]

/-- No slot of an accepted file is rejected. -/
theorem exec_readSlots_accepted (hf : header.Accepted bytes.length)
    (h : Loaded bytes header 0 s) :
    ∃ t, exec (readSlots bytes header) s = (.ok ⟨⟩, t) ∧ Loaded bytes header header.slotCount t := by
  refine exec_forM_range (H := fun n t => Loaded bytes header n t) (fun n t hn ht => ?_) h
  have hlen : (floatsAt bytes header n).length = t.dimension := by
    simp [floatsAt, ht.dimension]
  have hroom : t.slotCount < kMaxVectorCount :=
    lt_of_lt_of_le (ht.slotCount ▸ hn) hf.slotCount_le
  obtain ⟨u, hu, happ⟩ := VectorStore.exec_appendTrusted ((fileIds bytes header).getD n 0)
    (BitVec.ofNat 32 ((unpackWords 4 header.slotCount (bytes.drop header.normsOffset)).getD n 0))
    ((fileLive bytes header).getD n false) hlen hroom
  refine ⟨u, ?_, ht.append hn happ⟩
  have hid : Fin.ofNat 18446744073709551616 ((unpackWords 8 header.slotCount
      (bytes.drop header.idsOffset)).getD n 0) = (fileIds bytes header).getD n 0 :=
    (List.getD_map _ 0 (Fin.ofNat 18446744073709551616)).symm
  have hlive : decide ((unpackWords 1 header.slotCount
      (bytes.drop header.liveOffset)).getD n 0 ≠ 0) = (fileLive bytes header).getD n false :=
    (List.getD_map _ 0 fun byte => decide (byte ≠ 0)).symm
  rw [hid, hlive, exec_bind_ok hu, exec_pure]

/-- What `read_vector_file` makes of a file whose header it accepts. -/
theorem readVectorFile_eq (h : parseVectorFileHeader bytes bytes.length = .ok header) :
    ∃ s, Loaded bytes header header.slotCount s ∧
      readVectorFile bytes =
        if (fileLive bytes header).count true = header.liveCount then .ok s
        else .error (.corruption ("vector file: header claims " ++ toString header.liveCount ++
          " live vectors but the liveness bytes contain " ++
          toString ((fileLive bytes header).count true))) := by
  have hf := (parseVectorFileHeader_eq_ok h).2
  obtain ⟨e, he, hdim, hnorm, hslots, hc⟩ :=
    VectorStore.create_eq header.normalized hf.dimension_pos hf.dimension_le
  have hempty : Loaded bytes header 0 e :=
    ⟨hdim, hnorm, hslots, by simpa [hslots] using hc.ids, by simpa [hslots] using hc.live,
      hc.liveCount, fun _ => hc⟩
  obtain ⟨s, hs, hloaded⟩ := exec_readSlots_accepted hf hempty
  have hseen : (unpackWords 1 header.slotCount (bytes.drop header.liveOffset)).countP (· ≠ 0) =
      (fileLive bytes header).count true := by
    rw [fileLive, List.count, List.countP_map]
    congr 1
    funext byte
    simp
  refine ⟨s, hloaded, ?_⟩
  rw [readVectorFile, h]
  simp only [bind, Except.bind, he, hs, hseen, check]
  by_cases hcount : (fileLive bytes header).count true = header.liveCount
  · rw [if_pos hcount, if_pos hcount]
    rfl
  · rw [if_neg hcount, if_neg hcount]

theorem readVectorFile_eq_ok (h : readVectorFile bytes = .ok s) :
    ∃ header, parseVectorFileHeader bytes bytes.length = .ok header ∧
      Loaded bytes header header.slotCount s := by
  cases hparse : parseVectorFileHeader bytes bytes.length with
  | error e =>
    rw [readVectorFile, hparse] at h
    cases h
  | ok header =>
    obtain ⟨t, ht, hread⟩ := readVectorFile_eq hparse
    rw [hread] at h
    split at h
    · cases h
      exact ⟨header, rfl, ht⟩
    · cases h

theorem readVectorFile_eq_error {e : Error} (h : readVectorFile bytes = .error e) :
    e.isCorruption = true := by
  cases hparse : parseVectorFileHeader bytes bytes.length with
  | error d =>
    rw [readVectorFile, hparse] at h
    cases h
    exact parseVectorFileHeader_eq_error hparse
  | ok header =>
    obtain ⟨t, -, hread⟩ := readVectorFile_eq hparse
    rw [hread] at h
    split at h
    · cases h
    · cases h
      rfl

end Loaded

section WellFormed

/-- Each live id is found in the only slot that has it, and they are counted right. -/
structure VectorStore.WellFormed (s : VectorStore) : Prop where
  distinct : ∀ l < s.slotCount, ∀ k < s.slotCount, s.isLive l = true → s.isLive k = true →
    s.vectorId l = s.vectorId k → l = k
  found : ∀ l < s.slotCount, s.isLive l = true → s.find (s.vectorId l) = some l
  liveCount : s.liveCount = s.live.count true
  findable : s.liveCount = s.idToLocal.size

variable {s : VectorStore}

theorem VectorStore.nodup_liveIds
    (h : ∀ l < s.slotCount, ∀ k < s.slotCount, s.isLive l = true → s.isLive k = true →
      s.vectorId l = s.vectorId k → l = k) :
    (((List.range s.slotCount).filter s.isLive).map s.vectorId).Nodup := by
  refine List.Nodup.map_on (fun l hl k hk hid => ?_) (List.nodup_range.filter _)
  rw [List.mem_filter, List.mem_range] at hl hk
  exact h l hl.1 k hk.1 hl.2 hk.2 hid

/-- The map has one entry for each live slot. -/
theorem VectorStore.Consistent.size (hs : s.Consistent) :
    s.idToLocal.size = s.live.count true := by
  have hkeys : s.idToLocal.keys.Nodup := s.idToLocal.nodup_keys
  have hsame : s.idToLocal.keys.Perm (((List.range s.slotCount).filter s.isLive).map s.vectorId) := by
    refine (List.perm_ext_iff_of_nodup hkeys (nodup_liveIds hs.distinct)).mpr fun id => ?_
    rw [Std.ExtTreeMap.mem_keys, Std.ExtTreeMap.mem_iff_isSome_getElem?, Option.isSome_iff_exists,
      List.mem_map]
    constructor
    · intro ⟨l, hl⟩
      obtain ⟨hslot, hlive, hid⟩ := (hs.find_iff id l).mp hl
      exact ⟨l, List.mem_filter.mpr ⟨List.mem_range.mpr hslot, hlive⟩, hid⟩
    · intro ⟨l, hl, hid⟩
      rw [List.mem_filter, List.mem_range] at hl
      exact ⟨l, (hs.find_iff id l).mpr ⟨hl.1, hl.2, hid⟩⟩
  rw [← Std.ExtTreeMap.length_keys, hsame.length_eq, List.length_map, ← List.countP_eq_length_filter,
    ← hs.live_eq, List.count, List.countP_map]
  congr 1
  funext l
  simp

theorem VectorStore.Consistent.wellFormed (hs : s.Consistent) : s.WellFormed where
  distinct := hs.distinct
  found l hl hlive := (hs.find_iff _ l).mpr ⟨hl, hlive, rfl⟩
  liveCount := hs.liveCount
  findable := hs.liveCount.trans hs.size.symm

variable {bytes : Bytes} {header : VectorFileHeader}

/-- A store is as well formed as the ids of the live slots of its file are distinct. -/
theorem Loaded.wellFormed_iff (h : Loaded bytes header header.slotCount s) :
    s.WellFormed ↔ (fileLiveIds bytes header).Nodup := by
  have hlive : s.live = fileLive bytes header := by
    rw [h.live, List.take_of_length_le (by simp [fileLive])]
  have hids : s.localToId = fileIds bytes header := by
    rw [h.ids, List.take_of_length_le (by simp [fileIds])]
  constructor
  · intro hs
    have hnodup := VectorStore.nodup_liveIds hs.distinct
    have hfun : s.isLive = fun slot => (fileLive bytes header).getD slot false := by
      funext slot
      rw [VectorStore.isLive, hlive]
    have hfun' : s.vectorId = fun slot => (fileIds bytes header).getD slot 0 := by
      funext slot
      rw [VectorStore.vectorId, hids]
    rwa [h.slotCount, hfun, hfun'] at hnodup
  · intro hnodup
    exact (h.consistent hnodup).wellFormed

end WellFormed

end VectorDb.Storage
