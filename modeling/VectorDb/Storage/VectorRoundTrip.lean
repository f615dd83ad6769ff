import VectorDb.Storage.VectorFile

/-!
A store's file read back: the header passes every check and each slot returns as
it was, so the file holds the whole store.
-/
set_option autoImplicit false

namespace VectorDb.Storage

open VectorDb.Lib VectorDb.Persistence Throwing

/-- The header of a store's file, read back. -/
def vectorHeaderOf (s : VectorStore) : VectorFileHeader :=
  ⟨kVectorFileVersion, s.dimension, s.slotCount, s.liveCount, s.normalizes,
    (crc32 (payloadBytes s) 0).toNat, (crc32 (vectorHeaderFields s) 0).toNat⟩

theorem length_vectorHeaderFields (s : VectorStore) :
    (vectorHeaderFields s).length = kVectorHeaderCrcOffset := by
  simp [vectorHeaderFields, u8, u32, u64, pad, fixedString, kVectorFileMagic,
    kVectorHeaderCrcOffset]

theorem length_flatten_of_length {α : Type} {rows : List (List α)} {n : Nat}
    (h : ∀ row ∈ rows, row.length = n) : rows.flatten.length = rows.length * n := by
  induction rows with
  | nil => simp
  | cons row rows ih =>
    rw [List.flatten_cons, List.length_append, h row (by simp),
      ih fun r hr => h r (by simp [hr]), List.length_cons]
    ring

theorem length_payloadBytes (s : VectorStore) :
    (payloadBytes s).length = s.slotCount * s.dimension * 4 := by
  rw [payloadBytes, length_packWords, List.length_map,
    length_flatten_of_length s.vectors.length_rows]
  rfl

theorem length_writeVectorFile (s : VectorStore) :
    (writeVectorFile s).length = 64 + s.slotCount * s.dimension * 4 + s.slotCount * 8 +
      s.slotCount * 4 + s.slotCount := by
  simp only [writeVectorFile, List.length_append, length_vectorHeaderFields, length_payloadBytes,
    u32, length_littleEndian, idsBytes, normsBytes, liveBytes, length_packWords, List.length_map,
    List.length_range, kVectorHeaderCrcOffset]
  omega

theorem vectorCheckedMultiply_ok {a b : Nat} (h : a * b < 18446744073709551616) (what : String) :
    vectorCheckedMultiply a b what = .ok (a * b) := by
  refine if_neg fun ⟨ha, hb⟩ => ?_
  have hpos : 0 < a := Nat.pos_of_ne_zero ha
  have hle : (18446744073709551615 / a + 1) * a ≤ a * b := by
    rw [Nat.mul_comm a b]
    exact Nat.mul_le_mul_right a hb
  have hlt := Nat.lt_div_mul_add hpos (a := 18446744073709551615)
  rw [Nat.succ_mul] at hle
  omega

section Header
variable (s : VectorStore)

theorem VectorStore.slotCount_lt : s.slotCount < 4294967295 := by
  have hn : s.slotCount ≤ kMaxVectorCount := s.vectors.count_le
  have hmax : kMaxVectorCount < 4294967295 := by decide
  exact hn.trans_lt hmax

theorem VectorStore.components_lt : s.slotCount * s.dimension < 4294967295 * 65537 := by
  have hd : s.dimension ≤ kMaxDimension := s.vectors.dimension_le
  have hmax : kMaxDimension < 65537 := by decide
  exact Nat.mul_lt_mul_of_lt_of_le s.slotCount_lt (hd.trans hmax.le) (by decide)

theorem vectorHeaderOf_offsets :
    (vectorHeaderOf s).idsOffset = 64 + s.slotCount * s.dimension * 4 ∧
      (vectorHeaderOf s).normsOffset = 64 + s.slotCount * s.dimension * 4 + s.slotCount * 8 ∧
      (vectorHeaderOf s).liveOffset =
        64 + s.slotCount * s.dimension * 4 + s.slotCount * 8 + s.slotCount * 4 ∧
      (vectorHeaderOf s).totalSize = (writeVectorFile s).length := by
  obtain ⟨hids, hnorms, hlive, htotal, -⟩ :=
    (vectorHeaderOf s).offsets s.vectors.count_le s.vectors.dimension_le
  rw [htotal, hlive, hnorms, hids, length_writeVectorFile]
  exact ⟨rfl, rfl, rfl, rfl⟩

/-- The header of a file that was just written is read as it was meant. -/
theorem parseVectorFileHeader_write (hlive : s.liveCount ≤ s.slotCount) :
    parseVectorFileHeader (writeVectorFile s) (writeVectorFile s).length =
      .ok (vectorHeaderOf s) := by
  have hlen : ¬ (writeVectorFile s).length < kVectorFileHeaderSize := by
    rw [length_writeVectorFile, kVectorFileHeaderSize]
    omega
  have htake : (writeVectorFile s).take kVectorFileHeaderSize =
      vectorHeaderFields s ++ u32 (crc32 (vectorHeaderFields s) 0).toNat := by
    rw [writeVectorFile, ← List.append_assoc, List.take_left']
    simp [length_vectorHeaderFields, u32, kVectorFileHeaderSize, kVectorHeaderCrcOffset]
  have hcrc : fromLittleEndian (((writeVectorFile s).drop kVectorHeaderCrcOffset).take 4) =
      (crc32 (vectorHeaderFields s) 0).toNat := by
    rw [writeVectorFile, List.drop_left' (length_vectorHeaderFields s), u32,
      List.take_left' (length_littleEndian 4 _), fromLittleEndian_of_lt]
    exact (crc32 (vectorHeaderFields s) 0).isLt
  have hfields : (writeVectorFile s).take kVectorHeaderCrcOffset = vectorHeaderFields s := by
    rw [writeVectorFile, List.take_left' (length_vectorHeaderFields s)]
  have hn := s.slotCount_lt
  have hc := s.components_lt
  have hpos : s.dimension ≠ 0 := s.vectors.dimension_pos
  have hle : s.dimension ≤ kMaxDimension := s.vectors.dimension_le
  have hdim : s.dimension % 4294967296 = s.dimension := by
    have hmax : kMaxDimension < 4294967296 := by decide
    exact Nat.mod_eq_of_lt (hle.trans_lt hmax)
  have hslot : s.slotCount % 18446744073709551616 = s.slotCount := Nat.mod_eq_of_lt (by omega)
  have hcount : s.slotCount ≤ kMaxVectorCount := s.vectors.count_le
  have hlc : s.liveCount % 18446744073709551616 = s.liveCount := Nat.mod_eq_of_lt (by omega)
  have hbytes : s.slotCount * s.dimension * 4 % 18446744073709551616 =
      s.slotCount * s.dimension * 4 := Nat.mod_eq_of_lt (by omega)
  have hmul : vectorCheckedMultiply s.slotCount s.dimension "slot_count * dimension" =
      .ok (s.slotCount * s.dimension) := vectorCheckedMultiply_ok (by omega) _
  have hmul' : vectorCheckedMultiply (s.slotCount * s.dimension) 4 "payload size" =
      .ok (s.slotCount * s.dimension * 4) := vectorCheckedMultiply_ok (by omega) _
  have hflag : decide ((if s.normalizes then kFlagNormalized else 0) % 2 = kFlagNormalized) =
      s.normalizes := by
    cases s.normalizes <;> decide
  have htotal := (vectorHeaderOf_offsets s).2.2.2
  rw [parseVectorFileHeader, if_neg hlen, htake]
  unfold readVectorHeader
  rw [hcrc, hfields]
  unfold vectorHeaderOf at htotal ⊢
  generalize crc32 (vectorHeaderFields s) 0 = crc at htotal ⊢
  simp only [vectorHeaderFields, List.append_assoc]
  generalize crc32 (payloadBytes s) 0 = payloadCrc at htotal ⊢
  have hpay : payloadCrc.toNat % 4294967296 = payloadCrc.toNat := Nat.mod_eq_of_lt payloadCrc.isLt
  rw [kVectorFileVersion] at htotal
  simp [exec_bind, exec_map, ByteReader.exec_fixedString, kVectorFileMagic, check,
    kVectorFileVersion, hdim, hpos, hle, hslot, hcount, hlc, hlive, hmul, hmul', hbytes, hpay,
    hflag, htotal]

end Header

section Arrays
variable (s : VectorStore)

theorem drop_packWords (width n : Nat) (words : List Nat) :
    (packWords width words).drop (n * width) = packWords width (words.drop n) := by
  induction n generalizing words with
  | zero => simp
  | succ n ih =>
    cases words with
    | nil => simp [packWords]
    | cons w words =>
      rw [List.drop_succ_cons, ← ih, packWords, List.flatMap_cons, Nat.succ_mul, Nat.add_comm,
        ← List.drop_drop, List.drop_left' (length_littleEndian width w)]
      rfl

/-- Each array is found where the header says. -/
theorem drop_writeVectorFile :
    (writeVectorFile s).drop (vectorHeaderOf s).payloadOffset =
        payloadBytes s ++ (idsBytes s ++ (normsBytes s ++ liveBytes s)) ∧
      (writeVectorFile s).drop (vectorHeaderOf s).idsOffset =
        idsBytes s ++ (normsBytes s ++ liveBytes s) ∧
      (writeVectorFile s).drop (vectorHeaderOf s).normsOffset = normsBytes s ++ liveBytes s ∧
      (writeVectorFile s).drop (vectorHeaderOf s).liveOffset = liveBytes s := by
  obtain ⟨hi, hn, hl, -⟩ := vectorHeaderOf_offsets s
  let header := vectorHeaderFields s ++ u32 (crc32 (vectorHeaderFields s) 0).toNat
  have hheader : header.length = 64 := by
    simp [header, length_vectorHeaderFields, u32, kVectorHeaderCrcOffset]
  have hfile : writeVectorFile s =
      header ++ (payloadBytes s ++ (idsBytes s ++ (normsBytes s ++ liveBytes s))) := by
    simp [header, writeVectorFile]
  have hp := length_payloadBytes s
  have hids : (idsBytes s).length = s.slotCount * 8 := by simp [idsBytes]
  have hnorms : (normsBytes s).length = s.slotCount * 4 := by simp [normsBytes]
  refine ⟨?_, ?_, ?_, ?_⟩
  · rw [hfile]
    exact List.drop_left' hheader
  · rw [hfile, hi, ← List.append_assoc, List.drop_left' (by simp [hheader, hp])]
  · rw [hfile, hn, ← List.append_assoc, ← List.append_assoc,
      List.drop_left' (by simp [hheader, hp, hids]; omega)]
  · rw [hfile, hl, ← List.append_assoc, ← List.append_assoc, ← List.append_assoc,
      List.drop_left' (by simp [hheader, hp, hids, hnorms]; omega)]

theorem drop_flatten_of_length {α : Type} {rows : List (List α)} {n : Nat}
    (h : ∀ row ∈ rows, row.length = n) (i : Nat) :
    rows.flatten.drop (i * n) = (rows.drop i).flatten := by
  induction i generalizing rows with
  | zero => simp
  | succ i ih =>
    cases rows with
    | nil => simp
    | cons row rows =>
      rw [List.drop_succ_cons, List.flatten_cons, Nat.succ_mul, Nat.add_comm, ← List.drop_drop,
        List.drop_left' (h row (by simp)), ih fun r hr => h r (by simp [hr])]

/-- A row stands at its place among the packed rows. -/
theorem unpackWords_row {rows : List FloatVector} {n i : Nat} (h : ∀ row ∈ rows, row.length = n)
    (hi : i < rows.length) (rest : Bytes) :
    (unpackWords 4 n ((packWords 4 (rows.flatten.map BitVec.toNat) ++ rest).drop (i * n * 4))).map
      (BitVec.ofNat 32) = rows[i] := by
  have hlen : (rows[i].map BitVec.toNat).length = n := by
    rw [List.length_map, h _ (List.getElem_mem hi)]
  have hle : i * n * 4 ≤ (packWords 4 (rows.flatten.map BitVec.toNat)).length := by
    rw [length_packWords, List.length_map, length_flatten_of_length h]
    exact Nat.mul_le_mul_right 4 (Nat.mul_le_mul_right _ hi.le)
  have hrow : (packWords 4 (rows.flatten.map BitVec.toNat)).drop (i * n * 4) =
      packWords 4 (rows[i].map BitVec.toNat) ++
        packWords 4 ((rows.drop (i + 1)).flatten.map BitVec.toNat) := by
    rw [drop_packWords, ← List.map_drop, drop_flatten_of_length h, List.drop_eq_getElem_cons hi,
      List.flatten_cons, List.map_append, packWords, packWords, packWords, List.flatMap_append]
  have hwords : ∀ w ∈ rows[i].map BitVec.toNat, w < 256 ^ 4 := by
    intro w hw
    obtain ⟨x, -, rfl⟩ := List.mem_map.mp hw
    exact x.isLt
  rw [List.drop_append_of_le_length hle, hrow, List.append_assoc]
  nth_rewrite 1 [← hlen]
  rw [unpackWords_packWords _ hwords, List.map_map]
  exact List.map_id'' (fun x => by simp) _

theorem floatsAt_write {slot : Nat} (hslot : slot < s.slotCount) :
    floatsAt (writeVectorFile s) (vectorHeaderOf s) slot = s.vector slot := by
  have hlt : slot < s.vectors.rows.length := hslot
  have hrow : s.vector slot = s.vectors.rows[slot] := List.getD_eq_getElem _ _ hlt
  rw [hrow, floatsAt, ← List.drop_drop, (drop_writeVectorFile s).1, payloadBytes]
  exact unpackWords_row s.vectors.length_rows hlt _

end Arrays

/-- Stores with the same arrays are the same, as their maps and counts follow. -/
theorem VectorStore.Consistent.ext {s t : VectorStore} (hs : s.Consistent) (ht : t.Consistent)
    (hdim : t.dimension = s.dimension) (hnormalizes : t.normalizes = s.normalizes)
    (hrows : t.vectors.rows = s.vectors.rows) (hnorms : t.norms = s.norms)
    (hlive : t.live = s.live) (hids : t.localToId = s.localToId) : t = s := by
  have hvectors : t.vectors = s.vectors := VectorArray.ext hdim hrows
  have hmap : t.idToLocal = s.idToLocal := by
    apply Std.ExtTreeMap.ext_getElem?
    intro id
    have hiff : ∀ l, t.find id = some l ↔ s.find id = some l := by
      intro l
      rw [hs.find_iff, ht.find_iff, VectorStore.slotCount, VectorStore.slotCount, hvectors,
        VectorStore.isLive, VectorStore.isLive, hlive, VectorStore.vectorId, VectorStore.vectorId,
        hids]
    exact Option.ext hiff
  have hcount : t.liveCount = s.liveCount := by rw [hs.liveCount, ht.liveCount, hlive]
  cases s
  cases t
  simp_all

section Read
variable {s : VectorStore} (hs : s.Consistent)
include hs

theorem VectorStore.Consistent.live_eq : (List.range s.slotCount).map s.isLive = s.live := by
  apply List.ext_getElem (by simp [hs.live])
  intro i h1 h2
  rw [List.getElem_map, List.getElem_range, VectorStore.isLive, List.getD_eq_getElem _ _ h2]

theorem VectorStore.Consistent.liveCount_le : s.liveCount ≤ s.slotCount := by
  rw [hs.liveCount, ← hs.live]
  exact List.count_le_length

/-- `t` holds the first `n` slots of `s`. -/
structure Prefix (s t : VectorStore) (n : Nat) : Prop where
  consistent : t.Consistent
  dimension : t.dimension = s.dimension
  normalizes : t.normalizes = s.normalizes
  rows : t.vectors.rows = s.vectors.rows.take n
  norms : t.norms = s.norms.take n
  live : t.live = s.live.take n
  ids : t.localToId = s.localToId.take n

omit hs in
theorem take_succ_getD {α : Type} {l : List α} {n : Nat} (h : n < l.length) (d : α) :
    l.take (n + 1) = l.take n ++ [l.getD n d] := by
  rw [List.take_succ_eq_append_getElem h, List.getD_eq_getElem _ _ h]

/-- The next slot of `s` is not yet in the map of a shorter prefix. -/
theorem Prefix.contains {t : VectorStore} {n : Nat} (hp : Prefix s t n) (hn : n < s.slotCount)
    (hlive : s.isLive n = true) : t.contains (s.vectorId n) = false := by
  have hslots : t.slotCount = n := by
    simp only [VectorStore.slotCount, VectorArray.size] at hn ⊢
    rw [hp.rows, List.length_take]
    omega
  rw [VectorStore.contains, Option.isSome_eq_false_iff, Option.isNone_iff_eq_none]
  cases hf : t.find (s.vectorId n) with
  | none => rfl
  | some l =>
    obtain ⟨hlt, hl, hid⟩ := (hp.consistent.find_iff _ _).mp hf
    have hln : l < n := hlt.trans_eq hslots
    have hl' : s.isLive l = true := by
      rw [VectorStore.isLive, hp.live, List.getD_eq_getElem?_getD, List.getElem?_take_of_lt hln] at hl
      rwa [VectorStore.isLive, List.getD_eq_getElem?_getD]
    have hid' : s.vectorId l = s.vectorId n := by
      rw [VectorStore.vectorId, hp.ids, List.getD_eq_getElem?_getD,
        List.getElem?_take_of_lt hln] at hid
      rw [← hid, VectorStore.vectorId, List.getD_eq_getElem?_getD]
    have h1 := (hs.find_iff (s.vectorId n) l).mpr ⟨hln.trans hn, hl', hid'⟩
    have h2 := (hs.find_iff (s.vectorId n) n).mpr ⟨hn, hlive, rfl⟩
    rw [h1] at h2
    exact absurd (Option.some.inj h2) hln.ne

/-- One turn of the loop over the slots. -/
theorem Prefix.appendTrusted {t : VectorStore} {n : Nat} (hp : Prefix s t n)
    (hn : n < s.slotCount) :
    ∃ u, exec (VectorStore.appendTrusted (s.vectorId n) (s.vector n) (s.norm n) (s.isLive n)) t =
      (.ok t.slotCount, u) ∧ Prefix s u (n + 1) := by
  have hslots : t.slotCount = n := by
    simp only [VectorStore.slotCount, VectorArray.size] at hn ⊢
    rw [hp.rows, List.length_take]
    omega
  have hlen : (s.vector n).length = t.dimension := by
    rw [hp.dimension]
    exact s.vectors.length_rows _ (VectorArray.row_mem hn)
  have hroom : t.slotCount < kMaxVectorCount := by
    rw [hslots]
    exact lt_of_lt_of_le hn s.vectors.count_le
  obtain ⟨u, hu, ha⟩ := VectorStore.exec_appendTrusted (s.vectorId n) (s.norm n)
    (s.isLive n) hlen hroom
  refine ⟨u, hu, ha.consistent hp.consistent (hp.contains hs hn), ha.dimension.trans hp.dimension,
    ha.normalizes.trans hp.normalizes, ?_, ?_, ?_, ?_⟩
  · rw [ha.rows, hp.rows, take_succ_getD hn []]
    rfl
  · rw [ha.norms, hp.norms, take_succ_getD (hs.norms ▸ hn) 0#32]
    rfl
  · rw [ha.live, hp.live, take_succ_getD (hs.live ▸ hn) false]
    rfl
  · rw [ha.ids, hp.ids, take_succ_getD (hs.ids ▸ hn) 0]
    rfl

omit hs in
/-- What is written for each slot is found again at its place. -/
theorem getD_unpackWords_range (width n : Nat) (f : Nat → Nat) (hf : ∀ i < n, f i < 256 ^ width)
    (rest : Bytes) {i : Nat} (hi : i < n) :
    (unpackWords width n (packWords width ((List.range n).map f) ++ rest)).getD i 0 = f i := by
  have hwords : ∀ w ∈ (List.range n).map f, w < 256 ^ width := by
    intro w hw
    obtain ⟨j, hj, rfl⟩ := List.mem_map.mp hw
    exact hf j (List.mem_range.mp hj)
  have hback := unpackWords_packWords rest hwords
  rw [List.length_map, List.length_range] at hback
  rw [hback, List.getD_eq_getElem _ _ (by simpa using hi)]
  simp

/-- The loop rebuilds the store from its file. -/
theorem exec_readSlots {t : VectorStore} (hp : Prefix s t 0) :
    exec (readSlots (writeVectorFile s) (vectorHeaderOf s)) t = (.ok ⟨⟩, s) := by
  obtain ⟨-, hids, hnorms, hlive⟩ := drop_writeVectorFile s
  have hcount : (vectorHeaderOf s).slotCount = s.slotCount := rfl
  have hrest : liveBytes s = liveBytes s ++ [] := (List.append_nil _).symm
  obtain ⟨u, hu, hlast⟩ : ∃ u, exec (readSlots (writeVectorFile s) (vectorHeaderOf s)) t =
      (.ok ⟨⟩, u) ∧ Prefix s u s.slotCount := by
    rw [readSlots, hids, hnorms, hlive, hrest, hcount]
    refine exec_forM_range (H := fun n t => Prefix s t n) (fun n t hn hp => ?_) hp
    have hid : Fin.ofNat 18446744073709551616 ((unpackWords 8 s.slotCount
        (idsBytes s ++ (normsBytes s ++ (liveBytes s ++ [])))).getD n 0) = s.vectorId n := by
      rw [idsBytes, getD_unpackWords_range 8 _ _ (fun i _ => (s.vectorId i).isLt) _ hn]
      exact Fin.ofNat_val_eq_self _
    have hnorm : BitVec.ofNat 32 ((unpackWords 4 s.slotCount
        (normsBytes s ++ (liveBytes s ++ []))).getD n 0) = s.norm n := by
      rw [normsBytes, getD_unpackWords_range 4 _ _ (fun i _ => (s.norm i).isLt) _ hn]
      simp
    have halive : decide ((unpackWords 1 s.slotCount (liveBytes s ++ [])).getD n 0 ≠ 0) =
        s.isLive n := by
      rw [liveBytes, getD_unpackWords_range 1 _ _ (fun i _ => by cases s.isLive i <;> decide) _ hn]
      cases s.isLive n <;> rfl
    rw [hid, hnorm, halive, floatsAt_write s hn]
    obtain ⟨u, hu, hnext⟩ := hp.appendTrusted hs hn
    exact ⟨u, by rw [exec_bind_ok hu, exec_pure], hnext⟩
  have htake : ∀ {α : Type} {l : List α}, l.length = s.slotCount → l.take s.slotCount = l :=
    fun h => List.take_of_length_le h.le
  have hus : u = s := by
    refine hs.ext hlast.consistent hlast.dimension hlast.normalizes ?_ ?_ ?_ ?_
    · rw [hlast.rows, htake rfl]
    · rw [hlast.norms, htake hs.norms]
    · rw [hlast.live, htake hs.live]
    · rw [hlast.ids, htake hs.ids]
  rw [hu, hus]

theorem countP_liveBytes :
    (unpackWords 1 s.slotCount (liveBytes s)).countP (· ≠ 0) = s.liveCount := by
  have hwords : ∀ w ∈ (List.range s.slotCount).map fun slot => (s.isLive slot).toNat,
      w < 256 ^ 1 := by
    intro w hw
    obtain ⟨i, -, rfl⟩ := List.mem_map.mp hw
    cases s.isLive i <;> decide
  have hback := unpackWords_packWords [] hwords
  rw [List.append_nil, List.length_map, List.length_range] at hback
  rw [liveBytes, hback, hs.liveCount, ← hs.live_eq, List.count, List.countP_map, List.countP_map]
  congr 1
  funext i
  cases h : s.isLive i <;> simp [h]

/-- A store's file holds all of it. -/
theorem readVectorFile_write : readVectorFile (writeVectorFile s) = .ok s := by
  obtain ⟨t, ht, hdim, hnorm, hslots, hc⟩ := VectorStore.create_eq s.normalizes
    s.vectors.dimension_pos s.vectors.dimension_le
  have hrows : t.vectors.rows = [] := List.length_eq_zero_iff.mp hslots
  have hnil : ∀ {α : Type} {l : List α}, l.length = t.slotCount → l = [] :=
    fun h => List.length_eq_zero_iff.mp (h.trans hslots)
  have hp : Prefix s t 0 :=
    ⟨hc, hdim, hnorm, by simp [hrows], by simp [hnil hc.norms], by simp [hnil hc.live],
      by simp [hnil hc.ids]⟩
  rw [readVectorFile, parseVectorFileHeader_write s hs.liveCount_le]
  simp only [bind, Except.bind, show (vectorHeaderOf s).dimension = s.vectors.dimension from rfl,
    show (vectorHeaderOf s).normalized = s.normalizes from rfl, ht, exec_readSlots hs hp,
    (drop_writeVectorFile s).2.2.2, show (vectorHeaderOf s).slotCount = s.slotCount from rfl,
    countP_liveBytes hs, show (vectorHeaderOf s).liveCount = s.liveCount from rfl, check, if_true]
  rfl

end Read

end VectorDb.Storage
