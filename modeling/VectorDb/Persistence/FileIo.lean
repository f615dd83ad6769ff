import VectorDb.Core.Error
import VectorDb.Lib.LittleEndian
import VectorDb.Lib.Throwing

/-!
src/persistence/file_io.cpp: `write_file_atomically` over the system calls it makes. The
kernel may refuse any call, interrupt a `write` or take only the front of what it is
given, and the process may stop after any of its calls.
-/
set_option autoImplicit false

namespace VectorDb.Persistence

open VectorDb.Lib Throwing

/-- `durable` tells that the bytes are on the disk and not only in its cache. -/
structure File where
  bytes : Bytes
  durable : Bool
  deriving DecidableEq, Repr

abbrev FileSystem := String → Option File

/-- The answer to one system call. A `write` that is not refused takes one byte, and up
to `more` further ones. -/
inductive Response where
  | done (more : Nat)
  | failed (errno : Nat)
  deriving DecidableEq, Repr

/-- `renamed` has one entry for each rename, the file as it was put in place. The
process stops where it asks for an answer and none is left. -/
structure Machine where
  files : FileSystem
  renamed : List File
  responses : List Response

inductive Ending where
  | stopped
  | threw (e : Error)
  deriving DecidableEq, Repr

abbrev Posix (α : Type) := Throwing Ending Machine α

/-- The interrupted system call. -/
def eintr : Nat := 4

def FileSystem.append (fs : FileSystem) (name : String) (data : Bytes) : FileSystem :=
  Function.update fs name ((fs name).map fun file => ⟨file.bytes ++ data, false⟩)

def FileSystem.sync (fs : FileSystem) (name : String) : FileSystem :=
  Function.update fs name ((fs name).map fun file => { file with durable := true })

def FileSystem.move (fs : FileSystem) (source target : String) : FileSystem :=
  Function.update (Function.update fs target (fs source)) source none

def respond : Posix Response := do
  let m ← get
  match m.responses with
  | [] => throw .stopped
  | response :: responses =>
    set { m with responses }
    return response

def change (f : FileSystem → FileSystem) : Posix Unit :=
  modify fun m => { m with files := f m.files }

section Calls
variable (describeErrno : Nat → String)

/-- `IoError::from_errno`. -/
def ioError (operation path : String) (errno : Nat) : Ending :=
  .threw (.io (operation ++ " failed for '" ++ path ++ "': " ++ describeErrno errno))

/-- A call that throws where it is refused. -/
def callOrThrow (operation path : String) : Posix Unit := do
  match ← respond with
  | .failed errno => throw (ioError describeErrno operation path errno)
  | .done _ => pure ()

/-- The loop of `write_all`, as long as there are answers. -/
def writeLoop (path : String) : List Response → Bytes → Machine → Except Ending Unit × Machine
  | responses, [], m => (.ok (), { m with responses })
  | [], _ :: _, m => (.error .stopped, { m with responses := [] })
  | .failed errno :: responses, byte :: data, m =>
    if errno = eintr then writeLoop path responses (byte :: data) m
    else (.error (ioError describeErrno "write" path errno), { m with responses })
  | .done more :: responses, byte :: data, m =>
    writeLoop path responses (data.drop more)
      { m with files := m.files.append path (byte :: data.take more) }

def writeAll (path : String) (data : Bytes) : Posix Unit :=
  fun m => writeLoop describeErrno path m.responses data m

def fsync (path : String) : Posix Unit := do
  callOrThrow describeErrno "fsync" path
  change (·.sync path)

/-- With `apple`, `F_FULLFSYNC` is tried first. -/
def fsyncOrThrow (apple : Bool) (path : String) : Posix Unit := do
  if apple then
    match ← respond with
    | .failed _ => fsync describeErrno path
    | .done _ => change (·.sync path)
  else fsync describeErrno path

/-- `~FileDescriptor`. -/
def closeQuietly : Posix Unit := do
  let _ ← respond

/-- A body that holds an open descriptor: where it throws, the descriptor is closed. -/
def withDescriptor (body : Posix Unit) : Posix Unit :=
  tryCatch body fun ending =>
    match ending with
    | .stopped => throw .stopped
    | .threw e => do
      closeQuietly
      throw (.threw e)

/-- `std::filesystem::path::parent_path`. -/
def parentPath (path : String) : String :=
  let directory := path.toList.reverse.dropWhile (· ≠ '/')
  let name := directory.dropWhile (· = '/')
  String.ofList (if name.isEmpty then directory else name).reverse

def fsyncDirectory (directory : String) : Posix Unit := do
  callOrThrow describeErrno "open directory" directory
  let _ ← respond
  closeQuietly

/-- `unlink`, whose result is not looked at. -/
def unlinkQuietly (name : String) : Posix Unit := do
  match ← respond with
  | .done _ => change fun files => Function.update files name none
  | .failed _ => pure ()

/-- Either the rename is done or the temporary file is removed. -/
def renameOrUnlink (temporary path : String) : Posix Unit := do
  match ← respond with
  | .done _ =>
    modify fun m => { m with
      files := m.files.move temporary path
      renamed := m.renamed ++ (m.files temporary).toList }
  | .failed errno =>
    unlinkQuietly temporary
    throw (ioError describeErrno "rename" path errno)

def temporaryOf (path : String) : String := path ++ ".tmp"

def writeFileAtomically (apple : Bool) (path : String) (chunks : List Bytes) : Posix Unit := do
  let temporary := temporaryOf path
  callOrThrow describeErrno "open for write" temporary
  change fun files => Function.update files temporary (some ⟨[], false⟩)
  withDescriptor do
    chunks.forM fun chunk => do
      if !chunk.isEmpty then
        writeAll describeErrno temporary chunk
    fsyncOrThrow describeErrno apple temporary
  callOrThrow describeErrno "close" "<fd>"
  renameOrUnlink describeErrno temporary path
  fsyncDirectory describeErrno (if (parentPath path).isEmpty then "." else parentPath path)

end Calls

section FileSystem
variable {fs : FileSystem} {name other : String}

theorem FileSystem.append_of_ne (h : other ≠ name) (data : Bytes) :
    fs.append name data other = fs other := Function.update_of_ne h _ _

theorem FileSystem.append_self {file : File} (h : fs name = some file) (data : Bytes) :
    fs.append name data name = some ⟨file.bytes ++ data, false⟩ := by simp [append, h]

theorem FileSystem.sync_of_ne (h : other ≠ name) : fs.sync name other = fs other :=
  Function.update_of_ne h _ _

theorem FileSystem.sync_self {file : File} (h : fs name = some file) :
    fs.sync name name = some { file with durable := true } := by simp [sync, h]

theorem FileSystem.move_target (h : other ≠ name) :
    fs.move name other other = fs name := by
  rw [move, Function.update_of_ne h, Function.update_self]

end FileSystem

/-- The temporary file is never the target itself. -/
theorem ne_temporaryOf (path : String) : path ≠ temporaryOf path := by
  intro h
  have hlength := congrArg String.length h
  rw [temporaryOf, String.length_append] at hlength
  have : ".tmp".length = 4 := rfl
  omega

/-- The target still is what it was, and no rename was made. -/
def Untouched (m : Machine) (path : String) (t : Machine) : Prop :=
  t.files path = m.files path ∧ t.renamed = m.renamed

/-- The temporary file holds `data`, and nothing else has happened. -/
def Holding (m : Machine) (path : String) (data : Bytes) (t : Machine) : Prop :=
  Untouched m path t ∧ ∃ durable, t.files (temporaryOf path) = some ⟨data, durable⟩

/-- The same, with the data on the disk. -/
def Synced (m : Machine) (path : String) (data : Bytes) (t : Machine) : Prop :=
  Untouched m path t ∧ t.files (temporaryOf path) = some ⟨data, true⟩

/-- The target was replaced, by one rename of the data once they were on the disk. -/
def Replaced (m : Machine) (path : String) (data : Bytes) (t : Machine) : Prop :=
  t.files path = some ⟨data, true⟩ ∧ t.renamed = m.renamed ++ [⟨data, true⟩]

section Atomic
variable (describeErrno : Nat → String) {m : Machine} {path : String} {data : Bytes}

theorem respond_spec {P : Machine → Prop} (hP : ∀ t responses, P t → P { t with responses }) :
    Triple P respond (fun _ => P) fun _ => P := by
  intro t ht
  simp only [respond, exec_bind, exec_get]
  cases t.responses with
  | nil => exact ht
  | cons response responses => exact hP t responses ht

theorem callOrThrow_spec {P : Machine → Prop} (hP : ∀ t responses, P t → P { t with responses })
    (operation name : String) :
    Triple P (callOrThrow describeErrno operation name) (fun _ => P) fun _ => P := by
  refine Triple.bind (respond_spec hP) fun response => ?_
  cases response with
  | done more => exact Triple.pure fun _ h => h
  | failed errno => exact Triple.throw fun _ h => h

theorem open_spec :
    Triple (Untouched m path)
      (change fun files => Function.update files (temporaryOf path) (some ⟨[], false⟩))
      (fun _ => Holding m path []) fun _ => Untouched m path := by
  rintro t ⟨hfile, hrenamed⟩
  refine ⟨⟨?_, hrenamed⟩, false, Function.update_self ..⟩
  exact (Function.update_of_ne (ne_temporaryOf path) _ _).trans hfile

theorem writeLoop_spec (responses : List Response) (written rest : Bytes) (t : Machine)
    (h : Holding m path written t) :
    match writeLoop describeErrno (temporaryOf path) responses rest t with
    | (.ok _, t') => Holding m path (written ++ rest) t'
    | (.error _, t') => Untouched m path t' := by
  induction responses generalizing written rest t with
  | nil =>
    cases rest with
    | nil =>
      simp only [writeLoop, List.append_nil]
      exact h
    | cons byte rest => exact h.1
  | cons response responses ih =>
    cases rest with
    | nil =>
      simp only [writeLoop, List.append_nil]
      exact h
    | cons byte rest =>
      cases response with
      | failed errno =>
        rw [writeLoop]
        by_cases he : errno = eintr
        · rw [if_pos he]
          exact ih written (byte :: rest) t h
        · rw [if_neg he]
          exact h.1
      | done more =>
        rw [writeLoop]
        obtain ⟨⟨hfile, hrenamed⟩, durable, htemporary⟩ := h
        have hnext := ih (written ++ byte :: rest.take more) (rest.drop more)
          { t with files := t.files.append (temporaryOf path) (byte :: rest.take more) }
          ⟨⟨(FileSystem.append_of_ne (ne_temporaryOf path) _).trans hfile, hrenamed⟩, false,
            FileSystem.append_self htemporary _⟩
        rwa [List.append_assoc, List.cons_append, List.take_append_drop] at hnext

theorem exec_writeAll (name : String) (rest : Bytes) (t : Machine) :
    exec (writeAll describeErrno name rest) t =
      writeLoop describeErrno name t.responses rest t := rfl

theorem writeAll_spec (written rest : Bytes) :
    Triple (Holding m path written) (writeAll describeErrno (temporaryOf path) rest)
      (fun _ => Holding m path (written ++ rest)) fun _ => Untouched m path := by
  intro t ht
  have hloop := writeLoop_spec describeErrno t.responses written rest t ht
  rw [exec_writeAll]
  rcases hr : writeLoop describeErrno (temporaryOf path) t.responses rest t with ⟨r, t'⟩
  rw [hr] at hloop
  cases r <;> exact hloop

theorem writeChunk_spec (written chunk : Bytes) :
    Triple (Holding m path written)
      (do if !chunk.isEmpty then writeAll describeErrno (temporaryOf path) chunk)
      (fun _ => Holding m path (written ++ chunk)) fun _ => Untouched m path := by
  cases chunk with
  | nil => exact Triple.pure fun t ht => by simpa using ht
  | cons byte chunk => exact writeAll_spec describeErrno written (byte :: chunk)

theorem sync_spec :
    Triple (Holding m path data) (change (·.sync (temporaryOf path)))
      (fun _ => Synced m path data) fun _ => Untouched m path := by
  rintro t ⟨⟨hfile, hrenamed⟩, durable, htemporary⟩
  exact ⟨⟨(FileSystem.sync_of_ne (ne_temporaryOf path)).trans hfile, hrenamed⟩,
    FileSystem.sync_self htemporary⟩

theorem fsync_spec :
    Triple (Holding m path data) (fsync describeErrno (temporaryOf path))
      (fun _ => Synced m path data) fun _ => Untouched m path :=
  Triple.bind ((callOrThrow_spec describeErrno (fun _ _ h => h) _ _).conseq (fun _ h => h)
    (fun _ _ h => h) fun _ _ h => h.1) fun _ => sync_spec

theorem fsyncOrThrow_spec (apple : Bool) :
    Triple (Holding m path data) (fsyncOrThrow describeErrno apple (temporaryOf path))
      (fun _ => Synced m path data) fun _ => Untouched m path := by
  cases apple with
  | false => exact fsync_spec describeErrno
  | true =>
    refine Triple.bind ((respond_spec fun _ _ h => h).conseq (fun _ h => h) (fun _ _ h => h)
      fun _ _ h => h.1) fun response => ?_
    cases response with
    | done more => exact sync_spec
    | failed errno => exact fsync_spec describeErrno

theorem withDescriptor_spec {P : Machine → Prop} {body : Posix Unit} {Q : Machine → Prop}
    (hP : ∀ t responses, P t → P { t with responses })
    (h : Triple Q body (fun _ => Synced m path data) fun _ => P) :
    Triple Q (withDescriptor body) (fun _ => Synced m path data) fun _ => P := by
  refine Triple.tryCatch h fun ending => ?_
  cases ending with
  | stopped => exact Triple.throw fun _ h => h
  | threw e =>
    exact Triple.bind (Triple.bind (respond_spec hP) fun _ => Triple.pure fun _ h => h) fun _ =>
      Triple.throw fun _ h => h

theorem unlinkQuietly_spec :
    Triple (Untouched m path) (unlinkQuietly (temporaryOf path)) (fun _ => Untouched m path)
      fun _ => Untouched m path := by
  refine Triple.bind (respond_spec fun _ _ h => h) fun response => ?_
  cases response with
  | done more =>
    rintro t ⟨hfile, hrenamed⟩
    exact ⟨(Function.update_of_ne (ne_temporaryOf path) _ _).trans hfile, hrenamed⟩
  | failed errno => exact Triple.pure fun _ h => h

theorem renameOrUnlink_spec :
    Triple (Synced m path data) (renameOrUnlink describeErrno (temporaryOf path) path)
      (fun _ => Replaced m path data) fun _ => Untouched m path := by
  refine Triple.bind ((respond_spec fun _ _ h => h).conseq (fun _ h => h) (fun _ _ h => h)
    fun _ _ h => h.1) fun response => ?_
  cases response with
  | done more =>
    rintro t ⟨⟨hfile, hrenamed⟩, htemporary⟩
    refine ⟨(FileSystem.move_target (ne_temporaryOf path)).trans htemporary, ?_⟩
    simp only [htemporary, hrenamed, Option.toList]
  | failed errno =>
    exact Triple.bind (unlinkQuietly_spec.conseq (fun _ h => h.1) (fun _ _ h => h) fun _ _ h => h)
      fun _ => Triple.throw fun _ h => h

theorem fsyncDirectory_spec {P : Machine → Prop} (hP : ∀ t responses, P t → P { t with responses })
    (directory : String) :
    Triple P (fsyncDirectory describeErrno directory) (fun _ => P) fun _ => P :=
  Triple.bind (callOrThrow_spec describeErrno hP _ _) fun _ => Triple.bind (respond_spec hP)
    fun _ => Triple.bind (respond_spec hP) fun _ => Triple.pure fun _ h => h

theorem writeFileAtomically_spec (apple : Bool) (chunks : List Bytes) :
    Triple (Untouched m path) (writeFileAtomically describeErrno apple path chunks)
      (fun _ => Replaced m path chunks.flatten)
      (fun _ t => Untouched m path t ∨ Replaced m path chunks.flatten t) := by
  have hwrite : Triple (Holding m path []) (withDescriptor do
      chunks.forM fun chunk => do
        if !chunk.isEmpty then
          writeAll describeErrno (temporaryOf path) chunk
      fsyncOrThrow describeErrno apple (temporaryOf path))
      (fun _ => Synced m path chunks.flatten) fun _ => Untouched m path := by
    refine withDescriptor_spec (fun _ _ h => h) (Triple.bind ?_ fun _ =>
      fsyncOrThrow_spec describeErrno apple)
    have hloop := Triple.forM (l := chunks) (H := fun written => Holding m path written)
      (fun written chunk => written ++ chunk) (writeChunk_spec describeErrno) []
    rwa [List.foldl_append_eq_append, List.nil_append, List.map_id'] at hloop
  have hleft : ∀ {P : Machine → Prop} {Q : Unit → Machine → Prop} {x : Posix Unit},
      Triple P x Q (fun _ => Untouched m path) →
      Triple P x Q (fun _ t => Untouched m path t ∨ Replaced m path chunks.flatten t) :=
    fun h => h.conseq (fun _ h => h) (fun _ _ h => h) fun _ _ h => .inl h
  refine Triple.bind (hleft (callOrThrow_spec describeErrno (fun _ _ h => h) _ _)) fun _ => ?_
  refine Triple.bind (hleft open_spec) fun _ => Triple.bind (hleft hwrite) fun _ => ?_
  refine Triple.bind (hleft ((callOrThrow_spec describeErrno (fun _ _ h => h) _ _).conseq
    (fun _ h => h) (fun _ _ h => h) fun _ _ h => h.1)) fun _ => ?_
  refine Triple.bind (hleft (renameOrUnlink_spec describeErrno)) fun _ => ?_
  exact (fsyncDirectory_spec describeErrno (fun _ _ h => h) _).conseq (fun _ h => h)
    (fun _ _ h => h) fun _ _ h => .inr h

/-- However the kernel answers and wherever the process stops, the target is the old
file or all of the new one, which was on the disk before it was renamed; and it is the
new one if the code returns. -/
theorem writeFileAtomically_atomic (describeErrno : Nat → String) (apple : Bool) (path : String)
    (chunks : List Bytes) (m : Machine) :
    match exec (writeFileAtomically describeErrno apple path chunks) m with
    | (.ok _, t) => t.files path = some ⟨chunks.flatten, true⟩ ∧
        t.renamed = m.renamed ++ [⟨chunks.flatten, true⟩]
    | (.error _, t) => (t.files path = m.files path ∧ t.renamed = m.renamed) ∨
        (t.files path = some ⟨chunks.flatten, true⟩ ∧
          t.renamed = m.renamed ++ [⟨chunks.flatten, true⟩]) := by
  have h := writeFileAtomically_spec describeErrno apple chunks m (⟨rfl, rfl⟩ : Untouched m path m)
  rcases hr : exec (writeFileAtomically describeErrno apple path chunks) m with ⟨r, t⟩
  rw [hr] at h
  cases r <;> exact h

/-- An interrupted and a short write. -/
example : (exec (writeFileAtomically (fun _ => "") false "x" [[1, 2], [3]])
    ⟨fun _ => none, [], [.done 0, .failed 4, .done 0, .done 0, .done 0, .done 0, .done 0, .done 0,
      .done 0, .done 0, .done 0]⟩).2.files "x" = some ⟨[1, 2, 3], true⟩ := by decide

end Atomic

section Returns
variable (describeErrno : Nat → String)

/-- No call is refused from here on, and there are answers to `count` more. -/
def Willing (count : Nat) (m : Machine) : Prop :=
  (∀ response ∈ m.responses, ∃ more, response = .done more) ∧ count ≤ m.responses.length

theorem willing_respond (count : Nat) :
    Triple (Willing (count + 1)) respond (fun response t => (∃ more, response = .done more) ∧
      Willing count t) fun _ _ => False := by
  rintro t ⟨hdone, hcount⟩
  simp only [respond, exec_bind, exec_get]
  cases hr : t.responses with
  | nil =>
    rw [hr] at hcount
    cases hcount
  | cons response responses =>
    rw [hr] at hdone hcount
    exact ⟨hdone response (by simp), fun r h => hdone r (by simp [h]), by simpa using hcount⟩

theorem willing_respondThen {α : Type} {count : Nat} {f : Response → Posix α}
    {Q : α → Machine → Prop} (h : ∀ more, Triple (Willing count) (f (.done more)) Q fun _ _ => False) :
    Triple (Willing (count + 1)) (respond >>= f) Q fun _ _ => False := by
  refine Triple.bind (willing_respond count) fun response => ?_
  rintro t ⟨⟨more, rfl⟩, ht⟩
  exact h more t ht

theorem willing_callOrThrow (count : Nat) (operation name : String) :
    Triple (Willing (count + 1)) (callOrThrow describeErrno operation name)
      (fun _ => Willing count) fun _ _ => False :=
  willing_respondThen fun _ => Triple.pure fun _ h => h

theorem willing_writeLoop (name : String) (count : Nat) (responses : List Response) (rest : Bytes)
    (m : Machine) (h : Willing (count + rest.length) { m with responses }) :
    ∃ t, writeLoop describeErrno name responses rest m = (.ok (), t) ∧ Willing count t := by
  induction responses generalizing rest m with
  | nil =>
    cases rest with
    | nil => exact ⟨_, rfl, h⟩
    | cons byte rest => exact absurd h.2 (by simp)
  | cons response responses ih =>
    cases rest with
    | nil => exact ⟨_, rfl, h⟩
    | cons byte rest =>
      obtain ⟨hdone, hcount⟩ := h
      obtain ⟨more, rfl⟩ := hdone response (by simp)
      refine ih (rest.drop more) _ ⟨fun r hr => hdone r (by simp [hr]), ?_⟩
      simp only [List.length_cons, List.length_drop] at hcount ⊢
      omega

theorem willing_writeAll (name : String) (count : Nat) (rest : Bytes) :
    Triple (Willing (count + rest.length)) (writeAll describeErrno name rest)
      (fun _ => Willing count) fun _ _ => False := by
  intro t ht
  obtain ⟨t', ht', hwilling⟩ := willing_writeLoop describeErrno name count t.responses rest t ht
  rw [exec_writeAll, ht']
  exact hwilling

theorem willing_writeChunks (name : String) (count : Nat) (chunks : List Bytes) :
    Triple (Willing (count + chunks.flatten.length))
      (chunks.forM fun chunk => do
        if !chunk.isEmpty then
          writeAll describeErrno name chunk)
      (fun _ => Willing count) fun _ _ => False := by
  induction chunks with
  | nil => exact Triple.pure fun _ h => h
  | cons chunk chunks ih =>
    refine Triple.bind (Q := fun _ => Willing (count + chunks.flatten.length)) ?_ fun _ => ih
    rw [List.flatten_cons, List.length_append, Nat.add_comm chunk.length, ← Nat.add_assoc]
    cases chunk with
    | nil => exact Triple.pure fun _ h => h
    | cons byte chunk => exact willing_writeAll describeErrno name _ (byte :: chunk)

/-- Where no call is refused the code returns, after no more writes than bytes. -/
theorem writeFileAtomically_returns (path : String) (chunks : List Bytes) (m : Machine)
    (h : Willing (chunks.flatten.length + 7) m) :
    (exec (writeFileAtomically describeErrno false path chunks) m).1 = .ok () := by
  have hbody : Triple (Willing (chunks.flatten.length + 6))
      (withDescriptor do
        chunks.forM fun chunk => do
          if !chunk.isEmpty then
            writeAll describeErrno (temporaryOf path) chunk
        fsyncOrThrow describeErrno false (temporaryOf path))
      (fun _ => Willing 5) fun _ _ => False := by
    refine Triple.tryCatch (E := fun _ _ => False)
      (Triple.bind (Q := fun _ => Willing 6) ?_ fun _ => ?_) fun _ _ h => h.elim
    · have hchunks := willing_writeChunks describeErrno (temporaryOf path) 6 chunks
      rwa [Nat.add_comm] at hchunks
    · exact Triple.bind (willing_callOrThrow describeErrno 5 _ _) fun _ _ h => h
  have hall : Triple (Willing (chunks.flatten.length + 7))
      (writeFileAtomically describeErrno false path chunks) (fun _ _ => True)
      fun _ _ => False := by
    refine Triple.bind (willing_callOrThrow describeErrno _ _ _) fun _ => ?_
    refine Triple.bind (Q := fun _ => Willing (chunks.flatten.length + 6)) (fun _ h => h)
      fun _ => ?_
    refine Triple.bind hbody fun _ => Triple.bind (willing_callOrThrow describeErrno 4 _ _)
      fun _ => ?_
    refine Triple.bind (Q := fun _ => Willing 3) (willing_respondThen fun _ _ h => h) fun _ => ?_
    refine Triple.bind (willing_callOrThrow describeErrno 2 _ _) fun _ => ?_
    refine willing_respondThen fun _ => ?_
    exact willing_respondThen fun _ => Triple.pure fun _ _ => trivial
  obtain ⟨⟨⟩, t, ht, -⟩ := Triple.returns hall h
  rw [ht]

end Returns

/-- What the code throws, where the process was not stopped. -/
def Ending.OfFiles : Ending → Prop
  | .stopped => True
  | .threw e => ∃ what, e = .io what

section ThrowsOnly
variable (describeErrno : Nat → String)

theorem throwsOnly_respond : ThrowsOnly Ending.OfFiles respond := by
  refine ThrowsOnly.bind ThrowsOnly.get fun m => ?_
  cases m.responses with
  | nil => exact ThrowsOnly.throw trivial
  | cons response responses => exact ThrowsOnly.bind (ThrowsOnly.set _) fun _ => ThrowsOnly.pure _

theorem throwsOnly_ioError {α : Type} (operation name : String) (errno : Nat) :
    ThrowsOnly Ending.OfFiles (throw (ioError describeErrno operation name errno) : Posix α) :=
  ThrowsOnly.throw ⟨_, rfl⟩

theorem throwsOnly_callOrThrow (operation name : String) :
    ThrowsOnly Ending.OfFiles (callOrThrow describeErrno operation name) := by
  refine ThrowsOnly.bind throwsOnly_respond fun response => ?_
  cases response with
  | done more => exact ThrowsOnly.pure _
  | failed errno => exact throwsOnly_ioError describeErrno _ _ _

theorem throwsOnly_writeAll (name : String) (data : Bytes) :
    ThrowsOnly Ending.OfFiles (writeAll describeErrno name data) := by
  have hloop : ∀ (responses : List Response) (rest : Bytes) (m : Machine) (e : Ending),
      (writeLoop describeErrno name responses rest m).1 = .error e → e.OfFiles := by
    intro responses
    induction responses with
    | nil =>
      intro rest m e h
      cases rest with
      | nil => cases h
      | cons byte rest =>
        cases h
        trivial
    | cons response responses ih =>
      intro rest m e h
      cases rest with
      | nil => cases h
      | cons byte rest =>
        cases response with
        | done more => exact ih _ _ e h
        | failed errno =>
          rw [writeLoop] at h
          by_cases he : errno = eintr
          · rw [if_pos he] at h
            exact ih _ _ e h
          · rw [if_neg he] at h
            cases h
            exact ⟨_, rfl⟩
  exact fun m e h => hloop m.responses data m e h

theorem throwsOnly_fsyncOrThrow (apple : Bool) (name : String) :
    ThrowsOnly Ending.OfFiles (fsyncOrThrow describeErrno apple name) := by
  have hfsync : ThrowsOnly Ending.OfFiles (fsync describeErrno name) :=
    (throwsOnly_callOrThrow describeErrno _ _).bind fun _ => ThrowsOnly.modify _
  cases apple with
  | false => exact hfsync
  | true =>
    refine ThrowsOnly.bind throwsOnly_respond fun response => ?_
    cases response with
    | done more => exact ThrowsOnly.modify _
    | failed errno => exact hfsync

theorem throwsOnly_closeQuietly : ThrowsOnly Ending.OfFiles closeQuietly :=
  throwsOnly_respond.bind fun _ => ThrowsOnly.pure _

theorem throwsOnly_withDescriptor {body : Posix Unit} (h : ThrowsOnly Ending.OfFiles body) :
    ThrowsOnly Ending.OfFiles (withDescriptor body) := by
  refine ThrowsOnly.tryCatch h fun ending he => ?_
  cases ending with
  | stopped => exact ThrowsOnly.throw trivial
  | threw e => exact throwsOnly_closeQuietly.bind fun _ => ThrowsOnly.throw he

theorem throwsOnly_renameOrUnlink (temporary name : String) :
    ThrowsOnly Ending.OfFiles (renameOrUnlink describeErrno temporary name) := by
  refine ThrowsOnly.bind throwsOnly_respond fun response => ?_
  cases response with
  | done more => exact ThrowsOnly.modify _
  | failed errno =>
    refine ThrowsOnly.bind (ThrowsOnly.bind throwsOnly_respond fun response => ?_) fun _ =>
      throwsOnly_ioError describeErrno _ _ _
    cases response with
    | done more => exact ThrowsOnly.modify _
    | failed errno => exact ThrowsOnly.pure _

theorem throwsOnly_writeFileAtomically (apple : Bool) (path : String) (chunks : List Bytes) :
    ThrowsOnly Ending.OfFiles (writeFileAtomically describeErrno apple path chunks) := by
  refine (throwsOnly_callOrThrow describeErrno _ _).bind fun _ => (ThrowsOnly.modify _).bind
    fun _ => ThrowsOnly.bind (throwsOnly_withDescriptor ?_) fun _ => ?_
  · refine (ThrowsOnly.forM fun chunk => ?_).bind fun _ => throwsOnly_fsyncOrThrow describeErrno _ _
    exact ThrowsOnly.ite (throwsOnly_writeAll describeErrno _ _) (ThrowsOnly.pure _)
  · refine (throwsOnly_callOrThrow describeErrno _ _).bind fun _ =>
      (throwsOnly_renameOrUnlink describeErrno _ _).bind fun _ => ?_
    exact (throwsOnly_callOrThrow describeErrno _ _).bind fun _ => throwsOnly_respond.bind
      fun _ => throwsOnly_closeQuietly

end ThrowsOnly

end VectorDb.Persistence
