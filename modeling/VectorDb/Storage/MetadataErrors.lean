import VectorDb.Storage.MetadataStore

/-!
The errors that a write of metadata ends with.
-/
set_option autoImplicit false

namespace VectorDb.Storage

open VectorDb.Lib Throwing

/-- SQLite's own errors, those of a caller's arguments and those of the machine. -/
def Error.OfMetadata : Error → Prop
  | .metadata _ | .invalidArgument _ | .foreign _ => True
  | _ => False

variable (faults : Faults)

theorem throwsOnly_sqlCall (call : SqlCall) (message : String → String) :
    ThrowsOnly Error.OfMetadata (sqlCall faults call message) := by
  intro c e h
  rw [exec_sqlCall] at h
  cases hf : faults c.clock call with
  | none =>
    rw [hf] at h
    cases h
  | some detail =>
    rw [hf] at h
    cases h
    trivial

theorem throwsOnly_executeBegin : ThrowsOnly Error.OfMetadata (executeBegin faults) := by
  refine (throwsOnly_sqlCall faults _ _).bind fun _ => ThrowsOnly.get.bind fun c => ?_
  cases c.pending with
  | some t => exact .throw trivial
  | none => exact .set _

theorem throwsOnly_executeCommit : ThrowsOnly Error.OfMetadata (executeCommit faults) := by
  refine (throwsOnly_sqlCall faults _ _).bind fun _ => ThrowsOnly.get.bind fun c => ?_
  cases c.pending with
  | some t => exact .set _
  | none => exact .throw trivial

theorem throwsOnly_executeRollback : ThrowsOnly Error.OfMetadata (executeRollback faults) := by
  refine (throwsOnly_sqlCall faults _ _).bind fun _ => ThrowsOnly.get.bind fun c => ?_
  cases c.pending with
  | some t => exact .set _
  | none => exact .throw trivial

theorem throwsOnly_bindAndStep (statement : Option Prepared) :
    ThrowsOnly Error.OfMetadata (bindAndStep faults statement) := by
  intro c e h
  rw [exec_bindAndStep] at h
  cases hf : c.failure faults statement with
  | none =>
    rw [hf] at h
    cases h
  | some detail =>
    rw [hf] at h
    cases h
    trivial

theorem throwsOnly_runStatement {statement : Option Prepared} (write : Tables → Tables) :
    ThrowsOnly Error.OfMetadata (MetadataStore.sql (runStatement faults statement write)) :=
  ((throwsOnly_bindAndStep faults statement).bind fun _ => .modify _).on

theorem throwsOnly_destroyTransaction :
    ThrowsOnly Error.OfMetadata (MetadataStore.destroyTransaction faults) := by
  refine ThrowsOnly.tryCatch (throwsOnly_executeRollback faults).on fun e he => ?_
  cases e with
  | metadata _ => exact .pure _
  | _ => exact .throw he

theorem throwsOnly_beginLocked : ThrowsOnly Error.OfMetadata (MetadataStore.beginLocked faults) :=
  ThrowsOnly.get.bind fun _ => (ThrowsOnly.set _).bind fun _ =>
    .ite ((throwsOnly_executeBegin faults).on.bind fun _ =>
      .ite ((throwsOnly_destroyTransaction faults).bind fun _ => .modify _) (.modify _)) (.pure _)

theorem throwsOnly_commitLocked : ThrowsOnly Error.OfMetadata (MetadataStore.commitLocked faults) :=
  ThrowsOnly.get.bind fun _ => .ite (.pure _) ((ThrowsOnly.set _).bind fun _ =>
    .ite (.ite ((throwsOnly_executeCommit faults).on.bind fun _ => .modify _) (.throw trivial))
      (.pure _))

theorem throwsOnly_rollbackLocked :
    ThrowsOnly Error.OfMetadata (MetadataStore.rollbackLocked faults) :=
  ThrowsOnly.get.bind fun _ => (ThrowsOnly.set _).bind fun _ =>
    .ite ((throwsOnly_destroyTransaction faults).bind fun _ => .modify _) (.modify _)

theorem throwsOnly_locked {body : MetadataStore.Call Unit}
    (hbody : ThrowsOnly Error.OfMetadata body) :
    ThrowsOnly Error.OfMetadata (MetadataStore.locked faults body) :=
  (throwsOnly_beginLocked faults).bind fun _ =>
    (ThrowsOnly.tryCatch hbody fun _ he => (throwsOnly_rollbackLocked faults).bind fun _ =>
      .throw he).bind fun _ => throwsOnly_commitLocked faults

theorem throwsOnly_set (id : VectorId) (m : Metadata) :
    ThrowsOnly Error.OfMetadata (MetadataStore.set faults id m) := by
  have hkeys : ThrowsOnly Error.OfMetadata (MetadataStore.checkKeys m.keys) :=
    .ite (.throw trivial) (.pure _)
  exact hkeys.bind fun _ => throwsOnly_locked faults ((throwsOnly_runStatement faults _).bind
    fun _ => .forM fun _ => throwsOnly_runStatement faults _)

end VectorDb.Storage
