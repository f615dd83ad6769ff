import VectorDb.Db.ConcurrentDatabase

/-!
Runs of any number of threads that call one database, and what they have in common with
calls made one after the other.
-/
set_option autoImplicit false

namespace VectorDb.Db

open VectorDb.Lib VectorDb.Storage VectorDb.Index Throwing

section Calls
variable {K : Type} [BEq K] [LT K] [DecidableLT K] (p : Platform K) (env : Environment)

section Writes
variable {p env} {h : Handle}

/-- What a call writes, as calls of the database. -/
def ConcurrentCall.writes : ConcurrentCall → List Operation
  | .insert id v m => [.insert id v m]
  | .insertAuto v m => [.insertAuto v m]
  | .remove id => [.remove id]
  | .flush => [.flush]
  | .rebuildIndex => [.rebuildIndex]
  | .compact => [.compact]
  | .withExclusiveAccess body => body
  | .read _ | .withSharedAccess _ => []

theorem exec_forM_singleton (op : Operation) (h : Handle) :
    (exec ([op].forM fun op => op.run p env) h).2 = (exec (op.run p env) h).2 :=
  exec_bind_pure (op.run p env) (fun _ => ()) h

theorem ConcurrentCall.exec_writes {call : ConcurrentCall} (hx : call.exclusive = true)
    (h : Handle) : (exec (call.run p env) h).2 =
      (exec (call.writes.forM fun op => op.run p env) h).2 := by
  cases call with
  | read call => cases hx
  | withSharedAccess body => cases hx
  | insert id v m =>
    rw [writes, exec_forM_singleton]
    exact exec_bind_pure (Db.insert p env id v m) (fun _ => Answer.done) h
  | insertAuto v m =>
    rw [writes, exec_forM_singleton, Operation.run, exec_bind_pure]
    exact exec_bind_pure (Db.insertAuto p env v m) Answer.assigned h
  | remove id =>
    rw [writes, exec_forM_singleton, Operation.run, exec_bind_pure]
    exact exec_bind_pure (Db.remove env id) Answer.flag h
  | flush =>
    rw [writes, exec_forM_singleton]
    exact exec_bind_pure (Db.flush env) (fun _ => Answer.done) h
  | rebuildIndex =>
    rw [writes, exec_forM_singleton]
    exact exec_bind_pure (Db.rebuildIndex p env) (fun _ => Answer.done) h
  | compact =>
    rw [writes, exec_forM_singleton, Operation.run, exec_bind_pure]
    exact exec_bind_pure (Db.compact p env) Answer.count h
  | withExclusiveAccess ops =>
    exact exec_bind_pure (ops.forM fun op => op.run p env) (fun _ => Answer.done) h

theorem ConcurrentCall.exec_reachable {call : ConcurrentCall} (hx : call.exclusive = true)
    (hr : (runs p fun _ _ _ => True).Reachable (.opened h)) :
    (runs p fun _ _ _ => True).Reachable (.opened (exec (call.run p env) h).2) := by
  have hbody : Maintains (fun g : Handle => (runs p fun _ _ _ => True).Reachable (.opened g))
      (call.writes.forM fun op => op.run p env) :=
    Maintains.forM fun op _ g hg => hg.step ⟨.call op, env, trivial, rfl⟩
  rw [exec_writes hx]
  exact hbody h hr

/-- A step of a reader leads to what some call of the database leads to. -/
theorem ReadStep.reachable {g : Handle} (hstep : ReadStep env h g)
    (hr : (runs p fun _ _ _ => True).Reachable (.opened h)) :
    (runs p fun _ _ _ => True).Reachable (.opened g) := by
  cases hstep with
  | lookup id =>
    have hnext := hr.step ⟨.call (.getVector id), env, trivial, rfl⟩
    rw [State.after_call, Operation.run, exec_bind_pure] at hnext
    exact hnext
  | query =>
    -- A `stats` whose first statement is refused counts one call to SQLite.
    have hnext := hr.step
      ⟨.call .stats, ⟨fun _ _ => some "disk I/O error", faultless.file⟩, trivial, rfl⟩
    rw [State.after_call, Operation.run, exec_bind_pure] at hnext
    have hsame : (exec (onDirectory (onMetadata (MetadataStore.vectorCount env.sql))) h).2 =
        (exec (Db.stats ⟨fun _ _ => some "disk I/O error", faultless.file⟩) h).2 := by
      simp only [MetadataStore.vectorCount, MetadataStore.sql, exec_onDirectory, exec_onMetadata,
        exec_on, exec_queryStatement]
      cases h.metadata.connection.failure env.sql none <;> rfl
    rw [hsame]
    exact hnext

end Writes

/-- The lock guards a database that calls made one after the other lead to. -/
def guarded : Guarded Handle where
  invariant h := (runs p fun _ _ _ => True).Reachable (.opened h)
  reads := ReadStep env
  keeps hr hstep := hstep.reachable hr

/-- A way of doing the call: a read goes through its statements, a write does what the call
does in any number of steps. -/
structure Implements (call : ConcurrentCall)
    (c : LockedCall (guarded p env) (Except Error Answer)) : Prop where
  exclusive : c.exclusive = call.exclusive
  read : call.exclusive = false → c.body = call.body p env
  write : call.exclusive = true → ∀ h, c.body.run h = exec (call.run p env) h

section Locked
variable (call : ConcurrentCall) (body : Body Handle (Except Error Answer))

/-- Whatever steps a write is done in, it may be called under the lock. -/
def ConcurrentCall.lockedAs (hread : call.exclusive = false → body = call.body p env)
    (hwrite : call.exclusive = true → ∀ h, body.run h = exec (call.run p env) h) :
    LockedCall (guarded p env) (Except Error Answer) where
  exclusive := call.exclusive
  body := body
  readsOnly hx h hr := by
    have hs := (reachable_sound p hr).database.store.consistent
    rw [hread hx]
    exact (ConcurrentCall.gives hx hs).reads (.refl h)
  restores hx h hr := by
    rw [hwrite hx]
    exact exec_reachable hx hr

theorem ConcurrentCall.implements_lockedAs (hread : call.exclusive = false → body = call.body p env)
    (hwrite : call.exclusive = true → ∀ h, body.run h = exec (call.run p env) h) :
    Implements p env call (call.lockedAs p env body hread hwrite) :=
  ⟨rfl, hread, hwrite⟩

/-- The call with a write done at once. -/
def ConcurrentCall.locked : LockedCall (guarded p env) (Except Error Answer) :=
  call.lockedAs p env (call.body p env) (fun _ => rfl) fun _ => call.run_body

theorem ConcurrentCall.implements_locked : Implements p env call (call.locked p env) :=
  call.implements_lockedAs p env _ _ _

end Locked

/-- These calls, with what each has returned, are made of `h` one after the other and lead to
`g`. A write does what it does on its own; what a read returns is what it gives on its own
where nothing fails, or SQLite has refused one of its statements. -/
inductive OneByOne (h : Handle) :
    List (ConcurrentCall × Option (Except Error Answer)) → Handle → Prop where
  | none : OneByOne h [] h
  | write {calls : List (ConcurrentCall × Option (Except Error Answer))} {g : Handle}
      {call : ConcurrentCall} {result : Option (Except Error Answer)} :
      OneByOne h calls g → call.exclusive = true →
      (∀ r, result = some r → r = (exec (call.run p env) g).1) →
      OneByOne h (calls ++ [(call, result)]) (exec (call.run p env) g).2
  | read {calls : List (ConcurrentCall × Option (Except Error Answer))} {g g' : Handle}
      {call : ConcurrentCall} {result : Option (Except Error Answer)} :
      OneByOne h calls g → call.exclusive = false →
      (∀ r, result = some r → r = (exec (call.run p faultless) g).1 ∨ Refused env g r) →
      Moved env g g' → OneByOne h (calls ++ [(call, result)]) g'

section Linear
variable {p env} {h : Handle} {ι : Type}

theorem Implements.answers {call : ConcurrentCall}
    {turn : Turn (guarded p env) (Except Error Answer)} (hc : Implements p env call turn.call)
    (hr : (runs p fun _ _ _ => True).Reachable (.opened turn.start)) {r : Except Error Answer}
    (hreturns : turn.Returns r) :
    (call.exclusive = true → r = (exec (call.run p env) turn.start).1) ∧
      (call.exclusive = false →
        r = (exec (call.run p faultless) turn.start).1 ∨ Refused env turn.start r) := by
  refine ⟨fun hx => ?_, fun hx => ?_⟩
  · rw [hreturns.1 (hc.exclusive.trans hx), hc.write hx]
  · obtain ⟨t, he⟩ := hreturns.2 (hc.exclusive.trans hx)
    rw [hc.read hx] at he
    have hs := (reachable_sound p hr).database.store.consistent
    exact (ConcurrentCall.gives hx hs).answers (.refl _) he

theorem forall₂_append_singleton {α β : Type} {R : α → β → Prop} {as : List α} {bs : List β} {b : β}
    (h : List.Forall₂ R as (bs ++ [b])) :
    ∃ before a, as = before ++ [a] ∧ List.Forall₂ R before bs ∧ R a b := by
  obtain ⟨a, rest, hab, hrest, hdrop⟩ :=
    List.forall₂_cons_right_iff.mp (List.forall₂_drop_append as bs [b] h)
  cases hrest
  refine ⟨as.take bs.length, a, ?_, List.forall₂_take_append as bs [b] h, hab⟩
  rw [← hdrop, List.take_append_drop]

/-- A serial order of the calls is one of the calls of the database. -/
theorem oneByOne_of_serial (hr : (runs p fun _ _ _ => True).Reachable (.opened h))
    {calls : List ConcurrentCall}
    {order : List (Entry ι (guarded p env) (Except Error Answer))} {g : Handle}
    (hserial : Serial h (order.map Entry.turn) g)
    (himpl : List.Forall₂ (Implements p env) calls (order.map fun e => e.turn.call))
    (hreturned : ∀ e ∈ order, ∀ r, e.result = some r → e.turn.Returns r) :
    OneByOne p env h (calls.zip (order.map Entry.result)) g := by
  induction order using List.reverseRecOn generalizing calls g with
  | nil =>
    cases himpl
    rw [List.map_nil] at hserial
    rw [hserial.eq_of_nil]
    exact .none
  | append_singleton order e ih =>
    rw [List.map_append, List.map_singleton] at himpl hserial
    obtain ⟨before, call, rfl, hbefore, hcall⟩ := forall₂_append_singleton himpl
    obtain ⟨hfirst, hwrite, hread⟩ := hserial.last
    have hhistory := ih hfirst hbefore fun e he => hreturned e (List.mem_append_left _ he)
    have hanswers : ∀ r, e.result = some r → _ := fun r hresult =>
      hcall.answers (hfirst.invariant hr).1 (hreturned e (by simp) r hresult)
    have hlength : before.length = (order.map Entry.result).length := by
      rw [hbefore.length_eq, List.length_map, List.length_map]
    rw [List.map_append, List.map_singleton, List.zip_append hlength, List.zip_cons_cons,
      List.zip_nil_left]
    cases hx : call.exclusive with
    | true =>
      rw [hwrite (hcall.exclusive.trans hx), hcall.write hx]
      exact .write hhistory hx fun r hresult => (hanswers r hresult).1 hx
    | false =>
      exact .read hhistory hx (fun r hresult => (hanswers r hresult).2 hx)
        (moves_moved (hread (hcall.exclusive.trans hx)))

variable {l : Locked ι (guarded p env) (Except Error Answer)}

theorem implements_at {calls : List ConcurrentCall}
    (himpl : List.Forall₂ (Implements p env) calls l.calls) {k : Nat} {call : ConcurrentCall}
    {e : Entry ι (guarded p env) (Except Error Answer)} (he : l.order[k]? = some e)
    (hcall : calls[k]? = some call) : Implements p env call e.turn.call := by
  have hk : l.calls[k]? = some e.turn.call := by
    rw [Locked.calls, List.getElem?_map, he]
    rfl
  obtain ⟨hlt, hget⟩ := List.getElem?_eq_some_iff.mp hcall
  obtain ⟨hlt', hget'⟩ := List.getElem?_eq_some_iff.mp hk
  have hboth := himpl.get hlt hlt'
  simpa [hget, hget'] using hboth

theorem exists_implements {calls : List ConcurrentCall}
    (himpl : List.Forall₂ (Implements p env) calls l.calls) {k : Nat}
    {turn : Turn (guarded p env) (Except Error Answer)} (hk : l.turns[k]? = some turn) :
    ∃ call e, calls[k]? = some call ∧ l.order[k]? = some e ∧ e.turn = turn ∧
      Implements p env call turn.call := by
  rw [Locked.turns, List.getElem?_map] at hk
  obtain ⟨e, he, rfl⟩ := Option.map_eq_some_iff.mp hk
  obtain ⟨hlt, -⟩ := List.getElem?_eq_some_iff.mp he
  have hlength : k < calls.length := by
    rw [himpl.length_eq, Locked.calls, List.length_map]
    exact hlt
  have hcall := List.getElem?_eq_getElem hlength
  exact ⟨_, e, hcall, he, rfl, implements_at himpl he hcall⟩

theorem turn_at {k : Nat} {e : Entry ι (guarded p env) (Except Error Answer)}
    (he : l.order[k]? = some e) : l.turns[k]? = some e.turn := by
  rw [Locked.turns, List.getElem?_map, he]
  rfl

variable [DecidableEq ι]

/-- However the steps of any number of threads are interleaved, each call does what it does when
the calls are made one after the other, in the order in which they got the lock. -/
theorem concurrent_answers (hr : (runs p fun _ _ _ => True).Reachable (.opened h))
    (hl : (lockSystem ι (guarded p env) (Except Error Answer) h).Reachable l)
    {calls : List ConcurrentCall} (himpl : List.Forall₂ (Implements p env) calls l.calls) :
    ∃ g, OneByOne p env h (calls.zip (l.order.map Entry.result)) g ∧
      (l.writer = none → l.object = g) := by
  have hconsistent := lockSystem_consistent hr hl
  obtain ⟨g, hserial, hobject⟩ := hconsistent.serial
  refine ⟨g, oneByOne_of_serial hr hserial himpl fun e he r hresult => ?_, hobject⟩
  obtain ⟨k, hk⟩ := List.getElem?_of_mem he
  exact hconsistent.returned k e r hk hresult

/-- Queries of a batch that no writer gets the lock between search one database: each is answered
as it would be alone, at the moment the first of them got the lock. -/
theorem batchSearch_answers (hr : (runs p fun _ _ _ => True).Reachable (.opened h))
    (hl : (lockSystem ι (guarded p env) (Except Error Answer) h).Reachable l)
    {calls : List ConcurrentCall} (himpl : List.Forall₂ (Implements p env) calls l.calls)
    {queries : List FloatVector} {options : QueryOptions} {j k : Nat} (hjk : j ≤ k)
    (hreads : ∀ i call, j ≤ i → i < k → calls[i]? = some call → call.exclusive = false)
    {d e : Entry ι (guarded p env) (Except Error Answer)} (hd : l.order[j]? = some d)
    (he : l.order[k]? = some e) {call : ConcurrentCall} (hcall : calls[k]? = some call)
    (hbatch : call ∈ batchSearch queries options) {r : Except Error Answer}
    (hresult : e.result = some r) :
    r = (exec (call.run p faultless) d.turn.start).1 ∨ Refused env d.turn.start r := by
  have hconsistent := lockSystem_consistent hr hl
  obtain ⟨g, hserial, -⟩ := hconsistent.serial
  have hmoves := hserial.between hjk (turn_at hd) (turn_at he) fun i turn hi hik hturn => by
    obtain ⟨read, -, hread, -, -, himplements⟩ := exists_implements himpl hturn
    exact himplements.exclusive.trans (hreads i read hi hik hread)
  obtain ⟨query, -, rfl⟩ := List.mem_map.mp hbatch
  have hc := implements_at himpl he hcall
  obtain ⟨t, hends⟩ := (hconsistent.returned k e r he hresult).2 hc.exclusive
  rw [hc.read rfl] at hends
  have hstart := (hserial.invariant hr).2 d.turn (List.mem_of_getElem? (turn_at hd))
  have hs := (reachable_sound p hstart).database.store.consistent
  exact (ConcurrentCall.gives rfl hs).answers (.refl _) (hends.moved hmoves)

/-- Whenever no writer is inside, the database that the threads share is one that calls made one
after the other lead to. -/
theorem concurrent_reachable (hr : (runs p fun _ _ _ => True).Reachable (.opened h))
    (hl : (lockSystem ι (guarded p env) (Except Error Answer) h).Reachable l)
    (hw : l.writer = none) : (runs p fun _ _ _ => True).Reachable (.opened l.object) :=
  lockSystem_invariant hr hl hw

end Linear

/-- No insert of the body is of the last id, past which the counter wraps. -/
def BelowLast : List Operation → Handle → Prop
  | [], _ => True
  | op :: body, h => (∀ id v m, op.Inserts h id v m → id ≠ lastId) ∧
      ((exec (op.run p env) h).1 = .ok () → BelowLast body (exec (op.run p env) h).2)

section Ids
variable {p env} {h : Handle}

theorem counter_le_forM (body : List Operation) (hh : HandleSound False h)
    (hbody : BelowLast p env body h) :
    h.db.nextAutoId ≤ (exec (body.forM fun op => op.run p env) h).2.db.nextAutoId := by
  induction body generalizing h with
  | nil => exact le_rfl
  | cons op body ih =>
    have hop : h.db.nextAutoId ≤ (exec (op.run p env) h).2.db.nextAutoId := by
      rcases op.run_counter p env hh with heq | ⟨id, v, m, hins, hc⟩
      · exact heq.ge
      · rcases (hins.counted p env hh hc).either with heq | heq
        · exact heq.ge
        · exact heq ▸ le_advance fun _ => hbody.1 id v m hins
    have hsound := op.run_sound p env h hh
    have hrest := hbody.2
    rw [List.forM, exec_bind]
    rcases hexec : exec (op.run p env) h with ⟨r, g⟩
    rw [hexec] at hop hrest hsound
    cases r with
    | error e => exact hop
    | ok u => exact hop.trans (ih hsound (hrest rfl))

theorem finishInsert_returned {id : VectorId} {m : Metadata}
    (hok : (exec (finishInsert env id m) h).1 = .ok ()) :
    (exec (finishInsert env id m) h).2.db.nextAutoId = advance h.db.nextAutoId id := by
  refine finishInsert_taken fun hm => ?_
  simp only [finishInsert, hm, Bool.not_false, if_true, exec_bind, exec_onDirectory,
    exec_onMetadata, exec_update] at hok
  rcases hexec : exec (MetadataStore.set env.sql id m) h.metadata with ⟨r, s⟩
  rw [hexec] at hok
  cases r with
  | error e => cases hok
  | ok u => rfl

/-- An automatic insert that returns leaves the counter past its id. -/
theorem insertAuto_returned (hh : HandleSound False h) {v : FloatVector} {m : Metadata}
    {id : VectorId} (hlast : h.db.nextAutoId ≠ lastId)
    (hexec : (exec (Db.insertAuto p env v m) h).1 = .ok id) :
    id = h.db.nextAutoId ∧ id < (exec (Db.insertAuto p env v m) h).2.db.nextAutoId := by
  have hinsert : (exec (Db.insert p env h.db.nextAutoId v m) h).1 = .ok () ∧
      id = h.db.nextAutoId := by
    rw [exec_insertAuto] at hexec
    split at hexec
    next h₁ =>
      cases hexec
      rw [h₁]
      exact ⟨rfl, rfl⟩
    next h₁ => cases hexec
  obtain ⟨hinsert, rfl⟩ := hinsert
  refine ⟨rfl, ?_⟩
  have hafter : (exec (Db.insertAuto p env v m) h).2 =
      (exec (Db.insert p env h.db.nextAutoId v m) h).2 := by
    rw [exec_insertAuto]
    split <;> next h₁ => rw [h₁]
  rw [hafter]
  cases hc : h.db.store.insertCheck h.db.nextAutoId v with
  | error e =>
    rw [exec_insert_rejected p env hc] at hinsert
    cases hinsert
  | ok u =>
    obtain ⟨db, hgrown, heq⟩ := exec_insert_accepted p env (m := m)
      hh.database.store.consistent hh.database.index hc
    have hnext : db.nextAutoId = h.db.nextAutoId := by rw [hgrown.rest]
    rw [heq] at hinsert ⊢
    rw [finishInsert_returned hinsert]
    show h.db.nextAutoId < advance db.nextAutoId h.db.nextAutoId
    rw [hnext]
    exact lt_advance fun _ => hlast

theorem insertAuto_assigned {v : FloatVector} {m : Metadata} {g : Handle} {a : VectorId} :
    (exec ((ConcurrentCall.insertAuto v m).run p env) g).1 = .ok (.assigned a) ↔
      (exec (Db.insertAuto p env v m) g).1 = .ok a := by
  rw [ConcurrentCall.run, exec_bind]
  rcases exec (Db.insertAuto p env v m) g with ⟨r, g'⟩
  cases r <;> simp

/-- An automatic insert under the lock is given the counter, and leaves it past its id. -/
theorem insertAuto_turn {turn : Turn (guarded p env) (Except Error Answer)} {v : FloatVector}
    {m : Metadata} {a : VectorId} (hc : Implements p env (.insertAuto v m) turn.call)
    (hr : (runs p fun _ _ _ => True).Reachable (.opened turn.start))
    (hbelow : BelowLast p env (ConcurrentCall.insertAuto v m).writes turn.start)
    (hreturns : turn.Returns (.ok (.assigned a))) :
    a = turn.start.db.nextAutoId ∧ a < (turn.call.body.run turn.start).2.db.nextAutoId := by
  have hassigned := insertAuto_assigned.mp ((hc.answers hr hreturns).1 rfl).symm
  have hlast := hbelow.1 _ v m ⟨rfl, rfl, rfl⟩
  obtain ⟨hid, hlt⟩ := insertAuto_returned (reachable_sound p hr) hlast hassigned
  have heffect : (turn.call.body.run turn.start).2 =
      (exec (Db.insertAuto p env v m) turn.start).2 := by
    rw [hc.write rfl]
    exact exec_bind_pure (Db.insertAuto p env v m) Answer.assigned turn.start
  exact ⟨hid, heffect ▸ hlt⟩

variable {ι : Type} [DecidableEq ι] {l : Locked ι (guarded p env) (Except Error Answer)}

/-- Of two automatic inserts by any two threads, the one that got the lock first is
given the smaller id. -/
theorem concurrent_auto_ids (hr : (runs p fun _ _ _ => True).Reachable (.opened h))
    (hl : (lockSystem ι (guarded p env) (Except Error Answer) h).Reachable l)
    {calls : List ConcurrentCall} (himpl : List.Forall₂ (Implements p env) calls l.calls)
    (hbelow : ∀ (i : Nat) (call : ConcurrentCall) (c : Entry ι (guarded p env) _),
      calls[i]? = some call → l.order[i]? = some c → BelowLast p env call.writes c.turn.start)
    {j k : Nat} {d e : Entry ι (guarded p env) (Except Error Answer)} {v w : FloatVector}
    {m n : Metadata} {a b : VectorId} (hjk : j < k) (hd : l.order[j]? = some d)
    (he : l.order[k]? = some e) (hj : calls[j]? = some (.insertAuto v m))
    (hk : calls[k]? = some (.insertAuto w n)) (ha : d.result = some (.ok (.assigned a)))
    (hb : e.result = some (.ok (.assigned b))) : a < b := by
  have hconsistent := lockSystem_consistent hr hl
  obtain ⟨g, hserial, -⟩ := hconsistent.serial
  have hstarts := (hserial.invariant hr).2
  have hfirst := insertAuto_turn (implements_at himpl hd hj)
    (hstarts _ (List.mem_of_getElem? (turn_at hd))) (hbelow j _ d hj hd)
    (hconsistent.returned j d _ hd ha)
  have hsecond := insertAuto_turn (implements_at himpl he hk)
    (hstarts _ (List.mem_of_getElem? (turn_at he))) (hbelow k _ e hk he)
    (hconsistent.returned k e _ he hb)
  have hreads : ∀ {s t : Handle}, (guarded p env).reads s t →
      s.db.nextAutoId ≤ t.db.nextAutoId := fun hstep => by
    rw [ReadStep.moved hstep |>.db]
  have hwrites : ∀ turn ∈ l.turns, turn.call.exclusive = true →
      turn.start.db.nextAutoId ≤ (turn.call.body.run turn.start).2.db.nextAutoId := by
    intro turn hturn hx
    obtain ⟨i, hi⟩ := List.getElem?_of_mem hturn
    obtain ⟨call, c, hcall, hc, rfl, himplements⟩ := exists_implements himpl hi
    have hexclusive : call.exclusive = true := himplements.exclusive.symm.trans hx
    rw [himplements.write hexclusive, ConcurrentCall.exec_writes hexclusive]
    exact counter_le_forM _ (reachable_sound p (hstarts _ hturn)) (hbelow i call c hcall hc)
  have hle := hserial.le_start (f := fun h : Handle => h.db.nextAutoId) hreads hwrites hjk
    (turn_at hd) (turn_at he) (implements_at himpl hd hj).exclusive
  rw [hsecond.1]
  exact hfirst.2.trans_le hle

end Ids

end Calls

section TwoInserts
variable {h₀ h₁ : Handle}

/-- A vector inserted by a thread, and then one by another thread. -/
def twoInserts : List ConcurrentCall :=
  [.insertAuto [Component.one] ∅, .insertAuto [Component.one] ∅]

theorem insertAuto_first (hone : OneVector unitPlatform unitConfig 0 [Component.one] ∅ h₀ h₁) :
    exec (Db.insertAuto unitPlatform faultless [Component.one] ∅) h₀ = (.ok 0, h₁) := by
  rw [exec_insertAuto, (hone.nextAutoId unitPlatform).1, hone.insert]

theorem insertAuto_second (hone : OneVector unitPlatform unitConfig 0 [Component.one] ∅ h₀ h₁) :
    (exec (Db.insertAuto unitPlatform faultless [Component.one] ∅) h₁).1 = .ok 1 := by
  obtain ⟨grown, t, -, hgrown, hat⟩ := hone.one
  have hs := hone.sound.database.store
  have hnew : h₁.db.store.contains 1 = false := by
    cases hfind : h₁.db.store.find 1 with
    | none => rw [VectorStore.contains, hfind]; rfl
    | some slot =>
      obtain ⟨hlt, -, hid⟩ := (hs.consistent.find_iff _ _).mp hfind
      obtain ⟨-, -, hzero⟩ := (hs.consistent.find_iff _ _).mp hone.find
      rw [hone.slotCount] at hlt
      obtain rfl : slot = 0 := Nat.lt_one_iff.mp hlt
      exact absurd (hzero.symm.trans hid) (by decide)
  have hcheck : h₁.db.store.insertCheck 1 [Component.one] = .ok () := by
    rw [VectorStore.insertCheck, hnew, hone.slotCount, if_neg (by simp), if_neg (by decide),
      hs.dimension, hone.config]
    decide
  obtain ⟨db, h₂, -, hinsert, -⟩ := insert_quiet unitPlatform quiet_faultless hone.sound
    hat.tables hcheck (m := ∅) (by simp)
  rw [exec_insertAuto, (hone.nextAutoId unitPlatform).2, hinsert]

/-- What the first of them does under the lock. -/
theorem insertAuto_first_locked
    (hone : OneVector unitPlatform unitConfig 0 [Component.one] ∅ h₀ h₁) :
    ((ConcurrentCall.insertAuto [Component.one] ∅).locked unitPlatform faultless).body.run h₀ =
      (.ok (.assigned 0), h₁) := by
  show (ConcurrentCall.body unitPlatform faultless (.insertAuto [Component.one] ∅)).run h₀ = _
  rw [ConcurrentCall.run_body, ConcurrentCall.run, exec_bind, insertAuto_first hone]
  rfl

/-- The two calls and what they return, in a run of two threads. -/
theorem twoInserts_run (hone : OneVector unitPlatform unitConfig 0 [Component.one] ∅ h₀ h₁) :
    ∃ l : Locked Bool (guarded unitPlatform faultless) (Except Error Answer),
      (lockSystem Bool (guarded unitPlatform faultless) (Except Error Answer) h₀).Reachable l ∧
        l.Idle ∧ List.Forall₂ (Implements unitPlatform faultless) twoInserts l.calls ∧
        ∃ d e, l.order = [d, e] ∧ d.turn.start = h₀ ∧ e.turn.start = h₁ ∧
          d.result = some (.ok (.assigned 0)) ∧ e.result = some (.ok (.assigned 1)) := by
  have hfirst := insertAuto_first_locked hone
  obtain ⟨l, hrun, hidle, hobject, horder⟩ := (Locked.idle_initial h₀).call true
    ((ConcurrentCall.insertAuto [Component.one] ∅).locked unitPlatform faultless)
  obtain ⟨m, hrun', hidle', -, horder'⟩ := hidle.call false
    ((ConcurrentCall.insertAuto [Component.one] ∅).locked unitPlatform faultless)
  change l.object = (Body.run _ h₀).2 at hobject
  rw [hfirst] at hobject
  have hsecond : (((ConcurrentCall.insertAuto [Component.one] ∅).locked unitPlatform
      faultless).body.run l.object).1 = .ok (.assigned 1) := by
    show ((ConcurrentCall.body unitPlatform faultless (.insertAuto [Component.one] ∅)).run _).1 = _
    rw [ConcurrentCall.run_body, insertAuto_assigned, hobject]
    exact insertAuto_second hone
  rw [horder] at horder'
  refine ⟨m, ((Transition.Reachable.start rfl).run hrun).run hrun', hidle', ?_, _, _, horder', rfl,
    hobject, ?_, by rw [hsecond]⟩
  · rw [Locked.calls, horder']
    exact .cons (ConcurrentCall.implements_locked _ _ _)
      (.cons (ConcurrentCall.implements_locked _ _ _) .nil)
  · show some (Body.run _ h₀).1 = _
    rw [hfirst]

theorem concurrent_reachable_two_inserts :
    ∃ (h : Handle) (l : Locked Bool (guarded unitPlatform faultless) (Except Error Answer)),
      (lockSystem Bool (guarded unitPlatform faultless) _ h).Reachable l ∧ l.calls.length = 2 ∧
        (runs unitPlatform fun _ _ _ => True).Reachable (.opened l.object) := by
  obtain ⟨h₀, h₁, hone⟩ := exists_unitVector ∅ (by simp)
  obtain ⟨l, hl, hidle, himpl, -⟩ := twoInserts_run hone
  exact ⟨h₀, l, hl, himpl.length_eq.symm, concurrent_reachable
    (hone.made unitPlatform _ unitConfig_sized trivial) hl hidle.writer⟩

theorem concurrent_auto_ids_two_inserts :
    ∃ (l : Locked Bool (guarded unitPlatform faultless) (Except Error Answer))
      (d e : Entry Bool (guarded unitPlatform faultless) (Except Error Answer)) (a b : VectorId),
      l.order = [d, e] ∧ d.result = some (.ok (.assigned a)) ∧
        e.result = some (.ok (.assigned b)) ∧ a < b := by
  obtain ⟨h₀, h₁, hone⟩ := exists_unitVector ∅ (by simp)
  obtain ⟨l, hl, -, himpl, d, e, horder, hd, he, ha, hb⟩ := twoInserts_run hone
  refine ⟨l, d, e, 0, 1, horder, ha, hb, concurrent_auto_ids
    (hone.made unitPlatform _ unitConfig_sized trivial) hl himpl ?_ Nat.zero_lt_one
    (by rw [horder]; rfl) (by rw [horder]; rfl) rfl rfl ha hb⟩
  intro i call c hcall hc
  rw [horder] at hc
  match i with
  | 0 =>
    cases hcall
    cases hc
    refine ⟨?_, fun _ => trivial⟩
    rintro id v m ⟨rfl, -, -⟩
    rw [hd, (hone.nextAutoId unitPlatform).1]
    decide
  | 1 =>
    cases hcall
    cases hc
    refine ⟨?_, fun _ => trivial⟩
    rintro id v m ⟨rfl, -, -⟩
    rw [he, (hone.nextAutoId unitPlatform).2]
    decide
  | i + 2 => cases hcall

/-- An insert, a batch of two queries, and an access that looks at what is there. -/
def insertAndBatch : List ConcurrentCall :=
  .insertAuto [Component.one] ∅ ::
    batchSearch [[Component.one], [Component.zero]] ⟨1, 0, [], false, 0, true⟩ ++
      [.withSharedAccess [.stats, .get 0]]

/-- The queries of the batch are inside together. -/
theorem concurrent_answers_batch :
    ∃ (h g : Handle) (l : Locked Bool (guarded unitPlatform faultless) (Except Error Answer)),
      (lockSystem Bool (guarded unitPlatform faultless) _ h).Reachable l ∧ l.calls.length = 4 ∧
        OneByOne unitPlatform faultless h (insertAndBatch.zip (l.order.map Entry.result)) g ∧
        l.object = g := by
  obtain ⟨h₀, h₁, hone⟩ := exists_unitVector ∅ (by simp)
  let locked (call : ConcurrentCall) := call.locked unitPlatform faultless
  let query (v : FloatVector) := locked (.read (.search v ⟨1, 0, [], false, 0, true⟩))
  obtain ⟨l₁, hrun₁, hidle₁, -, horder₁⟩ := (Locked.idle_initial h₀).call true
    (locked (.insertAuto [Component.one] ∅))
  obtain ⟨l₂, hrun₂, hidle₂, horder₂⟩ := hidle₁.overlap Bool.false_ne_true
    (c := query [Component.one]) (d := query [Component.zero]) rfl rfl
  obtain ⟨l₃, hrun₃, hidle₃, -, horder₃⟩ := hidle₂.call true
    (locked (.withSharedAccess [.stats, .get 0]))
  have hl : (lockSystem Bool (guarded unitPlatform faultless) _ h₀).Reachable l₃ :=
    (((Transition.Reachable.start rfl).run hrun₁).run hrun₂).run hrun₃
  have hcalls : l₃.calls = insertAndBatch.map locked := by
    rw [Locked.calls, horder₃, horder₂, horder₁]
    rfl
  have himpl : List.Forall₂ (Implements unitPlatform faultless) insertAndBatch l₃.calls := by
    rw [hcalls, List.forall₂_map_right_iff]
    exact List.forall₂_same.mpr fun call _ => call.implements_locked _ _
  obtain ⟨g, hserved, hobject⟩ := concurrent_answers
    (hone.made unitPlatform _ unitConfig_sized trivial) hl himpl
  exact ⟨h₀, g, l₃, hl, by rw [hcalls]; rfl, hserved, hobject hidle₃.writer⟩

end TwoInserts

end VectorDb.Db
