import VectorDb.Lib.Transition

/-!
An object that several threads call under one reader-writer lock. A call is any
number of small steps between taking the lock and releasing it, and the steps of
different threads are interleaved in any order the lock allows. What a writer leaves
keeps an invariant, and a reader may make small changes that keep it too, such as
counting its accesses.
-/
set_option autoImplicit false

namespace VectorDb.Lib

open Relation

/-- What a call does with an object `σ`, one step after the other. -/
inductive Body (σ ρ : Type) where
  | done (result : ρ) : Body σ ρ
  | step (act : σ → σ) (next : σ → Body σ ρ) : Body σ ρ

namespace Body
variable {σ ρ τ ε α β : Type}

/-- The call on its own: its result, and the object it leaves. -/
def run : Body σ ρ → σ → ρ × σ
  | .done result, s => (result, s)
  | .step act next, s => (next s).run (act s)

/-- A call in one step. -/
def whole (f : σ → ρ × σ) : Body σ ρ := .step (fun s => (f s).2) fun s => .done (f s).1

/-- Go on with the result, unless an exception was thrown. -/
def andThen : Body σ (Except ε α) → (α → Body σ (Except ε β)) → Body σ (Except ε β)
  | .done (.ok a), f => f a
  | .done (.error e), _ => .done (.error e)
  | .step act next, f => .step act fun s => (next s).andThen f

/-- Every step is one that a reader may make, also where other readers have moved the object
from `s` before it. -/
def ReadsOnly (reads : σ → σ → Prop) : Body σ ρ → σ → Prop
  | .done _, _ => True
  | .step act next, s => ∀ m, ReflTransGen reads s m →
      ReflTransGen reads m (act m) ∧ (next m).ReadsOnly reads (act m)

/-- The call can return `result` and leave `t` where other readers move the object between its
steps. -/
def Ends (reads : σ → σ → Prop) : Body σ ρ → σ → ρ → σ → Prop
  | .done r, s, result, t => result = r ∧ ReflTransGen reads s t
  | .step act next, s, result, t => ∃ m, ReflTransGen reads s m ∧
      (next m).Ends reads (act m) result t

@[simp] theorem run_done (result : ρ) (s : σ) : (Body.done result).run s = (result, s) := rfl

@[simp] theorem run_step (act : σ → σ) (next : σ → Body σ ρ) (s : σ) :
    (Body.step act next).run s = (next s).run (act s) := rfl

@[simp] theorem run_whole (f : σ → ρ × σ) (s : σ) : (Body.whole f).run s = f s := rfl

theorem run_andThen (b : Body σ (Except ε α)) (f : α → Body σ (Except ε β)) (s : σ) :
    (b.andThen f).run s = match b.run s with
      | (.ok a, t) => (f a).run t
      | (.error e, t) => (.error e, t) := by
  induction b generalizing s with
  | done result => cases result <;> rfl
  | step act next ih => exact ih s (act s)

section Readers
variable {reads : σ → σ → Prop} {s t u : σ}

theorem ReadsOnly.moved {b : Body σ ρ} (h : b.ReadsOnly reads s) (hs : ReflTransGen reads s t) :
    b.ReadsOnly reads t := by
  cases b with
  | done result => trivial
  | step act next => exact fun m hm => h m (hs.trans hm)

theorem Ends.moved {b : Body σ ρ} {r : ρ} (h : b.Ends reads t r u) (hs : ReflTransGen reads s t) :
    b.Ends reads s r u := by
  cases b with
  | done result => exact ⟨h.1, hs.trans h.2⟩
  | step act next =>
    obtain ⟨m, hm, hrest⟩ := h
    exact ⟨m, hs.trans hm, hrest⟩

theorem ReadsOnly.moves {b : Body σ ρ} (h : b.ReadsOnly reads s) {r : ρ} (he : b.Ends reads s r t) :
    ReflTransGen reads s t := by
  induction b generalizing s with
  | done result => exact he.2
  | step act next ih =>
    obtain ⟨m, hm, hrest⟩ := he
    exact hm.trans ((h m hm).1.trans (ih m (h m hm).2 hrest))

theorem readsOnly_whole {f : σ → ρ × σ} (h : ∀ m, ReflTransGen reads s m →
    ReflTransGen reads m (f m).2) : (Body.whole f).ReadsOnly reads s :=
  fun m hm => ⟨h m hm, trivial⟩

theorem readsOnly_andThen {b : Body σ (Except ε α)} {f : α → Body σ (Except ε β)}
    (h : b.ReadsOnly reads s)
    (hf : ∀ a t, b.Ends reads s (.ok a) t → (f a).ReadsOnly reads t) :
    (b.andThen f).ReadsOnly reads s := by
  induction b generalizing s with
  | done result =>
    cases result with
    | error e => trivial
    | ok a => exact hf a s ⟨rfl, .refl⟩
  | step act next ih =>
    exact fun m hm => ⟨(h m hm).1, ih m (h m hm).2 fun a t he => hf a t ⟨m, hm, he⟩⟩

theorem ends_andThen {b : Body σ (Except ε α)} {f : α → Body σ (Except ε β)}
    {r : Except ε β} (h : (b.andThen f).Ends reads s r u) :
    (∃ e, r = .error e ∧ b.Ends reads s (.error e) u) ∨
      ∃ a t, b.Ends reads s (.ok a) t ∧ (f a).Ends reads t r u := by
  induction b generalizing s with
  | done result =>
    cases result with
    | error e => exact .inl ⟨e, h.1, rfl, h.2⟩
    | ok a => exact .inr ⟨a, s, ⟨rfl, .refl⟩, h⟩
  | step act next ih =>
    obtain ⟨m, hm, hrest⟩ := h
    rcases ih m hrest with ⟨e, rfl, he⟩ | ⟨a, t, hb, hf⟩
    · exact .inl ⟨e, rfl, m, hm, he⟩
    · exact .inr ⟨a, t, ⟨m, hm, hb⟩, hf⟩

end Readers

end Body

/-- An object, its invariant while no writer is inside, and the steps that readers may make. -/
structure Guarded (σ : Type) where
  invariant : σ → Prop
  reads : σ → σ → Prop
  keeps : ∀ {s t : σ}, invariant s → reads s t → invariant t

/-- What readers have made of an object. -/
abbrev Guarded.Moves {σ : Type} (G : Guarded σ) : σ → σ → Prop := ReflTransGen G.reads

theorem Guarded.Moves.keeps {σ : Type} {G : Guarded σ} {s t : σ} (h : G.Moves s t)
    (hs : G.invariant s) : G.invariant t := by
  induction h with
  | refl => exact hs
  | tail _ hstep ih => exact G.keeps ih hstep

/-- A call and the mode it takes the lock in. What is called in shared mode only reads,
and what is called in exclusive mode restores the invariant. -/
structure LockedCall {σ : Type} (G : Guarded σ) (ρ : Type) where
  exclusive : Bool
  body : Body σ ρ
  readsOnly : exclusive = false → ∀ s, G.invariant s → body.ReadsOnly G.reads s
  restores : exclusive = true → ∀ s, G.invariant s → G.invariant (body.run s).2

section Calls
variable {ι σ ρ : Type} {G : Guarded σ}

/-- A call, and the object as it was when the call got the lock. -/
structure Turn (G : Guarded σ) (ρ : Type) where
  call : LockedCall G ρ
  start : σ

/-- What the call may return: where it is alone inside, what it returns on its own. -/
def Turn.Returns (turn : Turn G ρ) (r : ρ) : Prop :=
  (turn.call.exclusive = true → r = (turn.call.body.run turn.start).1) ∧
    (turn.call.exclusive = false → ∃ t, turn.call.body.Ends G.reads turn.start r t)

/-- These calls lead from `s` to `t` one after the other: each writer changes the object as its
call does on its own, and readers move it. -/
inductive Serial (s : σ) : List (Turn G ρ) → σ → Prop where
  | nil : Serial s [] s
  | write {turns : List (Turn G ρ)} {turn : Turn G ρ} : Serial s turns turn.start →
      turn.call.exclusive = true → Serial s (turns ++ [turn]) (turn.call.body.run turn.start).2
  | read {turns : List (Turn G ρ)} {turn : Turn G ρ} {t : σ} : Serial s turns turn.start →
      turn.call.exclusive = false → G.Moves turn.start t → Serial s (turns ++ [turn]) t

section Serial
variable {s t u : σ} {turns : List (Turn G ρ)} {turn : Turn G ρ}

theorem Serial.eq_of_nil (h : Serial s ([] : List (Turn G ρ)) t) : t = s := by
  generalize hall : ([] : List (Turn G ρ)) = all at h
  cases h with
  | nil => rfl
  | write => simp at hall
  | read => simp at hall

/-- What the last call has done. -/
theorem Serial.last (h : Serial s (turns ++ [turn]) t) : Serial s turns turn.start ∧
    (turn.call.exclusive = true → t = (turn.call.body.run turn.start).2) ∧
    (turn.call.exclusive = false → G.Moves turn.start t) := by
  generalize hall : turns ++ [turn] = all at h
  cases h with
  | nil => simp at hall
  | write hbefore hx =>
    obtain ⟨rfl, heq⟩ := List.append_inj' hall rfl
    cases heq
    exact ⟨hbefore, fun _ => rfl, fun hx' => absurd hx (by simp [hx'])⟩
  | read hbefore hx hmoves =>
    obtain ⟨rfl, heq⟩ := List.append_inj' hall rfl
    cases heq
    exact ⟨hbefore, fun hx' => absurd hx (by simp [hx']), fun _ => hmoves⟩

/-- While the last call is inside in shared mode, readers move the object. -/
theorem Serial.moved (h : Serial s (turns ++ [turn]) t) (hx : turn.call.exclusive = false)
    (hmoves : G.Moves t u) : Serial s (turns ++ [turn]) u :=
  .read h.last.1 hx ((h.last.2.2 hx).trans hmoves)

theorem Serial.invariant (h : Serial s turns t) (hs : G.invariant s) :
    G.invariant t ∧ ∀ turn ∈ turns, G.invariant turn.start := by
  induction h with
  | nil => exact ⟨hs, by simp⟩
  | write _ hx ih =>
    refine ⟨LockedCall.restores _ hx _ ih.1, fun turn hturn => ?_⟩
    rcases List.mem_append.mp hturn with hturn | hturn
    · exact ih.2 turn hturn
    · exact List.mem_singleton.mp hturn ▸ ih.1
  | read _ hx hmoves ih =>
    refine ⟨hmoves.keeps ih.1, fun turn hturn => ?_⟩
    rcases List.mem_append.mp hturn with hturn | hturn
    · exact ih.2 turn hturn
    · exact List.mem_singleton.mp hturn ▸ ih.1

/-- Each call starts where the calls before it lead. -/
theorem Serial.before {k : Nat} (h : Serial s turns t) (hk : turns[k]? = some turn) :
    Serial s (turns.take k) turn.start := by
  have hsplit : turns = turns.take k ++ [turn] ++ turns.drop (k + 1) := by
    obtain ⟨hlt, rfl⟩ := List.getElem?_eq_some_iff.mp hk
    simp
  rw [hsplit] at h
  generalize turns.drop (k + 1) = rest at h
  induction rest using List.reverseRecOn generalizing t with
  | nil =>
    rw [List.append_nil] at h
    exact h.last.1
  | append_singleton rest last ih =>
    rw [← List.append_assoc] at h
    exact ih h.last.1

/-- Only readers move the object while no writer gets the lock. -/
theorem Serial.between {j k : Nat} {a b : Turn G ρ} (h : Serial s turns t) (hjk : j ≤ k)
    (ha : turns[j]? = some a) (hb : turns[k]? = some b)
    (hreads : ∀ i c, j ≤ i → i < k → turns[i]? = some c → c.call.exclusive = false) :
    G.Moves a.start b.start := by
  induction k, hjk using Nat.le_induction generalizing b with
  | base =>
    cases ha.symm.trans hb
    exact .refl
  | succ k hjk ih =>
    obtain ⟨c, hc⟩ : ∃ c, turns[k]? = some c := by
      obtain ⟨hlt, -⟩ := List.getElem?_eq_some_iff.mp hb
      exact ⟨_, List.getElem?_eq_getElem (Nat.lt_of_succ_lt hlt)⟩
    have hfirst := ih hc fun i c hi hik => hreads i c hi (Nat.lt_succ_of_lt hik)
    have hstep := h.before hb
    have htake : turns.take (k + 1) = turns.take k ++ [c] := by
      rw [List.take_add_one, hc]
      rfl
    rw [htake] at hstep
    exact hfirst.trans (hstep.last.2.2 (hreads k c hjk (Nat.lt_succ_self k) hc))

section Measure
variable {β : Type} [Preorder β] {f : σ → β} {a b : Turn G ρ} {j k : Nat}

/-- What no call lowers is at the end at least what any writer left it at. -/
theorem Serial.le_end (hreads : ∀ {s t : σ}, G.reads s t → f s ≤ f t) (h : Serial s turns t)
    (hwrites : ∀ turn ∈ turns, turn.call.exclusive = true →
      f turn.start ≤ f (turn.call.body.run turn.start).2)
    (ha : a ∈ turns) (hx : a.call.exclusive = true) : f (a.call.body.run a.start).2 ≤ f t := by
  induction h with
  | nil => simp at ha
  | @write turns turn _ hturn ih =>
    rcases List.mem_append.mp ha with ha | ha
    · have hbefore := ih (fun u hu => hwrites u (List.mem_append_left _ hu)) ha
      exact hbefore.trans (hwrites turn (by simp) hturn)
    · rw [List.mem_singleton.mp ha]
  | @read turns turn t _ hturn hmoves ih =>
    rcases List.mem_append.mp ha with ha | ha
    · have hbefore := ih (fun u hu => hwrites u (List.mem_append_left _ hu)) ha
      have hrises : f turn.start ≤ f t := by
        clear ih
        induction hmoves with
        | refl => exact le_rfl
        | tail _ hstep ih => exact ih.trans (hreads hstep)
      exact hbefore.trans hrises
    · rw [List.mem_singleton.mp ha, hturn] at hx
      cases hx

/-- And so it is at the start of any later call. -/
theorem Serial.le_start (hreads : ∀ {s t : σ}, G.reads s t → f s ≤ f t) (h : Serial s turns t)
    (hwrites : ∀ turn ∈ turns, turn.call.exclusive = true →
      f turn.start ≤ f (turn.call.body.run turn.start).2)
    (hjk : j < k) (ha : turns[j]? = some a) (hb : turns[k]? = some b)
    (hx : a.call.exclusive = true) : f (a.call.body.run a.start).2 ≤ f b.start := by
  refine Serial.le_end hreads (h.before hb)
    (fun turn hturn => hwrites turn (List.mem_of_mem_take hturn)) ?_ hx
  exact List.mem_of_getElem? ((List.getElem?_take_of_lt hjk).trans ha)

end Measure

end Serial

/-- A call that got the lock, and its result once it has released it. -/
structure Entry (ι : Type) {σ : Type} (G : Guarded σ) (ρ : Type) where
  thread : ι
  turn : Turn G ρ
  result : Option ρ

def Entry.begin (i : ι) (c : LockedCall G ρ) (s : σ) : Entry ι G ρ := ⟨i, ⟨c, s⟩, none⟩

def Entry.finish (result : ρ) (e : Entry ι G ρ) : Entry ι G ρ := { e with result := some result }

/-- Where a thread is: outside all calls, or holding the lock with the rest of the
call that was the `position`-th to get it. -/
inductive Phase (σ ρ : Type) where
  | outside : Phase σ ρ
  | inside (position : Nat) (rest : Body σ ρ) : Phase σ ρ

/-- Who holds the lock, the object, and the calls in the order they got the lock. -/
structure Locked (ι : Type) {σ : Type} (G : Guarded σ) (ρ : Type) where
  writer : Option ι
  readers : Set ι
  object : σ
  phase : ι → Phase σ ρ
  order : List (Entry ι G ρ)

def Locked.turns (l : Locked ι G ρ) : List (Turn G ρ) := l.order.map Entry.turn

def Locked.calls (l : Locked ι G ρ) : List (LockedCall G ρ) := l.order.map fun e => e.turn.call

section Steps
variable [DecidableEq ι]

def setPhase (phase : ι → Phase σ ρ) (i : ι) (p : Phase σ ρ) : ι → Phase σ ρ :=
  Function.update phase i p

/-- One step of one thread. -/
inductive LockStep : Locked ι G ρ → Locked ι G ρ → Prop where
  | lockShared {l : Locked ι G ρ} {i : ι} {c : LockedCall G ρ} :
      l.phase i = .outside → c.exclusive = false → l.writer = none →
      LockStep l { l with
        readers := insert i l.readers
        phase := setPhase l.phase i (.inside l.order.length c.body)
        order := l.order ++ [.begin i c l.object] }
  | lock {l : Locked ι G ρ} {i : ι} {c : LockedCall G ρ} :
      l.phase i = .outside → c.exclusive = true → l.writer = none → l.readers = ∅ →
      LockStep l { l with
        writer := some i
        phase := setPhase l.phase i (.inside l.order.length c.body)
        order := l.order ++ [.begin i c l.object] }
  | act {l : Locked ι G ρ} {i : ι} {k : Nat} {f : σ → σ} {next : σ → Body σ ρ} :
      l.phase i = .inside k (.step f next) →
      LockStep l { l with
        object := f l.object
        phase := setPhase l.phase i (.inside k (next l.object)) }
  | unlockShared {l : Locked ι G ρ} {i : ι} {k : Nat} {result : ρ} :
      l.phase i = .inside k (.done result) → i ∈ l.readers →
      LockStep l { l with
        readers := l.readers \ {i}
        phase := setPhase l.phase i .outside
        order := l.order.modify k (Entry.finish result) }
  | unlock {l : Locked ι G ρ} {i : ι} {k : Nat} {result : ρ} :
      l.phase i = .inside k (.done result) → l.writer = some i →
      LockStep l { l with
        writer := none
        phase := setPhase l.phase i .outside
        order := l.order.modify k (Entry.finish result) }

/-- The lock is free and no call has been made. -/
def Locked.initial (s : σ) : Locked ι G ρ :=
  { writer := none, readers := ∅, object := s, phase := fun _ => .outside, order := [] }

def lockSystem (ι : Type) {σ : Type} (G : Guarded σ) (ρ : Type) [DecidableEq ι] (s : σ) :
    Transition (Locked ι G ρ) where
  start l := l = .initial s
  step := LockStep

end Steps

/-- What a thread inside a call has to do with how the call began. -/
structure HoldsLock (l : Locked ι G ρ) (i : ι) (k : Nat) (rest : Body σ ρ) (e : Entry ι G ρ) :
    Prop where
  entry : l.order[k]? = some e
  thread : e.thread = i
  shared : e.turn.call.exclusive = false → i ∈ l.readers ∧ rest.ReadsOnly G.reads l.object ∧
    ∀ r t, rest.Ends G.reads l.object r t → e.turn.call.body.Ends G.reads e.turn.start r t
  exclusive : e.turn.call.exclusive = true → l.writer = some i ∧ k + 1 = l.order.length ∧
    rest.run l.object = e.turn.call.body.run e.turn.start

/-- The invariant of all runs. -/
structure Locked.Consistent (s : σ) (l : Locked ι G ρ) : Prop where
  apart : l.writer ≠ none → l.readers = ∅
  sharing : l.readers ≠ ∅ → ∃ turns turn, l.turns = turns ++ [turn] ∧ turn.call.exclusive = false
  inside : ∀ i k rest, l.phase i = .inside k rest → ∃ e, HoldsLock l i k rest e
  serial : ∃ t, Serial s l.turns t ∧ (l.writer = none → l.object = t)
  returned : ∀ (k : Nat) (e : Entry ι G ρ) (r : ρ), l.order[k]? = some e → e.result = some r →
    e.turn.Returns r

section Invariant
variable {s : σ} {l m : Locked ι G ρ} {i j : ι} {k : Nat} {rest : Body σ ρ} {e : Entry ι G ρ}

/-- Whoever is inside with the lock in exclusive mode is alone inside. -/
theorem Locked.Consistent.alone (h : l.Consistent s) (hw : l.writer = some i)
    (hj : l.phase j = .inside k rest) : j = i := by
  obtain ⟨e, hin⟩ := h.inside j k rest hj
  cases hc : e.turn.call.exclusive with
  | true => exact Option.some.inj ((hin.exclusive hc).1.symm.trans hw)
  | false =>
    have hmem := (hin.shared hc).1
    rw [h.apart (by simp [hw])] at hmem
    exact hmem.elim

theorem Locked.turns_append (l : Locked ι G ρ) (e : Entry ι G ρ) :
    (l.order ++ [e]).map Entry.turn = l.turns ++ [e.turn] :=
  List.map_append

theorem turns_modify (order : List (Entry ι G ρ)) (k : Nat) (r : ρ) :
    (order.modify k (Entry.finish r)).map Entry.turn = order.map Entry.turn := by
  induction order generalizing k with
  | nil => simp
  | cons e order ih =>
    cases k with
    | zero => rfl
    | succ k => simpa using ih k

/-- While nobody is inside in exclusive mode, what is there is what the calls lead to. -/
theorem Locked.Consistent.free (h : l.Consistent s) (hw : l.writer = none) :
    Serial s l.turns l.object := by
  obtain ⟨t, ht, hobject⟩ := h.serial
  exact hobject hw ▸ ht

theorem Locked.Consistent.no_writer (h : l.Consistent s) (hmem : i ∈ l.readers) :
    l.writer = none := by
  by_contra hne
  rw [h.apart hne] at hmem
  exact hmem

/-- Where no writer is inside, whoever is inside reads. -/
theorem HoldsLock.reading (h : HoldsLock l i k rest e) (hw : l.writer = none) :
    e.turn.call.exclusive = false := by
  by_contra hx
  have hwriter := (h.exclusive (by simpa using hx)).1
  rw [hw] at hwriter
  cases hwriter

/-- A thread inside stays inside when a call is added behind it. -/
theorem HoldsLock.append (h : HoldsLock l i k rest e) (hw : l.writer = none) (new : Entry ι G ρ)
    {readers : Set ι} (hsub : l.readers ⊆ readers) (phase : ι → Phase σ ρ) :
    HoldsLock { l with readers := readers, phase := phase, order := l.order ++ [new] }
      i k rest e := by
  have hk := (List.getElem?_eq_some_iff.mp h.entry).1
  refine ⟨?_, h.thread, fun hc => ⟨hsub (h.shared hc).1, (h.shared hc).2⟩,
    fun hc => absurd (h.reading hw) (by simp [hc])⟩
  show (l.order ++ [new])[k]? = some e
  rw [List.getElem?_append_left hk]
  exact h.entry

/-- What a call that just got the lock has before it. -/
theorem Locked.Consistent.entered (h : l.Consistent s) (hs : G.invariant s) (hw : l.writer = none)
    (c : LockedCall G ρ) (i : ι) (writer : Option ι) (readers : Set ι) (phase : ι → Phase σ ρ)
    (hshared : c.exclusive = false → i ∈ readers)
    (hexclusive : c.exclusive = true → writer = some i) :
    HoldsLock ⟨writer, readers, l.object, phase, l.order ++ [.begin i c l.object]⟩ i
      l.order.length c.body (.begin i c l.object) := by
  have hobject := ((h.free hw).invariant hs).1
  exact ⟨by simp, rfl, fun hc => ⟨hshared hc, c.readsOnly hc _ hobject, fun _ _ he => he⟩,
    fun hc => ⟨hexclusive hc, by simp, rfl⟩⟩

/-- The results of the calls that returned stay when a call is added. -/
theorem Locked.Consistent.returned_append (h : l.Consistent s) (c : LockedCall G ρ) (i : ι)
    {k : Nat} {e : Entry ι G ρ} {r : ρ}
    (he : (l.order ++ [Entry.begin i c l.object])[k]? = some e) (hr : e.result = some r) :
    e.turn.Returns r := by
  rw [List.getElem?_append] at he
  split at he
  · exact h.returned k e r he hr
  · have hmem := List.mem_of_getElem? he
    rw [List.mem_singleton] at hmem
    rw [hmem] at hr
    cases hr

theorem Locked.consistent_initial (s : σ) : (Locked.initial s : Locked ι G ρ).Consistent s where
  apart hne := absurd rfl hne
  sharing hne := absurd rfl hne
  inside _ _ _ h := by cases h
  serial := ⟨s, .nil, fun _ => rfl⟩
  returned _ _ _ he := by cases he

/-- What a call leaves in the list of calls when it releases the lock. -/
theorem Locked.Consistent.returned_modify (h : l.Consistent s) {r : ρ}
    (hin : HoldsLock l i k (.done r) e) {k' : Nat} {e' : Entry ι G ρ} {r' : ρ}
    (he : (l.order.modify k (Entry.finish r))[k']? = some e') (hr : e'.result = some r') :
    e'.turn.Returns r' := by
  by_cases hk : k = k'
  · subst hk
    rw [List.getElem?_modify_eq, hin.entry] at he
    cases he
    cases hr
    exact ⟨fun hx => congrArg Prod.fst (hin.exclusive hx).2.2,
      fun hx => ⟨_, (hin.shared hx).2.2 r l.object ⟨rfl, .refl⟩⟩⟩
  · rw [List.getElem?_modify_ne _ _ hk] at he
    exact h.returned k' e' r' he hr

variable [DecidableEq ι]

theorem setPhase_inside {phase : ι → Phase σ ρ} {p : Phase σ ρ}
    (h : setPhase phase i p j = .inside k rest) :
    j = i ∧ p = .inside k rest ∨ j ≠ i ∧ phase j = .inside k rest := by
  by_cases hj : j = i
  · subst hj
    exact .inl ⟨rfl, by simpa [setPhase] using h⟩
  · exact .inr ⟨hj, by simpa [setPhase, hj] using h⟩

theorem Locked.Consistent.lockShared (h : l.Consistent s) (hs : G.invariant s)
    (hw : l.writer = none) {c : LockedCall G ρ} (hc : c.exclusive = false) :
    Locked.Consistent s { l with
      readers := insert i l.readers
      phase := setPhase l.phase i (.inside l.order.length c.body)
      order := l.order ++ [.begin i c l.object] } := by
  constructor
  case apart => exact fun hne => absurd hw hne
  case sharing => exact fun _ => ⟨l.turns, _, l.turns_append _, hc⟩
  case inside =>
    intro j k rest hj
    rcases setPhase_inside hj with ⟨rfl, heq⟩ | ⟨-, hj⟩
    · cases heq
      exact ⟨_, h.entered hs hw c j _ _ _ (fun _ => Set.mem_insert _ _) (by simp [hc])⟩
    · obtain ⟨e, hin⟩ := h.inside j k rest hj
      exact ⟨e, hin.append hw _ (Set.subset_insert _ _) _⟩
  case serial =>
    refine ⟨l.object, ?_, fun _ => rfl⟩
    show Serial s ((l.order ++ [Entry.begin i c l.object]).map Entry.turn) l.object
    rw [l.turns_append]
    show Serial s (l.turns ++ [⟨c, l.object⟩]) l.object
    exact .read (h.free hw) hc .refl
  case returned => exact fun k e r he hr => h.returned_append c i he hr

theorem Locked.Consistent.lock (h : l.Consistent s) (hs : G.invariant s) (hw : l.writer = none)
    (hr : l.readers = ∅) {c : LockedCall G ρ} (hc : c.exclusive = true) :
    Locked.Consistent s { l with
      writer := some i
      phase := setPhase l.phase i (.inside l.order.length c.body)
      order := l.order ++ [.begin i c l.object] } := by
  constructor
  case apart => exact fun _ => hr
  case sharing => exact fun hne => absurd hr hne
  case inside =>
    intro j k rest hj
    rcases setPhase_inside hj with ⟨rfl, heq⟩ | ⟨-, hj⟩
    · cases heq
      exact ⟨_, h.entered hs hw c j _ _ _ (by simp [hc]) fun _ => rfl⟩
    · obtain ⟨e, hin⟩ := h.inside j k rest hj
      have hmem := (hin.shared (hin.reading hw)).1
      rw [hr] at hmem
      exact hmem.elim
  case serial =>
    refine ⟨(c.body.run l.object).2, ?_, fun hnone => by cases hnone⟩
    show Serial s ((l.order ++ [Entry.begin i c l.object]).map Entry.turn) _
    rw [l.turns_append]
    show Serial s (l.turns ++ [⟨c, l.object⟩]) _
    exact .write (h.free hw) hc
  case returned => exact fun k e r he hr => h.returned_append c i he hr

theorem Locked.Consistent.act_shared (h : l.Consistent s) {f : σ → σ} {next : σ → Body σ ρ}
    (hin : HoldsLock l i k (.step f next) e) (hc : e.turn.call.exclusive = false) :
    Locked.Consistent s { l with
      object := f l.object
      phase := setPhase l.phase i (.inside k (next l.object)) } := by
  obtain ⟨hmem, hreads, hends⟩ := hin.shared hc
  obtain ⟨hmoves, hrest⟩ := hreads l.object .refl
  have hw := h.no_writer hmem
  constructor
  case apart => exact h.apart
  case sharing => exact h.sharing
  case inside =>
    intro j k' rest hj
    rcases setPhase_inside hj with ⟨rfl, heq⟩ | ⟨-, hj⟩
    · cases heq
      exact ⟨e, hin.entry, hin.thread,
        fun _ => ⟨hmem, hrest, fun r t he => hends r t ⟨_, .refl, he⟩⟩,
        fun hx => absurd hc (by simp [hx])⟩
    · obtain ⟨e', hin'⟩ := h.inside j k' rest hj
      refine ⟨e', hin'.entry, hin'.thread, fun hx => ?_,
        fun hx => absurd (hin'.reading hw) (by simp [hx])⟩
      obtain ⟨hmem', hreads', hends'⟩ := hin'.shared hx
      exact ⟨hmem', hreads'.moved hmoves, fun r t he => hends' r t (he.moved hmoves)⟩
  case serial =>
    obtain ⟨turns, turn, hturns, hx⟩ := h.sharing (Set.nonempty_iff_ne_empty.mp ⟨i, hmem⟩)
    have hfree := h.free hw
    refine ⟨_, ?_, fun _ => rfl⟩
    rw [hturns] at hfree
    show Serial s l.turns (f l.object)
    rw [hturns]
    exact hfree.moved hx hmoves
  case returned => exact h.returned

theorem Locked.Consistent.act_exclusive (h : l.Consistent s) {f : σ → σ} {next : σ → Body σ ρ}
    (hin : HoldsLock l i k (.step f next) e) (hc : e.turn.call.exclusive = true) :
    Locked.Consistent s { l with
      object := f l.object
      phase := setPhase l.phase i (.inside k (next l.object)) } := by
  obtain ⟨hw, hlast, hruns⟩ := hin.exclusive hc
  constructor
  case apart => exact h.apart
  case sharing => exact h.sharing
  case inside =>
    intro j k' rest hj
    rcases setPhase_inside hj with ⟨rfl, heq⟩ | ⟨hne, hj⟩
    · cases heq
      exact ⟨e, hin.entry, hin.thread, fun hx => absurd hc (by simp [hx]),
        fun _ => ⟨hw, hlast, hruns⟩⟩
    · exact absurd (h.alone hw hj) hne
  case serial =>
    obtain ⟨t, ht, -⟩ := h.serial
    refine ⟨t, ht, fun hnone => ?_⟩
    rw [show l.writer = some i from hw] at hnone
    cases hnone
  case returned => exact h.returned

theorem Locked.Consistent.unlockShared (h : l.Consistent s) {r : ρ}
    (hi : l.phase i = .inside k (.done r)) (hmem : i ∈ l.readers) :
    Locked.Consistent s { l with
      readers := l.readers \ {i}
      phase := setPhase l.phase i .outside
      order := l.order.modify k (Entry.finish r) } := by
  obtain ⟨e, hin⟩ := h.inside i k _ hi
  have hw := h.no_writer hmem
  have hturns : (l.order.modify k (Entry.finish r)).map Entry.turn = l.turns :=
    turns_modify l.order k r
  constructor
  case apart => exact fun hne => absurd hw hne
  case sharing =>
    intro _
    obtain ⟨turns, turn, heq, hx⟩ := h.sharing (Set.nonempty_iff_ne_empty.mp ⟨i, hmem⟩)
    exact ⟨turns, turn, hturns.trans heq, hx⟩
  case inside =>
    intro j k' rest hj
    rcases setPhase_inside hj with ⟨-, heq⟩ | ⟨hne, hj⟩
    · cases heq
    · obtain ⟨e', hin'⟩ := h.inside j k' rest hj
      have hk : k ≠ k' := by
        rintro rfl
        have heq := Option.some.inj (hin.entry.symm.trans hin'.entry)
        exact hne (by rw [← hin'.thread, ← heq, hin.thread])
      refine ⟨e', ?_, hin'.thread, fun hc => ⟨⟨(hin'.shared hc).1, hne⟩, (hin'.shared hc).2⟩,
        fun hc => absurd (hin'.reading hw) (by simp [hc])⟩
      show (l.order.modify k _)[k']? = some e'
      rw [List.getElem?_modify_ne _ _ hk]
      exact hin'.entry
  case serial =>
    refine ⟨l.object, ?_, fun _ => rfl⟩
    show Serial s ((l.order.modify k (Entry.finish r)).map Entry.turn) l.object
    rw [hturns]
    exact h.free hw
  case returned => exact fun k' e' r' he hr => h.returned_modify hin he hr

theorem Locked.Consistent.unlock (h : l.Consistent s) {r : ρ}
    (hi : l.phase i = .inside k (.done r)) (hw : l.writer = some i) :
    Locked.Consistent s { l with
      writer := none
      phase := setPhase l.phase i .outside
      order := l.order.modify k (Entry.finish r) } := by
  obtain ⟨e, hin⟩ := h.inside i k _ hi
  constructor
  case apart => exact fun hne => absurd rfl hne
  case sharing => exact fun hne => absurd (h.apart (by simp [hw])) hne
  case inside =>
    intro j k' rest hj
    rcases setPhase_inside hj with ⟨-, heq⟩ | ⟨hne, hj⟩
    · cases heq
    · exact absurd (h.alone hw hj) hne
  case serial =>
    have hc : e.turn.call.exclusive = true := by
      by_contra hc
      have hmem := (hin.shared (by simpa using hc)).1
      rw [h.apart (by simp [hw])] at hmem
      exact hmem
    obtain ⟨-, hlast, hruns⟩ := hin.exclusive hc
    have hturns : l.turns = l.turns.take k ++ [e.turn] := by
      have hk : l.turns[k]? = some e.turn := by
        rw [Locked.turns, List.getElem?_map, hin.entry]
        rfl
      obtain ⟨hlt, hget⟩ := List.getElem?_eq_some_iff.mp hk
      have htake := List.take_concat_get' l.turns k hlt
      rw [hget, hlast, ← show l.turns.length = l.order.length from List.length_map _,
        List.take_length] at htake
      exact htake.symm
    obtain ⟨t, ht, -⟩ := h.serial
    refine ⟨t, ?_, fun _ => ?_⟩
    · show Serial s ((l.order.modify k (Entry.finish r)).map Entry.turn) t
      rw [turns_modify]
      exact ht
    · rw [hturns] at ht
      exact (congrArg Prod.snd hruns).trans (ht.last.2.1 hc).symm
  case returned => exact fun k' e' r' he hr => h.returned_modify hin he hr

theorem LockStep.consistent (hs : G.invariant s) (hstep : LockStep l m) (h : l.Consistent s) :
    m.Consistent s := by
  cases hstep with
  | lockShared _ hc hw => exact h.lockShared hs hw hc
  | lock _ hc hw hr => exact h.lock hs hw hr hc
  | act hi =>
    obtain ⟨e, hin⟩ := h.inside _ _ _ hi
    cases hc : e.turn.call.exclusive with
    | true => exact h.act_exclusive hin hc
    | false => exact h.act_shared hin hc
  | unlockShared hi hmem => exact h.unlockShared hi hmem
  | unlock hi hw => exact h.unlock hi hw

/-- However the steps of the threads are interleaved, the calls do what they do one after the
other, in the order in which they got the lock. -/
theorem lockSystem_consistent (hs : G.invariant s) (h : (lockSystem ι G ρ s).Reachable l) :
    l.Consistent s := by
  refine h.invariant (P := fun l => l.Consistent s) ?_ ?_
  · rintro _ rfl
    exact Locked.consistent_initial s
  · intro l m hl hstep
    exact LockStep.consistent hs hstep hl

/-- While no writer is inside, the invariant holds. -/
theorem lockSystem_invariant (hs : G.invariant s) (h : (lockSystem ι G ρ s).Reachable l)
    (hw : l.writer = none) : G.invariant l.object :=
  (((lockSystem_consistent hs h).free hw).invariant hs).1

/-- Nobody is inside, and every call has returned. -/
structure Locked.Idle (l : Locked ι G ρ) : Prop where
  writer : l.writer = none
  readers : l.readers = ∅
  phase : ∀ i, l.phase i = .outside
  returned : ∀ e ∈ l.order, e.result ≠ none

omit [DecidableEq ι] in
theorem Locked.idle_initial (s : σ) : (Locked.initial s : Locked ι G ρ).Idle where
  writer := rfl
  readers := rfl
  phase _ := rfl
  returned _ he := by cases he

theorem setPhase_setPhase (phase : ι → Phase σ ρ) (i : ι) (p q : Phase σ ρ) :
    setPhase (setPhase phase i p) i q = setPhase phase i q :=
  Function.update_idem (β := fun _ => Phase σ ρ) p q phase

theorem setPhase_outside {phase : ι → Phase σ ρ} (h : ∀ j, phase j = .outside) (i j : ι)
    (p : Phase σ ρ) : setPhase (setPhase phase i p) i .outside j = .outside := by
  rw [setPhase_setPhase, setPhase]
  by_cases hj : j = i
  · rw [hj, Function.update_self]
  · rw [Function.update_of_ne hj, h]

/-- A thread that holds the lock can go on to the end of its call. -/
theorem runs_to_end (b : Body σ ρ) (l : Locked ι G ρ) (hi : l.phase i = .inside k b) :
    ReflTransGen LockStep l { l with
      object := (b.run l.object).2
      phase := setPhase l.phase i (.inside k (.done (b.run l.object).1)) } := by
  induction b generalizing l with
  | done result =>
    have hphase : setPhase l.phase i (.inside k (.done result)) = l.phase := by
      rw [← hi, setPhase, Function.update_eq_self]
    rw [Body.run_done, hphase]
  | step f next ih =>
    have hrest := ih l.object { l with
      object := f l.object
      phase := setPhase l.phase i (.inside k (next l.object)) } (Function.update_self _ _ _)
    rw [setPhase_setPhase] at hrest
    exact .head (.act hi) hrest

omit [DecidableEq ι] in
theorem modify_at (order rest : List (Entry ι G ρ)) (e : Entry ι G ρ)
    (f : Entry ι G ρ → Entry ι G ρ) :
    (order ++ e :: rest).modify order.length f = order ++ f e :: rest := by
  induction order with
  | nil => rfl
  | cons d order ih => exact congrArg (d :: ·) ih

/-- A thread at the end of its call, alone inside, leaves. -/
theorem leave {m : Locked ι G ρ} {r : ρ} (hi : m.phase i = .inside k (.done r))
    (halone : m.writer = some i ∧ m.readers = ∅ ∨ m.writer = none ∧ m.readers = {i}) :
    LockStep m { m with
      writer := none
      readers := ∅
      phase := setPhase m.phase i .outside
      order := m.order.modify k (Entry.finish r) } := by
  obtain ⟨writer, readers, object, phase, order⟩ := m
  rcases halone with ⟨hw, hr⟩ | ⟨hw, hr⟩
  · cases hr
    exact .unlock hi hw
  · change readers = {i} at hr
    subst hr
    cases hw
    have hstep := LockStep.unlockShared hi (Set.mem_singleton i)
    rwa [Set.sdiff_self] at hstep

/-- Any call can be made by any thread while nobody is inside. -/
theorem Locked.Idle.call (h : l.Idle) (i : ι) (c : LockedCall G ρ) :
    ∃ m : Locked ι G ρ, ReflTransGen LockStep l m ∧ m.Idle ∧
      m.object = (c.body.run l.object).2 ∧
      m.order = l.order ++ [⟨i, ⟨c, l.object⟩, some (c.body.run l.object).1⟩] := by
  obtain ⟨m₁, hstep, hobject, hphase, horder, halone⟩ : ∃ m₁, LockStep l m₁ ∧
      m₁.object = l.object ∧ m₁.phase = setPhase l.phase i (.inside l.order.length c.body) ∧
      m₁.order = l.order ++ [.begin i c l.object] ∧
      (m₁.writer = some i ∧ m₁.readers = ∅ ∨ m₁.writer = none ∧ m₁.readers = {i}) := by
    cases hc : c.exclusive with
    | true =>
      exact ⟨_, .lock (h.phase i) hc h.writer h.readers, rfl, rfl, rfl, .inl ⟨rfl, h.readers⟩⟩
    | false =>
      refine ⟨_, .lockShared (h.phase i) hc h.writer, rfl, rfl, rfl, .inr ⟨h.writer, ?_⟩⟩
      rw [h.readers, insert_empty_eq]
  have hinside : m₁.phase i = .inside l.order.length c.body := by
    rw [hphase, setPhase, Function.update_self]
  have hfinished : m₁.order.modify l.order.length (Entry.finish (c.body.run m₁.object).1) =
      l.order ++ [⟨i, ⟨c, l.object⟩, some (c.body.run l.object).1⟩] := by
    rw [horder, modify_at, hobject]
    rfl
  refine ⟨_, .head hstep ((runs_to_end c.body m₁ hinside).tail
    (leave (i := i) (Function.update_self _ _ _) halone)),
    ⟨rfl, rfl, fun j => ?_, fun e he => ?_⟩, by rw [← hobject], hfinished⟩
  · show setPhase (setPhase m₁.phase i _) i .outside j = .outside
    rw [setPhase_setPhase, hphase]
    exact setPhase_outside h.phase i j _
  · change e ∈ m₁.order.modify l.order.length _ at he
    rw [hfinished, List.mem_append, List.mem_singleton] at he
    rcases he with he | rfl
    · exact h.returned e he
    · exact fun hnone => by cases hnone

/-- A reader can go on to the end of its call and leave. -/
theorem finishes_reading {b : Body σ ρ} (hi : l.phase i = .inside k b) (hmem : i ∈ l.readers) :
    ∃ m : Locked ι G ρ, ReflTransGen LockStep l m ∧ m.writer = l.writer ∧
      m.readers = l.readers \ {i} ∧ m.object = (b.run l.object).2 ∧
      m.phase = setPhase l.phase i .outside ∧
      m.order = l.order.modify k (Entry.finish (b.run l.object).1) := by
  have hend := runs_to_end b l hi
  refine ⟨_, hend.tail (.unlockShared (i := i) (Function.update_self _ _ _) hmem), rfl, rfl, rfl,
    ?_, rfl⟩
  exact setPhase_setPhase l.phase i _ _

/-- Two readers can be inside at one time, and the one that came first may stay longer. -/
theorem Locked.Idle.overlap (h : l.Idle) (hij : i ≠ j) {c d : LockedCall G ρ}
    (hc : c.exclusive = false) (hd : d.exclusive = false) :
    ∃ m : Locked ι G ρ, ReflTransGen LockStep l m ∧ m.Idle ∧
      m.order = l.order ++ [⟨i, ⟨c, l.object⟩, some (c.body.run (d.body.run l.object).2).1⟩,
        ⟨j, ⟨d, l.object⟩, some (d.body.run l.object).1⟩] := by
  obtain ⟨m₁, hstep₁, hwriter₁, hreaders₁, hobject₁, hphase₁, horder₁⟩ : ∃ m₁ : Locked ι G ρ,
      LockStep l m₁ ∧ m₁.writer = none ∧ m₁.readers = {i} ∧ m₁.object = l.object ∧
      m₁.phase = setPhase l.phase i (.inside l.order.length c.body) ∧
      m₁.order = l.order ++ [.begin i c l.object] :=
    ⟨_, .lockShared (h.phase i) hc h.writer, h.writer,
      by rw [h.readers, insert_empty_eq], rfl, rfl, rfl⟩
  have houtside : m₁.phase j = .outside := by
    rw [hphase₁, setPhase, Function.update_of_ne hij.symm, h.phase]
  obtain ⟨m₂, hstep₂, hwriter₂, hreaders₂, hobject₂, hphase₂, horder₂⟩ : ∃ m₂ : Locked ι G ρ,
      LockStep m₁ m₂ ∧ m₂.writer = none ∧ m₂.readers = {j, i} ∧ m₂.object = l.object ∧
      m₂.phase = setPhase m₁.phase j (.inside (l.order.length + 1) d.body) ∧
      m₂.order = l.order ++ [.begin i c l.object, .begin j d l.object] := by
    refine ⟨_, .lockShared houtside hd hwriter₁, hwriter₁, by rw [hreaders₁], hobject₁, ?_, ?_⟩
    · simp [horder₁]
    · simp [horder₁, hobject₁]
  have hinside : m₂.phase j = .inside (l.order.length + 1) d.body := by
    rw [hphase₂, setPhase, Function.update_self]
  obtain ⟨m₃, hrun₃, hwriter₃, hreaders₃, hobject₃, hphase₃, horder₃⟩ :=
    finishes_reading hinside (by simp [hreaders₂])
  have hstays : m₃.phase i = .inside l.order.length c.body := by
    rw [hphase₃, setPhase, Function.update_of_ne hij, hphase₂, setPhase, Function.update_of_ne hij,
      hphase₁, setPhase, Function.update_self]
  obtain ⟨m₄, hrun₄, hwriter₄, hreaders₄, -, hphase₄, horder₄⟩ :=
    finishes_reading hstays (by simp [hreaders₃, hreaders₂, hij])
  have horder : m₄.order = l.order ++ [⟨i, ⟨c, l.object⟩,
      some (c.body.run (d.body.run l.object).2).1⟩, ⟨j, ⟨d, l.object⟩,
        some (d.body.run l.object).1⟩] := by
    have hlast := modify_at (l.order ++ [.begin i c l.object]) [] (.begin j d l.object)
      (Entry.finish (d.body.run l.object).1)
    rw [List.length_append, List.length_singleton, List.append_assoc, List.append_assoc] at hlast
    rw [horder₄, horder₃, horder₂, hobject₃, hobject₂]
    change (l.order ++ [Entry.begin i c l.object, Entry.begin j d l.object]).modify _ _ = _ at hlast
    rw [hlast]
    exact modify_at l.order _ _ _
  refine ⟨m₄, ((ReflTransGen.single hstep₁).tail hstep₂).trans (hrun₃.trans hrun₄),
    ⟨by rw [hwriter₄, hwriter₃, hwriter₂], ?_, fun k => ?_, fun e he => ?_⟩, horder⟩
  · rw [hreaders₄, hreaders₃, hreaders₂]
    ext k
    simp only [Set.mem_sdiff, Set.mem_insert_iff, Set.mem_singleton_iff, Set.mem_empty_iff_false]
    tauto
  · rw [hphase₄, hphase₃, hphase₂, hphase₁]
    by_cases hki : k = i
    · rw [hki, setPhase, Function.update_self]
    · rw [setPhase, Function.update_of_ne hki]
      by_cases hkj : k = j
      · rw [hkj, setPhase, Function.update_self]
      · rw [setPhase, Function.update_of_ne hkj, setPhase, Function.update_of_ne hkj, setPhase,
          Function.update_of_ne hki, h.phase]
  · rw [horder, List.mem_append, List.mem_cons, List.mem_singleton] at he
    rcases he with he | rfl | rfl
    · exact h.returned e he
    · exact fun hnone => by cases hnone
    · exact fun hnone => by cases hnone

end Invariant

end Calls

end VectorDb.Lib
