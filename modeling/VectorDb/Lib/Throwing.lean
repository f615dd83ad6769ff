import Mathlib

/-!
Imperative code that may throw: a state that survives the exception, what one
run of such code gives, and pre- and postconditions for both ways out of it.
-/
set_option autoImplicit false

namespace VectorDb.Lib

/-- Code over a state `σ` that may throw an `ε`. What it did to the state before
it threw stays done. -/
abbrev Throwing (ε σ α : Type) := ExceptT ε (StateM σ) α

/-- Code without a state that returned went through each of its steps. -/
theorem Except.bind_eq_ok {ε α β : Type} {x : Except ε α} {f : α → Except ε β} {b : β} :
    x >>= f = .ok b ↔ ∃ a, x = .ok a ∧ f a = .ok b := by
  cases x with
  | error e => simp [bind, Except.bind]
  | ok a => simp [bind, Except.bind]

theorem Except.bind_eq_error {ε α β : Type} {x : Except ε α} {f : α → Except ε β} {e : ε} :
    x >>= f = .error e ↔ x = .error e ∨ ∃ a, x = .ok a ∧ f a = .error e := by
  cases x with
  | error e => simp [bind, Except.bind]
  | ok a => simp [bind, Except.bind]

theorem Except.toOption_eq_some {ε α : Type} {x : Except ε α} {a : α} :
    x.toOption = some a ↔ x = .ok a := by
  cases x <;> simp [Except.toOption]

/-- A loop that throws does so in one of its turns. -/
theorem Except.forM_eq_error {ε α : Type} {l : List α} {f : α → Except ε Unit} {e : ε}
    (h : l.forM f = .error e) : ∃ a ∈ l, f a = .error e := by
  induction l with
  | nil => cases h
  | cons a l ih =>
    rw [List.forM, Except.bind_eq_error] at h
    rcases h with h | ⟨_, -, h⟩
    · exact ⟨a, by simp, h⟩
    · obtain ⟨b, hb, he⟩ := ih h
      exact ⟨b, by simp [hb], he⟩

theorem Except.forM_eq_ok {ε α : Type} {l : List α} {f : α → Except ε Unit}
    (h : l.forM f = .ok ⟨⟩) : ∀ a ∈ l, f a = .ok ⟨⟩ := by
  induction l with
  | nil => simp
  | cons a l ih =>
    rw [List.forM, Except.bind_eq_ok] at h
    obtain ⟨_, ha, hl⟩ := h
    simpa [ha] using ih hl

namespace Throwing

variable {ε σ τ α β : Type}

/-- One run: how the code was left and the state it left behind. -/
def exec (x : Throwing ε σ α) (s : σ) : Except ε α × σ := x.run s

@[simp] theorem exec_pure (a : α) (s : σ) : exec (pure a : Throwing ε σ α) s = (.ok a, s) := rfl

@[simp] theorem exec_throw (e : ε) (s : σ) :
    exec (throw e : Throwing ε σ α) s = (.error e, s) := rfl

@[simp] theorem exec_get (s : σ) : exec (get : Throwing ε σ σ) s = (.ok s, s) := rfl

@[simp] theorem exec_set (s t : σ) : exec (set t : Throwing ε σ PUnit) s = (.ok ⟨⟩, t) := rfl

@[simp] theorem exec_modify (f : σ → σ) (s : σ) :
    exec (modify f : Throwing ε σ PUnit) s = (.ok ⟨⟩, f s) := rfl

theorem exec_bind (x : Throwing ε σ α) (f : α → Throwing ε σ β) (s : σ) :
    exec (x >>= f) s = match exec x s with
      | (.ok a, t) => exec (f a) t
      | (.error e, t) => (.error e, t) := by
  simp only [exec, ExceptT.run, bind, ExceptT.bind, ExceptT.mk, StateT.bind]
  cases x s with
  | mk r t => cases r <;> rfl

theorem exec_tryCatch (x : Throwing ε σ α) (h : ε → Throwing ε σ α) (s : σ) :
    exec (tryCatch x h) s = match exec x s with
      | (.ok a, t) => (.ok a, t)
      | (.error e, t) => exec (h e) t := by
  simp only [exec, tryCatch, tryCatchThe, MonadExceptOf.tryCatch, ExceptT.tryCatch, ExceptT.run,
    ExceptT.mk, bind, StateT.bind]
  cases h : x s with
  | mk r t => cases r <;> rfl

theorem exec_map (f : α → β) (x : Throwing ε σ α) (s : σ) :
    exec (f <$> x) s = match exec x s with
      | (.ok a, t) => (.ok (f a), t)
      | (.error e, t) => (.error e, t) := by
  rw [map_eq_pure_bind, exec_bind]
  rfl

theorem exec_bind_ok {x : Throwing ε σ α} {f : α → Throwing ε σ β} {s t : σ} {a : α}
    (h : exec x s = (.ok a, t)) : exec (x >>= f) s = exec (f a) t := by
  simp [exec_bind, h]

theorem exec_bind_error {x : Throwing ε σ α} {f : α → Throwing ε σ β} {s t : σ} {e : ε}
    (h : exec x s = (.error e, t)) : exec (x >>= f) s = (.error e, t) := by
  simp [exec_bind, h]

theorem exec_bind_pure (x : Throwing ε σ α) (f : α → β) (s : σ) :
    (exec (x >>= fun a => pure (f a)) s).2 = (exec x s).2 := by
  rw [exec_bind]
  rcases exec x s with ⟨r, t⟩
  cases r <;> rfl

@[simp] theorem exec_ite (c : Prop) [Decidable c] (x y : Throwing ε σ α) (s : σ) :
    exec (if c then x else y) s = if c then exec x s else exec y s := by
  split <;> rfl

/-- Code that reads and changes no state. -/
def fromExcept (x : Except ε α) : Throwing ε σ α := fun s => (x, s)

@[simp] theorem exec_fromExcept (x : Except ε α) (s : σ) :
    exec (fromExcept x : Throwing ε σ α) s = (x, s) := rfl

/-- Run `x` and hand its exception over as a value. -/
def attempt (x : Throwing ε σ α) : Throwing ε σ (Except ε α) :=
  tryCatch (Except.ok <$> x) (fun e => pure (.error e))

@[simp] theorem exec_attempt (x : Throwing ε σ α) (s : σ) :
    exec (attempt x) s = (.ok (exec x s).1, (exec x s).2) := by
  rw [attempt, exec_tryCatch, map_eq_pure_bind, exec_bind]
  cases exec x s with
  | mk r t => cases r <;> rfl

/-- Run `x` on one component of a larger state. -/
def on (get : τ → σ) (put : σ → τ → τ) (x : Throwing ε σ α) : Throwing ε τ α :=
  fun t => match exec x (get t) with
    | (r, s) => (r, put s t)

@[simp] theorem exec_on (get : τ → σ) (put : σ → τ → τ) (x : Throwing ε σ α) (t : τ) :
    exec (on get put x) t = ((exec x (get t)).1, put (exec x (get t)).2 t) := rfl

/-- Started where `P` holds, `x` returns an `a` where `Q a` holds or throws an
`e` where `E e` holds. -/
def Triple (P : σ → Prop) (x : Throwing ε σ α) (Q : α → σ → Prop) (E : ε → σ → Prop) : Prop :=
  ∀ s, P s → match exec x s with
    | (.ok a, t) => Q a t
    | (.error e, t) => E e t

variable {P P' : σ → Prop} {Q Q' : α → σ → Prop} {E E' : ε → σ → Prop}

theorem Triple.conseq {x : Throwing ε σ α} (h : Triple P x Q E) (hP : ∀ s, P' s → P s)
    (hQ : ∀ a s, Q a s → Q' a s) (hE : ∀ e s, E e s → E' e s) : Triple P' x Q' E' := by
  intro s hs
  have hx := h s (hP s hs)
  cases hr : exec x s with
  | mk r t =>
    rw [hr] at hx
    cases r with
    | ok a => exact hQ a t hx
    | error e => exact hE e t hx

/-- Code that cannot throw returns. -/
theorem Triple.returns {x : Throwing ε σ α} {s : σ} (h : Triple P x Q fun _ _ => False)
    (hs : P s) : ∃ a t, exec x s = (.ok a, t) ∧ Q a t := by
  have hx := h s hs
  cases hr : exec x s with
  | mk q t =>
    rw [hr] at hx
    cases q with
    | ok a => exact ⟨a, t, rfl, hx⟩
    | error e => exact hx.elim

/-- Code that can be left in one way only. -/
theorem Triple.result {x : Throwing ε σ α} {r : Except ε α} {s : σ}
    (h : Triple P x (fun a _ => .ok a = r) (fun e _ => .error e = r)) (hs : P s) :
    (exec x s).1 = r := by
  have hx := h s hs
  cases hr : exec x s with
  | mk q t =>
    rw [hr] at hx
    cases q <;> exact hx

/-- What holds however the code ends. -/
theorem Triple.after {x : Throwing ε σ α} {S : σ → Prop} {s : σ}
    (h : Triple P x (fun _ => S) fun _ => S) (hs : P s) : S (exec x s).2 := by
  have hx := h s hs
  cases hr : exec x s with
  | mk q t =>
    rw [hr] at hx
    cases q <;> exact hx

theorem Triple.pure {a : α} (h : ∀ s, P s → Q a s) :
    Triple P (Pure.pure a : Throwing ε σ α) Q E := h

theorem Triple.throw {e : ε} (h : ∀ s, P s → E e s) :
    Triple P (MonadExcept.throw e : Throwing ε σ α) Q E := h

theorem Triple.bind {x : Throwing ε σ α} {f : α → Throwing ε σ β} {R : β → σ → Prop}
    (hx : Triple P x Q E) (hf : ∀ a, Triple (Q a) (f a) R E) : Triple P (x >>= f) R E := by
  intro s hs
  have h := hx s hs
  rw [exec_bind]
  cases hr : exec x s with
  | mk r t =>
    rw [hr] at h
    cases r with
    | ok a => exact hf a t h
    | error e => exact h

/-- A first step that can return one value only. -/
theorem Triple.bindEq {x : Throwing ε σ α} {f : α → Throwing ε σ β} {R : β → σ → Prop} {a : α}
    {S : σ → Prop} (hx : Triple P x (fun r s => r = a ∧ S s) E) (hf : Triple S (f a) R E) :
    Triple P (x >>= f) R E :=
  Triple.bind hx fun _ s hs => hs.1 ▸ hf s hs.2

theorem Triple.tryCatch {x : Throwing ε σ α} {g : ε → Throwing ε σ α}
    (hx : Triple P x Q E) (hg : ∀ e, Triple (E e) (g e) Q E') :
    Triple P (MonadExcept.tryCatch x g) Q E' := by
  intro s hs
  have h := hx s hs
  rw [exec_tryCatch]
  cases hr : exec x s with
  | mk r t =>
    rw [hr] at h
    cases r with
    | ok a => exact h
    | error e => exact hg e t h

theorem Triple.attempt {x : Throwing ε σ α} (h : Triple P x (fun _ => P) (fun _ => P)) :
    Triple P (Throwing.attempt x) (fun _ => P) E := by
  intro s hs
  have hx := h s hs
  rw [exec_attempt]
  cases hr : exec x s with
  | mk r t =>
    rw [hr] at hx
    cases r with
    | ok a => exact hx
    | error e => exact hx

/-- A loop whose turns take what holds for `b` to what holds for `step b a`. -/
theorem Triple.forM {l : List α} {f : α → Throwing ε σ PUnit} {H : β → σ → Prop}
    (step : β → α → β) (hf : ∀ b a, Triple (H b) (f a) (fun _ => H (step b a)) E) (b : β) :
    Triple (H b) (l.forM f) (fun _ => H (l.foldl step b)) E := by
  induction l generalizing b with
  | nil => exact Triple.pure (fun _ h => h)
  | cons a l ih => exact Triple.bind (hf b a) (fun _ => ih (step b a))

/-- What holds before `x` holds after it, however it ends. -/
def Maintains (P : σ → Prop) (x : Throwing ε σ α) : Prop := ∀ s, P s → P (exec x s).2

section Maintains
variable {P : σ → Prop}

theorem Maintains.triple {x : Throwing ε σ α} (h : Maintains P x) :
    Triple P x (fun _ => P) fun _ => P := by
  intro s hs
  have hx := h s hs
  cases hr : exec x s with
  | mk r t =>
    rw [hr] at hx
    cases r <;> exact hx

theorem Triple.maintains {x : Throwing ε σ α} (h : Triple P x (fun _ => P) fun _ => P) :
    Maintains P x := by
  intro s hs
  have hx := h s hs
  cases hr : exec x s with
  | mk r t =>
    rw [hr] at hx
    cases r <;> exact hx

/-- Code that looks at its state first may use what it saw. -/
theorem Maintains.getBind {f : σ → Throwing ε σ α} (h : ∀ s, P s → P (exec (f s) s).2) :
    Maintains P (MonadState.get >>= f) := h

theorem Maintains.pure (a : α) : Maintains P (Pure.pure a : Throwing ε σ α) := fun _ h => h

theorem Maintains.throw (e : ε) : Maintains P (MonadExcept.throw e : Throwing ε σ α) := fun _ h => h

theorem Maintains.get : Maintains P (MonadState.get : Throwing ε σ σ) := fun _ h => h

theorem Maintains.modify {f : σ → σ} (hf : ∀ s, P s → P (f s)) :
    Maintains P (MonadState.modifyGet fun s => ((), f s) : Throwing ε σ Unit) := hf

theorem Maintains.fromExcept (x : Except ε α) :
    Maintains P (Throwing.fromExcept x : Throwing ε σ α) := fun _ h => h

theorem Maintains.bind {x : Throwing ε σ α} {f : α → Throwing ε σ β} (hx : Maintains P x)
    (hf : ∀ a, Maintains P (f a)) : Maintains P (x >>= f) := by
  intro s hs
  have h := hx s hs
  rw [exec_bind]
  cases hr : exec x s with
  | mk r t =>
    rw [hr] at h
    cases r with
    | ok a => exact hf a t h
    | error e => exact h

theorem Maintains.tryCatch {x : Throwing ε σ α} {g : ε → Throwing ε σ α} (hx : Maintains P x)
    (hg : ∀ e, Maintains P (g e)) : Maintains P (MonadExcept.tryCatch x g) := by
  intro s hs
  have h := hx s hs
  rw [exec_tryCatch]
  cases hr : exec x s with
  | mk r t =>
    rw [hr] at h
    cases r with
    | ok a => exact h
    | error e => exact hg e t h

theorem Maintains.ite {c : Prop} [Decidable c] {x y : Throwing ε σ α} (hx : Maintains P x)
    (hy : Maintains P y) : Maintains P (if c then x else y) := by
  split
  · exact hx
  · exact hy

theorem Maintains.forM {l : List α} {f : α → Throwing ε σ PUnit} (hf : ∀ a ∈ l, Maintains P (f a)) :
    Maintains P (l.forM f) := by
  induction l with
  | nil => exact fun _ h => h
  | cons a l ih =>
    exact Maintains.bind (hf a (by simp)) fun _ => ih fun b hb => hf b (by simp [hb])

theorem Maintains.on {Q : τ → Prop} {get : τ → σ} {put : σ → τ → τ} {x : Throwing ε σ α}
    (hx : ∀ t, Q t → Q (put (exec x (get t)).2 t)) : Maintains Q (Throwing.on get put x) := hx

end Maintains

/-- Started in related states, `x` and `y` end the same way and in related states. -/
def Alike (R : σ → τ → Prop) (x : Throwing ε σ α) (y : Throwing ε τ α) : Prop :=
  ∀ s t, R s t → (exec x s).1 = (exec y t).1 ∧ R (exec x s).2 (exec y t).2

section Alike
variable {R : σ → τ → Prop}

theorem Alike.pure (a : α) :
    Alike R (Pure.pure a : Throwing ε σ α) (Pure.pure a : Throwing ε τ α) := fun _ _ h => ⟨rfl, h⟩

theorem Alike.throw (e : ε) :
    Alike R (MonadExcept.throw e : Throwing ε σ α) (MonadExcept.throw e : Throwing ε τ α) :=
  fun _ _ h => ⟨rfl, h⟩

theorem Alike.bind {x : Throwing ε σ α} {y : Throwing ε τ α} {f : α → Throwing ε σ β}
    {g : α → Throwing ε τ β} (hx : Alike R x y) (hf : ∀ a, Alike R (f a) (g a)) :
    Alike R (x >>= f) (y >>= g) := by
  intro s t h
  have hxy := hx s t h
  rw [exec_bind, exec_bind]
  rcases hr : exec x s with ⟨r, s'⟩
  rcases hq : exec y t with ⟨q, t'⟩
  rw [hr, hq] at hxy
  obtain ⟨rfl, hR⟩ := hxy
  cases r with
  | ok a => exact hf a s' t' hR
  | error e => exact ⟨rfl, hR⟩

theorem Alike.tryCatch {x : Throwing ε σ α} {y : Throwing ε τ α} {f : ε → Throwing ε σ α}
    {g : ε → Throwing ε τ α} (hx : Alike R x y) (hf : ∀ e, Alike R (f e) (g e)) :
    Alike R (MonadExcept.tryCatch x f) (MonadExcept.tryCatch y g) := by
  intro s t h
  have hxy := hx s t h
  rw [exec_tryCatch, exec_tryCatch]
  rcases hr : exec x s with ⟨r, s'⟩
  rcases hq : exec y t with ⟨q, t'⟩
  rw [hr, hq] at hxy
  obtain ⟨rfl, hR⟩ := hxy
  cases r with
  | ok a => exact ⟨rfl, hR⟩
  | error e => exact hf e s' t' hR

theorem Alike.attempt {x : Throwing ε σ α} {y : Throwing ε τ α} (h : Alike R x y) :
    Alike R (Throwing.attempt x) (Throwing.attempt y) := by
  intro s t hR
  obtain ⟨hr, hR'⟩ := h s t hR
  rw [exec_attempt, exec_attempt, hr]
  exact ⟨rfl, hR'⟩

end Alike

section ThrowsOnly
variable {E : ε → Prop}

/-- Code that throws, if at all, what `E` allows. -/
def ThrowsOnly (E : ε → Prop) (x : Throwing ε σ α) : Prop :=
  ∀ s e, (exec x s).1 = .error e → E e

theorem ThrowsOnly.pure (a : α) : ThrowsOnly E (Pure.pure a : Throwing ε σ α) :=
  fun _ _ h => by cases h

theorem ThrowsOnly.get : ThrowsOnly E (MonadState.get : Throwing ε σ σ) := fun _ _ h => by cases h

theorem ThrowsOnly.set (t : σ) : ThrowsOnly E (MonadStateOf.set t : Throwing ε σ PUnit) :=
  fun _ _ h => by cases h

theorem ThrowsOnly.modify (f : σ → σ) :
    ThrowsOnly E (MonadState.modifyGet fun s => ((), f s) : Throwing ε σ Unit) :=
  fun _ _ h => by cases h

theorem ThrowsOnly.throw {e : ε} (he : E e) :
    ThrowsOnly E (MonadExcept.throw e : Throwing ε σ α) := by
  intro s e' h
  cases h
  exact he

theorem ThrowsOnly.bind {x : Throwing ε σ α} {f : α → Throwing ε σ β} (hx : ThrowsOnly E x)
    (hf : ∀ a, ThrowsOnly E (f a)) : ThrowsOnly E (x >>= f) := by
  intro s e h
  rw [exec_bind] at h
  have hs := hx s
  cases hr : exec x s with
  | mk r t =>
    rw [hr] at h hs
    cases r with
    | ok a => exact hf a t e h
    | error e' =>
      cases h
      exact hs e rfl

theorem ThrowsOnly.tryCatch {x : Throwing ε σ α} {g : ε → Throwing ε σ α} (hx : ThrowsOnly E x)
    (hg : ∀ e, E e → ThrowsOnly E (g e)) : ThrowsOnly E (MonadExcept.tryCatch x g) := by
  intro s e h
  rw [exec_tryCatch] at h
  have hs := hx s
  cases hr : exec x s with
  | mk r t =>
    rw [hr] at h hs
    cases r with
    | ok a => cases h
    | error e' => exact hg e' (hs e' rfl) t e h

theorem ThrowsOnly.ite {c : Prop} [Decidable c] {x y : Throwing ε σ α} (hx : ThrowsOnly E x)
    (hy : ThrowsOnly E y) : ThrowsOnly E (if c then x else y) := by
  split
  · exact hx
  · exact hy

theorem ThrowsOnly.forM {l : List α} {f : α → Throwing ε σ PUnit}
    (hf : ∀ a, ThrowsOnly E (f a)) : ThrowsOnly E (l.forM f) := by
  induction l with
  | nil => exact ThrowsOnly.pure _
  | cons a l ih => exact (hf a).bind fun _ => ih

theorem ThrowsOnly.on {get : τ → σ} {put : σ → τ → τ} {x : Throwing ε σ α}
    (hx : ThrowsOnly E x) : ThrowsOnly E (Throwing.on get put x) := fun t => hx (get t)

end ThrowsOnly

/-- A counting loop none of whose turns throws. -/
theorem exec_forM_range {f : Nat → Throwing ε σ PUnit} {H : Nat → σ → Prop} {count : Nat}
    (hf : ∀ n s, n < count → H n s → ∃ t, exec (f n) s = (.ok ⟨⟩, t) ∧ H (n + 1) t) {s : σ}
    (h : H 0 s) : ∃ t, exec ((List.range count).forM f) s = (.ok ⟨⟩, t) ∧ H count t := by
  have hfrom : ∀ (len start : Nat) (s : σ), start + len = count → H start s →
      ∃ t, exec ((List.range' start len).forM f) s = (.ok ⟨⟩, t) ∧ H count t := by
    intro len
    induction len with
    | zero =>
      intro start s hsum hs
      exact ⟨s, rfl, hsum ▸ hs⟩
    | succ len ih =>
      intro start s hsum hs
      obtain ⟨t, ht, hnext⟩ := hf start s (by omega) hs
      obtain ⟨u, hu, hlast⟩ := ih (start + 1) t (by omega) hnext
      exact ⟨u, by rw [List.range'_succ, List.forM, exec_bind_ok ht, hu], hlast⟩
  rw [List.range_eq_range']
  exact hfrom count 0 s (by omega) h

end Throwing

end VectorDb.Lib
