import Mathlib.Tactic

/-! Fallible transactions in the `Except` monad.

    A transaction body reads a state and either fails or returns a value with the state to commit.
    `transaction` runs it against the committed state: a failing body is rolled back. Bodies are
    written as a straight line of `ensure` guards, `orThrow` lookups and binds, and the lemmas below
    turn the equation "this body succeeded" (or failed with `e`) into the list of what every line of
    it found. -/

namespace Schemes.Transact

variable {ε α β σ : Type}

/-- Fail with `e` unless `c` holds. -/
def ensure (c : Prop) [Decidable c] (e : ε) : Except ε Unit := if c then .ok () else .error e

/-- The value of a lookup, or the error `e` when there is none. -/
def orThrow (e : ε) : Option α → Except ε α
  | some a => .ok a
  | none => .error e

/-- Run a transaction body on the committed state; an error rolls back. -/
def transaction (body : σ → Except ε (α × σ)) (s : σ) : Except ε α × σ :=
  match body s with
  | .ok (a, s') => (.ok a, s')
  | .error e => (.error e, s)

/-- A body that may commit and then still answer with an error of its own. -/
def committed (body : σ → Except ε (Except ε α × σ)) (s : σ) : Except ε α × σ :=
  ((transaction body s).1.bind id, (transaction body s).2)

@[simp] theorem ensure_ok {c : Prop} [Decidable c] {e : ε} {u : Unit} :
    ensure c e = .ok u ↔ c := by
  unfold ensure; split <;> simp_all

@[simp] theorem ensure_error {c : Prop} [Decidable c] {e e' : ε} :
    ensure c e = .error e' ↔ ¬ c ∧ e = e' := by
  unfold ensure; split <;> simp_all

theorem ensure_of {c : Prop} {_ : Decidable c} {e : ε} (h : c) : ensure c e = .ok () := by
  simp [h]

@[simp] theorem orThrow_ok {e : ε} {o : Option α} {a : α} : orThrow e o = .ok a ↔ o = some a := by
  cases o <;> simp [orThrow]

@[simp] theorem orThrow_error {e e' : ε} {o : Option α} :
    orThrow e o = .error e' ↔ o = none ∧ e = e' := by
  cases o <;> simp [orThrow]

theorem ok_bind (a : α) (f : α → Except ε β) : (.ok a >>= f : Except ε β) = f a := rfl

@[simp] theorem bind_ok {x : Except ε α} {f : α → Except ε β} {b : β} :
    x >>= f = .ok b ↔ ∃ a, x = .ok a ∧ f a = .ok b := by
  cases x <;> simp [bind, Except.bind]

@[simp] theorem bind_error {x : Except ε α} {f : α → Except ε β} {e : ε} :
    x >>= f = .error e ↔ x = .error e ∨ ∃ a, x = .ok a ∧ f a = .error e := by
  cases x <;> simp [bind, Except.bind]

@[simp] theorem pure_ok {a b : α} : (pure a : Except ε α) = .ok b ↔ a = b := by
  simp [pure, Except.pure]

@[simp] theorem pure_error {a : α} {e : ε} : (pure a : Except ε α) = .error e ↔ False := by
  simp [pure, Except.pure]

@[simp] theorem throw_ok {e : ε} {b : α} : (throw e : Except ε α) = .ok b ↔ False := by
  simp [throw, throwThe, MonadExceptOf.throw]

@[simp] theorem throw_error {e e' : ε} : (throw e : Except ε α) = .error e' ↔ e = e' := by
  simp [throw, throwThe, MonadExceptOf.throw]

@[simp] theorem transaction_eq_ok {body : σ → Except ε (α × σ)} {s s' : σ} {a : α} :
    transaction body s = (.ok a, s') ↔ body s = .ok (a, s') := by
  unfold transaction
  split <;> simp_all

@[simp] theorem transaction_eq_error {body : σ → Except ε (α × σ)} {s s' : σ} {e : ε} :
    transaction body s = (.error e, s') ↔ body s = .error e ∧ s = s' := by
  unfold transaction
  split <;> simp_all

@[simp] theorem committed_eq_ok {body : σ → Except ε (Except ε α × σ)} {s s' : σ} {a : α} :
    committed body s = (.ok a, s') ↔ body s = .ok (.ok a, s') := by
  unfold committed transaction
  rcases body s with e | ⟨r | a', s''⟩ <;> simp [Except.bind]

@[simp] theorem committed_eq_error {body : σ → Except ε (Except ε α × σ)} {s s' : σ} {e : ε} :
    committed body s = (.error e, s') ↔
      (body s = .error e ∧ s = s') ∨ body s = .ok (.error e, s') := by
  unfold committed transaction
  rcases body s with e' | ⟨r | a', s''⟩ <;> simp [Except.bind]

/-! ### Errors a body never ends with -/

/-- The computation does not fail with `e`. -/
def Avoids (e : ε) (x : Except ε α) : Prop := x ≠ .error e

variable {e : ε} {x : Except ε α}

@[simp] theorem avoids_ok (e : ε) (a : α) : Avoids e (.ok a : Except ε α) := by
  simp [Avoids]

@[simp] theorem avoids_error {e' : ε} : Avoids e (.error e' : Except ε α) ↔ e' ≠ e := by
  simp [Avoids]

/-- Line by line: a line may use that the ones before it succeeded. -/
theorem Avoids.bind {f : α → Except ε β} (hx : Avoids e x) (hf : ∀ a, x = .ok a → Avoids e (f a)) :
    Avoids e (x >>= f) := by
  intro h
  rcases bind_error.1 h with hx' | ⟨a, ha, hfa⟩
  · exact hx hx'
  · exact hf a ha hfa

theorem Avoids.map {g : α → β} (hx : Avoids e x) : Avoids e (x.map g) := by
  cases x with
  | error e' => exact fun h => hx (by simpa [Except.map] using h)
  | ok a => simp [Except.map]

theorem avoids_ensure {c : Prop} [Decidable c] {e' : ε} (h : e' ≠ e) : Avoids e (ensure c e') :=
  fun hc => h (ensure_error.1 hc).2

theorem avoids_orThrow {e' : ε} {o : Option α} (h : e' ≠ e) : Avoids e (orThrow e' o) :=
  fun hc => h (orThrow_error.1 hc).2

theorem avoids_transaction {body : σ → Except ε (α × σ)} {s : σ} (h : Avoids e (body s)) :
    Avoids e (transaction body s).1 := by
  intro hres
  exact h (transaction_eq_error.1 (Prod.ext hres rfl)).1

theorem avoids_committed {body : σ → Except ε (Except ε α × σ)} {s : σ} (h : Avoids e (body s))
    (hanswer : ∀ r s', body s = .ok (r, s') → Avoids e r) : Avoids e (committed body s).1 := by
  intro hres
  rcases committed_eq_error.1 (Prod.ext hres rfl) with ⟨hbody, _⟩ | hbody
  · exact h hbody
  · exact hanswer _ _ hbody rfl

/-! ### How a computation may end -/

/-- Every failure meets `P` and every value meets `Q`. -/
def Ends (P : ε → Prop) (Q : α → Prop) : Except ε α → Prop
  | .ok a => Q a
  | .error e => P e

variable {P : ε → Prop} {Q : α → Prop} {R : β → Prop}

theorem Ends.of_error (hx : Ends P Q x) (h : x = .error e) : P e := by
  rw [h] at hx
  exact hx

theorem Ends.of_ok {a : α} (hx : Ends P Q x) (h : x = .ok a) : Q a := by
  rw [h] at hx
  exact hx

@[simp] theorem ends_ok {a : α} : Ends P Q (.ok a) ↔ Q a := Iff.rfl

@[simp] theorem ends_error {e : ε} : Ends P Q (.error e) ↔ P e := Iff.rfl

theorem Ends.bind {f : α → Except ε β} (hx : Ends P Q x) (hf : ∀ a, Q a → Ends P R (f a)) :
    Ends P R (x >>= f) := by
  cases x with
  | error e => exact hx
  | ok a => exact hf a hx

theorem Ends.weaken {P' : ε → Prop} {Q' : α → Prop} (hx : Ends P Q x) (hP : ∀ e, P e → P' e)
    (hQ : ∀ a, Q a → Q' a) : Ends P' Q' x := by
  cases x with
  | error e => exact hP e hx
  | ok a => exact hQ a hx

/-- A computation ends as it ends. -/
theorem ends_self (x : Except ε α) : Ends (fun e => x = .error e) (fun a => x = .ok a) x := by
  cases x <;> rfl

theorem Ends.value (hx : Ends P Q x) : Ends P (fun a => x = .ok a ∧ Q a) x := by
  cases x with
  | error e => exact hx
  | ok a => exact ⟨rfl, hx⟩

theorem ends_any : Ends (fun _ => True) (fun _ => True) x := by
  cases x <;> trivial

/-- What every step of a loop keeps, the loop keeps. -/
theorem ends_foldlM {f : α → β → Except ε α} {l : List β} {a : α}
    (hstep : ∀ a b, Q a → Ends P Q (f a b)) (h : Q a) : Ends P Q (l.foldlM f a) := by
  induction l generalizing a with
  | nil => exact h
  | cons b l ih =>
    rw [List.foldlM_cons]
    exact (hstep a b h).bind fun a' ha' => ih ha'

theorem ends_ensure {c : Prop} {_ : Decidable c} (h : P e) : Ends P (fun _ => c) (ensure c e) := by
  unfold ensure
  split
  next hc => exact hc
  next => exact h

theorem ends_orThrow {o : Option α} (h : P e) : Ends P (fun a => o = some a) (orThrow e o) := by
  cases o with
  | none => exact h
  | some a => rfl

/-- A guard, then the rest under it. -/
theorem ends_ensure_bind {c : Prop} {_ : Decidable c} {f : Unit → Except ε β} (h : P e)
    (hf : c → Ends P R (f ())) : Ends P R (ensure c e >>= f) :=
  (ends_ensure h).bind fun _ hc => hf hc

/-- A lookup, then the rest with what it found. -/
theorem ends_orThrow_bind {o : Option α} {f : α → Except ε β} (h : P e)
    (hf : ∀ a, o = some a → Ends P R (f a)) : Ends P R (orThrow e o >>= f) :=
  (ends_orThrow h).bind hf

/-- A call whose every failure is mapped to one, then the rest with its value. -/
theorem ends_mapError_bind {ε' : Type} {T : ε' → Prop} {e' : ε'} {f : α → Except ε' β} (h : T e')
    (hf : ∀ a, x = .ok a → Ends T R (f a)) : Ends T R (x.mapError (fun _ => e') >>= f) := by
  cases x with
  | error e => exact h
  | ok a => exact hf a rfl

end Schemes.Transact
