import Mathlib.Tactic
import Mathlib.Data.List.Sort

/-! Relational tables as lists of rows, in insertion order.

    `update` and `delete` are the SQL statements of the same name; the number of rows a statement
    changes is `List.countP` of its `WHERE` clause. A unique index, partial or not, is the pairwise
    property `Unique p key`: no two rows that satisfy `p` agree on `key`. Everything here is about an
    arbitrary row type. -/

namespace Schemes.Table

variable {ρ κ κ' : Type}

/-- `UPDATE … SET f WHERE p`: every matching row is rewritten where it stands. -/
def update (p : ρ → Bool) (f : ρ → ρ) (t : List ρ) : List ρ :=
  t.map fun r => if p r then f r else r

/-- `DELETE … WHERE p`. -/
def delete (p : ρ → Bool) (t : List ρ) : List ρ := t.filter fun r => !p r

/-- `ORDER BY key ASC`; equal keys keep their row order. -/
def orderBy [LE κ] [DecidableLE κ] (key : ρ → κ) (t : List ρ) : List ρ :=
  t.insertionSort fun a b => key a ≤ key b

/-- A unique index on `key` over the rows that satisfy `p`. -/
def Unique (p : ρ → Bool) (key : ρ → κ) (t : List ρ) : Prop :=
  t.Pairwise fun a b => p a = true → p b = true → key a ≠ key b

instance [DecidableEq κ] (p : ρ → Bool) (key : ρ → κ) (t : List ρ) : Decidable (Unique p key t) :=
  inferInstanceAs (Decidable (t.Pairwise _))

theorem mem_update {p : ρ → Bool} {f : ρ → ρ} {t : List ρ} {r : ρ} :
    r ∈ update p f t ↔ ∃ s ∈ t, (if p s then f s else s) = r := by
  simp [update]

/-- A row of an updated table is an old row the statement passed over, or a rewritten one. -/
theorem mem_update_cases {p : ρ → Bool} {f : ρ → ρ} {t : List ρ} {r : ρ} (h : r ∈ update p f t) :
    (r ∈ t ∧ p r = false) ∨ ∃ s ∈ t, p s = true ∧ r = f s := by
  obtain ⟨s, hs, rfl⟩ := mem_update.1 h
  cases hp : p s with
  | true => exact Or.inr ⟨s, hs, hp, by simp⟩
  | false => exact Or.inl ⟨by simpa using hs, by simpa using hp⟩

theorem mem_update_of_not {p : ρ → Bool} {f : ρ → ρ} {t : List ρ} {r : ρ} (h : r ∈ t)
    (hp : p r = false) : r ∈ update p f t :=
  mem_update.2 ⟨r, h, by simp [hp]⟩

theorem mem_update_of {p : ρ → Bool} {f : ρ → ρ} {t : List ρ} {r : ρ} (h : r ∈ t)
    (hp : p r = true) : f r ∈ update p f t :=
  mem_update.2 ⟨r, h, by simp [hp]⟩

theorem mem_delete {p : ρ → Bool} {t : List ρ} {r : ρ} :
    r ∈ delete p t ↔ r ∈ t ∧ p r = false := by
  simp [delete]

theorem mem_orderBy [LE κ] [DecidableLE κ] {key : ρ → κ} {t : List ρ} {r : ρ} :
    r ∈ orderBy key t ↔ r ∈ t :=
  (List.perm_insertionSort _ t).mem_iff

/-- A statement whose `WHERE` clause matches nothing changes nothing. -/
theorem update_eq_self {p : ρ → Bool} {f : ρ → ρ} {t : List ρ} (h : ∀ r ∈ t, p r = false) :
    update p f t = t := by
  rw [update, List.map_congr_left (g := id), List.map_id]
  intro r hr
  simp [h r hr]

/-- Two passes of one rewriting are one pass, when the second leaves rewritten rows alone. -/
theorem update_update {p q : ρ → Bool} {f : ρ → ρ} {t : List ρ} (h : ∀ r, p r = true → q (f r) = false) :
    update q f (update p f t) = update (fun r => p r || q r) f t := by
  rw [update, update, update, List.map_map]
  refine List.map_congr_left fun r _ => ?_
  cases hp : p r with
  | true => simp [hp, h r hp]
  | false => simp [hp]

theorem countP_update {p q : ρ → Bool} {f : ρ → ρ} {t : List ρ} :
    (update p f t).countP q = t.countP fun r => q (if p r then f r else r) :=
  List.countP_map

/-- Rewriting rows adds at most the rewritten ones to a count. -/
theorem countP_update_le {p q : ρ → Bool} {f : ρ → ρ} {t : List ρ} :
    (update p f t).countP q ≤ t.countP q + t.countP p := by
  rw [countP_update]
  induction t with
  | nil => simp
  | cons a t ih =>
    rw [List.countP_cons, List.countP_cons, List.countP_cons]
    cases p a <;> simp only [if_true, if_false, Bool.false_eq_true] <;> split <;> omega

/-- Rewriting rows that only ever leave a predicate never raises its count. -/
theorem countP_update_mono {p q : ρ → Bool} {f : ρ → ρ} {t : List ρ}
    (h : ∀ r ∈ t, p r = true → q (f r) = true → q r = true) :
    (update p f t).countP q ≤ t.countP q := by
  rw [countP_update]
  refine List.countP_mono_left fun r hr => ?_
  split
  next hp => exact h r hr hp
  next => exact id

/-- Rows counted by two disjoint predicates together. -/
theorem countP_or_eq {p q : ρ → Bool} {t : List ρ} :
    (t.countP fun r => p r || q r) = t.countP p + t.countP fun r => !p r && q r := by
  induction t with
  | nil => rfl
  | cons a t ih =>
    simp only [List.countP_cons, ih]
    cases p a <;> cases q a <;> simp <;> omega

theorem Unique.eq_of_mem {p : ρ → Bool} {key : ρ → κ} {t : List ρ} (h : Unique p key t) {a b : ρ}
    (ha : a ∈ t) (hb : b ∈ t) (pa : p a = true) (pb : p b = true) (hk : key a = key b) : a = b := by
  induction t with
  | nil => cases ha
  | cons x t ih =>
    obtain ⟨hhead, htail⟩ := List.pairwise_cons.1 h
    rcases List.mem_cons.1 ha with rfl | ha' <;> rcases List.mem_cons.1 hb with rfl | hb'
    · rfl
    · exact absurd hk (hhead b hb' pa pb)
    · exact absurd hk.symm (hhead a ha' pb pa)
    · exact ih htail ha' hb'

theorem unique_nil (p : ρ → Bool) (key : ρ → κ) : Unique p key [] := List.Pairwise.nil

theorem unique_insert {p : ρ → Bool} {key : ρ → κ} {t : List ρ} {r : ρ} :
    Unique p key (t ++ [r]) ↔
      Unique p key t ∧ (p r = true → ∀ a ∈ t, p a = true → key a ≠ key r) := by
  rw [Unique, List.pairwise_append]
  constructor
  · rintro ⟨h, -, hr⟩
    exact ⟨h, fun pr a ha pa => hr a ha r (by simp) pa pr⟩
  · rintro ⟨h, hr⟩
    refine ⟨h, List.pairwise_singleton _ _, fun a ha b hb pa pb => ?_⟩
    rw [List.mem_singleton] at hb
    subst hb
    exact hr pb a ha pa

/-- Rewriting rows keeps an index when two rewritten rows can only clash where two old ones did. -/
theorem Unique.update {p q : ρ → Bool} {f : ρ → ρ} {key : ρ → κ} {key' : ρ → κ'} {t : List ρ}
    {p' : ρ → Bool} (h : Unique p' key' t)
    (hu : ∀ a ∈ t, ∀ b ∈ t, p (if q a then f a else a) = true → p (if q b then f b else b) = true →
      key (if q a then f a else a) = key (if q b then f b else b) →
      p' a = true ∧ p' b = true ∧ key' a = key' b) :
    Unique p key (update q f t) := by
  refine List.pairwise_map.2 (h.imp_of_mem ?_)
  intro a b ha hb hab pa pb hk
  obtain ⟨pa', pb', hk'⟩ := hu a ha b hb pa pb hk
  exact hab pa' pb' hk'

theorem Unique.delete {p q : ρ → Bool} {key : ρ → κ} {t : List ρ} (h : Unique p key t) :
    Unique p key (delete q t) := List.Pairwise.filter _ h

/-- Rows picked out through an indexed key are at most one. -/
theorem Unique.countP_le_one {p q : ρ → Bool} {key : ρ → κ} {t : List ρ} (h : Unique p key t) {k : κ}
    (hq : ∀ r ∈ t, q r = true → p r = true ∧ key r = k) : t.countP q ≤ 1 := by
  induction t with
  | nil => simp
  | cons a t ih =>
    obtain ⟨hhead, htail⟩ := List.pairwise_cons.1 h
    have ih' := ih htail fun r hr => hq r (List.mem_cons_of_mem _ hr)
    cases hqa : q a with
    | false => simpa [List.countP_cons, hqa] using ih'
    | true =>
      obtain ⟨pa, ka⟩ := hq a (List.mem_cons_self ..) hqa
      have hzero : t.countP q = 0 := by
        rw [List.countP_eq_zero]
        intro b hb hqb
        obtain ⟨pb, kb⟩ := hq b (List.mem_cons_of_mem _ hb) hqb
        exact hhead b hb pa pb (ka.trans kb.symm)
      simp [hqa, hzero]

/-- A key lookup matches exactly one row as soon as it matches some row. -/
theorem Unique.countP_eq_one {p q : ρ → Bool} {key : ρ → κ} {t : List ρ} (h : Unique p key t) {k : κ}
    (hq : ∀ r ∈ t, q r = true → p r = true ∧ key r = k) {r : ρ} (hr : r ∈ t) (hqr : q r = true) :
    t.countP q = 1 := by
  have hle := h.countP_le_one hq
  have hpos : 0 < t.countP q := List.countP_pos_iff.2 ⟨r, hr, hqr⟩
  omega

/-- `find?` returns the only row that matches. -/
theorem find_eq_some_of_unique {q : ρ → Bool} {t : List ρ} {r : ρ} (hr : r ∈ t) (hqr : q r = true)
    (huniq : ∀ s ∈ t, q s = true → s = r) : t.find? q = some r := by
  cases hf : t.find? q with
  | none => exact absurd hqr (List.find?_eq_none.1 hf r hr)
  | some s =>
    have hs := huniq s (List.mem_of_find?_eq_some hf) (List.find?_some hf)
    rw [hs]

end Schemes.Table
