import Mathlib.Data.List.Forall2
import Mathlib.Tactic.Common

/-! # Walks over lists that may fail

What is known of a walk that succeeded, and when two walks are the same. -/
namespace Rowbase

variable {ε α β γ : Type} {m : Type → Type} [Monad m] [LawfulMonad m]

theorem bind_eq_ok {x : Except ε α} {f : α → Except ε β} {b : β} :
    (x >>= f) = .ok b ↔ ∃ a, x = .ok a ∧ f a = .ok b := by
  cases x <;> simp [bind, Except.bind]

theorem bind_eq_error {x : Except ε α} {f : α → Except ε β} {e : ε} :
    (x >>= f) = .error e ↔ x = .error e ∨ ∃ a, x = .ok a ∧ f a = .error e := by
  cases x <;> simp [bind, Except.bind]

theorem map_eq_ok {x : Except ε α} {f : α → β} {b : β} :
    (f <$> x) = .ok b ↔ ∃ a, x = .ok a ∧ f a = b := by
  cases x <;> simp [Functor.map, Except.map]

theorem mapError_eq_ok {ε' : Type} {x : Except ε α} {f : ε → ε'} {a : α} :
    x.mapError f = .ok a ↔ x = .ok a := by
  cases x <;> simp [Except.mapError]

theorem ok_of_toOption {x : Except ε α} {a : α} (h : x.toOption = some a) : x = .ok a := by
  cases x with
  | error e => cases h
  | ok b =>
    cases h
    rfl

/-- A continuation that only sees a view of a result cannot tell two results apart that look alike. -/
theorem bind_congr_of_map {ε α β V : Type} {x y : Except ε α} {v : α → V} {f : α → Except ε β}
    (h : x.map v = y.map v) (hf : ∀ a b, v a = v b → f a = f b) : (x >>= f) = (y >>= f) := by
  cases x with
  | error e =>
    cases y with
    | error e' => cases h; rfl
    | ok b => cases h
  | ok a =>
    cases y with
    | error e' => cases h
    | ok b => exact hf a b (Except.ok.inj h)

theorem mapM_cons_eq_ok {f : α → Except ε β} {a : α} {as : List α} {bs : List β} :
    (a :: as).mapM f = .ok bs ↔ ∃ b bs', f a = .ok b ∧ as.mapM f = .ok bs' ∧ bs = b :: bs' := by
  rw [List.mapM_cons, bind_eq_ok]
  constructor
  · rintro ⟨b, hb, h⟩
    obtain ⟨bs', hbs, h⟩ := bind_eq_ok.1 h
    exact ⟨b, bs', hb, hbs, (Except.ok.inj h).symm⟩
  · rintro ⟨b, bs', hb, hbs, rfl⟩
    exact ⟨b, hb, bind_eq_ok.2 ⟨bs', hbs, rfl⟩⟩

/-- A walk succeeds just if each of its steps does. -/
theorem mapM_eq_ok_iff {f : α → Except ε β} :
    ∀ {as : List α} {bs : List β}, as.mapM f = .ok bs ↔ List.Forall₂ (fun a b => f a = .ok b) as bs
  | [], bs => by
    rw [List.mapM_nil, List.forall₂_nil_left_iff]
    exact ⟨fun h => (Except.ok.inj h).symm, fun h => by rw [h]; rfl⟩
  | a :: as, bs => by
    rw [mapM_cons_eq_ok, List.forall₂_cons_left_iff]
    constructor
    · rintro ⟨b, bs', hb, hbs, rfl⟩
      exact ⟨b, bs', hb, mapM_eq_ok_iff.1 hbs, rfl⟩
    · rintro ⟨b, bs', hb, hbs, rfl⟩
      exact ⟨b, bs', hb, mapM_eq_ok_iff.2 hbs, rfl⟩

theorem forall₂_append_left_iff {R : α → β → Prop} {as as' : List α} {bs : List β} :
    List.Forall₂ R (as ++ as') bs ↔
      ∃ front back, List.Forall₂ R as front ∧ List.Forall₂ R as' back ∧ bs = front ++ back := by
  constructor
  · intro h
    induction as generalizing bs with
    | nil => exact ⟨[], bs, .nil, h, rfl⟩
    | cons a as ih =>
      obtain ⟨b, bs', hb, hbs, rfl⟩ := List.forall₂_cons_left_iff.1 h
      obtain ⟨front, back, hfront, hback, rfl⟩ := ih hbs
      exact ⟨b :: front, back, .cons hb hfront, hback, rfl⟩
  · rintro ⟨front, back, hfront, hback, rfl⟩
    exact List.rel_append hfront hback

theorem exists_mapM {f : α → Except ε β} {as : List α} (h : ∀ a ∈ as, ∃ b, f a = .ok b) :
    ∃ bs, as.mapM f = .ok bs := by
  induction as with
  | nil => exact ⟨[], rfl⟩
  | cons a as ih =>
    obtain ⟨b, hb⟩ := h a (.head _)
    obtain ⟨bs, hbs⟩ := ih fun a' hm => h a' (.tail _ hm)
    exact ⟨b :: bs, mapM_cons_eq_ok.2 ⟨b, bs, hb, hbs, rfl⟩⟩

theorem exists_of_mapM_eq_ok {f : α → Except ε β} {a : α} :
    ∀ {as : List α} {bs : List β}, as.mapM f = .ok bs → a ∈ as → ∃ b ∈ bs, f a = .ok b
  | [], _, _, ha => nomatch ha
  | a' :: as, _, h, ha => by
    obtain ⟨b, bs', hb, hbs, rfl⟩ := mapM_cons_eq_ok.1 h
    rcases List.mem_cons.1 ha with rfl | ha
    · exact ⟨b, .head _, hb⟩
    · obtain ⟨b', hm, hb'⟩ := exists_of_mapM_eq_ok hbs ha
      exact ⟨b', .tail _ hm, hb'⟩

theorem exists_of_mapM_eq_error {f : α → Except ε β} {e : ε} :
    ∀ {as : List α}, as.mapM f = .error e → ∃ a ∈ as, f a = .error e
  | [], h => nomatch h
  | a :: as, h => by
    rw [List.mapM_cons] at h
    rcases bind_eq_error.1 h with h | ⟨b, -, h⟩
    · exact ⟨a, .head _, h⟩
    · rcases bind_eq_error.1 h with h | ⟨bs, -, h⟩
      · obtain ⟨a', hm, h⟩ := exists_of_mapM_eq_error h
        exact ⟨a', .tail _ hm, h⟩
      · cases h

theorem mapM_eq_ok_map_iff {f : α → Except ε β} {g : α → β} {as : List α} :
    as.mapM f = .ok (as.map g) ↔ ∀ a ∈ as, f a = .ok (g a) := by
  rw [mapM_eq_ok_iff, List.forall₂_map_right_iff, List.forall₂_same]

theorem mapM_ok {f : α → Except ε β} {g : α → β} {as : List α} (h : ∀ a ∈ as, f a = .ok (g a)) :
    as.mapM f = .ok (as.map g) := mapM_eq_ok_map_iff.2 h

theorem mapM_congr {f g : α → m β} {as : List α} (h : ∀ a ∈ as, f a = g a) :
    as.mapM f = as.mapM g := by
  induction as with
  | nil => rfl
  | cons a as ih =>
    rw [List.mapM_cons, List.mapM_cons, h a (.head _), ih fun b hb => h b (.tail _ hb)]

theorem mapM_map (f : β → m γ) (g : α → β) (as : List α) :
    (as.map g).mapM f = as.mapM fun a => f (g a) := by
  induction as with
  | nil => rfl
  | cons a as ih => rw [List.map_cons, List.mapM_cons, List.mapM_cons, ih]

/-! ## Choosing -/

private theorem filterAuxM_eq (p : α → m Bool) :
    ∀ as done : List α, List.filterAuxM p as done =
      (fun kept => kept.reverse ++ done) <$> as.filterM p
  | [], done => by simp [List.filterAuxM, List.filterM]
  | a :: as, done => by
    have hd := fun b => filterAuxM_eq p as (cond b (a :: done) done)
    have hn := fun b => filterAuxM_eq p as (cond b [a] [])
    simp only [List.filterM, List.filterAuxM] at hd hn ⊢
    simp only [map_eq_pure_bind, bind_assoc, pure_bind, hd, hn]
    congr 1
    funext b
    cases b <;> simp

theorem mapM_map_eq (g : β → γ) (f : α → m β) (as : List α) :
    (as.mapM fun a => g <$> f a) = List.map g <$> as.mapM f := by
  induction as with
  | nil => simp
  | cons a as ih =>
    rw [List.mapM_cons, List.mapM_cons, ih]
    simp only [map_eq_pure_bind, bind_assoc, pure_bind, List.map_cons]

theorem filterM_nil (p : α → m Bool) : ([] : List α).filterM p = pure [] := by
  simp [List.filterM, List.filterAuxM]

theorem filterM_cons (p : α → m Bool) (a : α) (as : List α) :
    (a :: as).filterM p = (do
      let keep ← p a
      let kept ← as.filterM p
      pure (if keep then a :: kept else kept)) := by
  have hn := fun b => filterAuxM_eq p as (cond b [a] [])
  simp only [List.filterM, List.filterAuxM] at hn ⊢
  simp only [map_eq_pure_bind, bind_assoc, pure_bind, hn]
  congr 1
  funext b
  cases b <;> simp

theorem filterM_append (p : α → m Bool) (as as' : List α) :
    (as ++ as').filterM p = (do
      let kept ← as.filterM p
      let kept' ← as'.filterM p
      pure (kept ++ kept')) := by
  induction as with
  | nil => simp [filterM_nil]
  | cons a as ih =>
    rw [List.cons_append, filterM_cons, filterM_cons, ih]
    simp only [bind_assoc, pure_bind]
    congr 1
    funext keep
    cases keep <;> simp

theorem filterM_map (p : β → m Bool) (f : α → β) (as : List α) :
    (as.map f).filterM p = (List.map f) <$> as.filterM fun a => p (f a) := by
  induction as with
  | nil => simp [filterM_nil]
  | cons a as ih =>
    rw [List.map_cons, filterM_cons, filterM_cons, ih]
    simp only [map_eq_pure_bind, bind_assoc, pure_bind]
    congr 1
    funext keep
    cases keep <;> simp

theorem filterM_congr {p q : α → m Bool} {as : List α} (h : ∀ a ∈ as, p a = q a) :
    as.filterM p = as.filterM q := by
  induction as with
  | nil => rw [filterM_nil, filterM_nil]
  | cons a as ih =>
    rw [filterM_cons, filterM_cons, h a (.head _), ih fun b hb => h b (.tail _ hb)]

theorem filterM_pure (p : α → Bool) (as : List α) :
    (as.filterM fun a => (pure (p a) : m Bool)) = pure (as.filter p) := by
  induction as with
  | nil => rw [filterM_nil]; rfl
  | cons a as ih =>
    rw [filterM_cons, ih, pure_bind, pure_bind, List.filter_cons]

/-- What is kept of a list is a part of it. -/
theorem sublist_of_filterM_eq_ok {p : α → Except ε Bool} :
    ∀ {as bs : List α}, as.filterM p = .ok bs → bs.Sublist as
  | [], bs, h => by
    rw [filterM_nil] at h
    cases h
    exact .slnil
  | a :: as, bs, h => by
    rw [filterM_cons] at h
    obtain ⟨keep, -, h⟩ := bind_eq_ok.1 h
    obtain ⟨rest, hr, h⟩ := bind_eq_ok.1 h
    have ih := sublist_of_filterM_eq_ok hr
    cases h
    split
    · exact ih.cons_cons a
    · exact ih.cons a

/-- What a walk over lists keeps of them all, put together. -/
theorem mapM_filterM_flatten (p : β → m Bool) (f : α → List β) (as : List α) :
    List.flatten <$> as.mapM (fun a => (f a).filterM p) = (as.flatMap f).filterM p := by
  induction as with
  | nil => simp [filterM_nil]
  | cons a as ih =>
    rw [List.flatMap_cons, filterM_append, ← ih, List.mapM_cons]
    simp only [map_eq_pure_bind, bind_assoc, pure_bind, List.flatten_cons]

/-! ## Results up to errors of a kind -/

/-- Whether a result is a value, or else an error of a kind. -/
inductive Yields (E : ε → Prop) (x : Except ε α) (a : α) : Prop
  | ok (h : x = .ok a)
  | error {e : ε} (he : E e) (h : x = .error e)

/-- Where there are no errors of the kind, the value is returned. -/
theorem yields_false_iff {x : Except ε α} {a : α} : Yields (fun _ => False) x a ↔ x = .ok a := by
  constructor
  · rintro (h | ⟨he, -⟩)
    · exact h
    · exact he.elim
  · exact .ok

theorem Yields.bind {E : ε → Prop} {x : Except ε α} {f : α → Except ε β} {a : α} {b : β} (hx : Yields E x a)
    (hf : Yields E (f a) b) : Yields E (x >>= f) b := by
  cases hx with
  | ok h =>
    rw [h]
    exact hf
  | error he h =>
    rw [h]
    exact .error he rfl

theorem Yields.map {E : ε → Prop} {x : Except ε α} {a : α} (hx : Yields E x a) (f : α → β) :
    Yields E (f <$> x) (f a) := by
  rw [map_eq_pure_bind]
  exact hx.bind (.ok rfl)

theorem yields_filterM {E : ε → Prop} {p : α → Except ε Bool} {q : α → Bool} :
    ∀ {as : List α}, (∀ a ∈ as, Yields E (p a) (q a)) → Yields E (as.filterM p) (as.filter q)
  | [], _ => .ok (filterM_nil p)
  | a :: as, h => by
    rw [filterM_cons, List.filter_cons]
    exact (h a (.head _)).bind ((yields_filterM fun b hb => h b (.tail _ hb)).bind (.ok rfl))

end Rowbase
