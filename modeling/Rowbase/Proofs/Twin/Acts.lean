import Rowbase.Proofs.Acts

/-! # Acts abreast

Two acts are done side by side, each on a thing and files of its own. Where they return the same, or fail with the same
error, and what they leave is related as what they started from was, no answer can tell the two sides apart. There is one
rule for each way in which acts are put together. -/
namespace Rowbase

variable {ε ε' σ α α' β β' : Type}

/-! ## Results -/

/-- Whether two results are successes that are related, or the same failure. -/
inductive Agree (R : α → β → Prop) : Except ε α → Except ε β → Prop where
  | ok {a : α} {b : β} (h : R a b) : Agree R (.ok a) (.ok b)
  | error (e : ε) : Agree R (.error e) (.error e)

namespace Agree

variable {R S : α → β → Prop} {T : α' → β' → Prop} {x : Except ε α} {y : Except ε β}

theorem refl (x : Except ε α) : Agree (fun a b => b = a) x x := by
  cases x with
  | ok a => exact .ok rfl
  | error e => exact .error e

theorem mono (h : Agree R x y) (hRS : ∀ a b, R a b → S a b) : Agree S x y := by
  cases h with
  | ok h => exact .ok (hRS _ _ h)
  | error e => exact .error e

theorem bind {f : α → Except ε α'} {g : β → Except ε β'} (h : Agree R x y)
    (hf : ∀ a b, R a b → Agree T (f a) (g b)) : Agree T (x >>= f) (y >>= g) := by
  cases h with
  | ok h => exact hf _ _ h
  | error e => exact .error e

/-- What goes on from one and the same result agrees if it does from each success. -/
theorem bind_same {f : α → Except ε α'} {g : α → Except ε β'} (x : Except ε α)
    (hf : ∀ a, Agree T (f a) (g a)) : Agree T (x >>= f) (x >>= g) :=
  (refl x).bind fun a b h => by
    subst h
    exact hf b

theorem mapError {f : ε → ε'} (h : Agree R x y) : Agree R (x.mapError f) (y.mapError f) := by
  cases h with
  | ok h => exact .ok h
  | error e => exact .error (f e)

end Agree

/-! ## Acts -/

namespace Act

variable {P P' : σ → Files → σ → Files → Prop}

/-- Whether two acts return the same on any two things with files that are related, and leave them related as what they
returned says. -/
def Abreast (P : σ → Files → σ → Files → Prop) (x y : Act ε σ α)
    (Q : Except ε α → σ → Files → σ → Files → Prop) : Prop :=
  ∀ s fs t ft, P s fs t ft → ∃ res s' fs' t' ft', x.apply s fs = (res, s', fs') ∧ y.apply t ft = (res, t', ft') ∧
    Q res s' fs' t' ft'

theorem abreast_result (r : Except ε α) : Abreast P (result r) (result r) fun _ => P := fun s fs t ft h =>
  ⟨r, s, fs, t, ft, rfl, rfl, h⟩

theorem abreast_pure (a : α) : Abreast P (pure a : Act ε σ α) (pure a) fun _ => P := fun s fs t ft h =>
  ⟨.ok a, s, fs, t, ft, rfl, rfl, h⟩

theorem abreast_throw (e : ε) : Abreast P (throw e : Act ε σ α) (throw e) fun _ => P := fun s fs t ft h =>
  ⟨.error e, s, fs, t, ft, rfl, rfl, h⟩

namespace Abreast

variable {x y : Act ε σ α} {Q R : Except ε α → σ → Files → σ → Files → Prop}

theorem mono (h : Abreast P x y Q) (hP : ∀ {s fs t ft}, P' s fs t ft → P s fs t ft)
    (hQ : ∀ {res s fs t ft}, Q res s fs t ft → R res s fs t ft) : Abreast P' x y R := fun s fs t ft hp =>
  have ⟨res, s', fs', t', ft', hx, hy, hq⟩ := h s fs t ft (hP hp)
  ⟨res, s', fs', t', ft', hx, hy, hQ hq⟩

theorem bind {f g : α → Act ε σ β} {R : Except ε β → σ → Files → σ → Files → Prop} (h : Abreast P x y Q)
    (hf : ∀ a, Abreast (Q (.ok a)) (f a) (g a) R)
    (he : ∀ {e s fs t ft}, Q (.error e) s fs t ft → R (.error e) s fs t ft) : Abreast P (x >>= f) (y >>= g) R := by
  intro s fs t ft hp
  obtain ⟨res, s₁, fs₁, t₁, ft₁, hx, hy, hq⟩ := h s fs t ft hp
  cases res with
  | error e => exact ⟨.error e, s₁, fs₁, t₁, ft₁, apply_bind_error hx f, apply_bind_error hy g, he hq⟩
  | ok a =>
    obtain ⟨res, s', fs', t', ft', hx', hy', hr⟩ := hf a s₁ fs₁ t₁ ft₁ hq
    exact ⟨res, s', fs', t', ft', (apply_bind_ok hx f).trans hx', (apply_bind_ok hy g).trans hy', hr⟩

theorem adapt {f : ε → ε'} {R : Except ε' α → σ → Files → σ → Files → Prop} (h : Abreast P x y Q)
    (hr : ∀ {res s fs t ft}, Q res s fs t ft → R (res.mapError f) s fs t ft) :
    Abreast P (x.adapt f) (y.adapt f) R := by
  intro s fs t ft hp
  obtain ⟨res, s', fs', t', ft', hx, hy, hq⟩ := h s fs t ft hp
  exact ⟨res.mapError f, s', fs', t', ft', by rw [apply_adapt, hx], by rw [apply_adapt, hy], hr hq⟩

theorem adapt_keep (h : Abreast P x y fun _ => P') (f : ε → ε') :
    Abreast P (x.adapt f) (y.adapt f) fun _ => P' := h.adapt id

theorem discard (h : Abreast P x y fun _ => P') : Abreast P (discard x) (discard y) fun _ => P' := by
  intro s fs t ft hp
  obtain ⟨res, s', fs', t', ft', hx, hy, hq⟩ := h s fs t ft hp
  exact ⟨res.map fun _ => (), s', fs', t', ft', by rw [apply_discard, hx], by rw [apply_discard, hy], hq⟩

theorem caught (h : Abreast P x y fun _ => P') : Abreast P x.caught y.caught fun _ => P' := by
  intro s fs t ft hp
  obtain ⟨res, s', fs', t', ft', hx, hy, hq⟩ := h s fs t ft hp
  exact ⟨.ok res, s', fs', t', ft', by rw [apply_caught, hx], by rw [apply_caught, hy], hq⟩

theorem onFailure {cleanup cleanup' : Act ε σ Unit} (h : Abreast P x y Q)
    (hc : ∀ e, Abreast (Q (.error e)) cleanup cleanup' fun _ => R (.error e))
    (hok : ∀ {a s fs t ft}, Q (.ok a) s fs t ft → R (.ok a) s fs t ft) :
    Abreast P (x.onFailure cleanup) (y.onFailure cleanup') R := by
  intro s fs t ft hp
  obtain ⟨res, s₁, fs₁, t₁, ft₁, hx, hy, hq⟩ := h s fs t ft hp
  cases res with
  | ok a =>
    exact ⟨.ok a, s₁, fs₁, t₁, ft₁, apply_onFailure_ok hx cleanup, apply_onFailure_ok hy cleanup', hok hq⟩
  | error e =>
    obtain ⟨_, s', fs', t', ft', hx', hy', hr⟩ := hc e s₁ fs₁ t₁ ft₁ hq
    refine ⟨.error e, s', fs', t', ft', ?_, ?_, hr⟩
    · rw [apply_onFailure_error hx, hx']
    · rw [apply_onFailure_error hy, hy']

end Abreast

/-! ## An act for each item of a list -/

theorem abreast_forM {f g : α → Act ε σ PUnit} :
    ∀ {items : List α}, (∀ a ∈ items, Abreast P (f a) (g a) fun _ => P) →
      Abreast P (items.forM f) (items.forM g) fun _ => P
  | [], _ => abreast_pure _
  | a :: items, hf => by
    rw [List.forM_eq_forM, List.forM_cons, List.forM_cons]
    exact (hf a (.head _)).bind (fun _ => abreast_forM fun b hm => hf b (.tail _ hm)) id

theorem abreast_mapM {f g : α → Act ε σ β} (hf : ∀ a, Abreast P (f a) (g a) fun _ => P) :
    ∀ items : List α, Abreast P (items.mapM f) (items.mapM g) fun _ => P
  | [] => by
    rw [List.mapM_nil, List.mapM_nil]
    exact abreast_pure _
  | a :: items => by
    rw [List.mapM_cons, List.mapM_cons]
    exact (hf a).bind (fun _ => (abreast_mapM hf items).bind (fun _ => abreast_pure _) id) id

end Act

end Rowbase
