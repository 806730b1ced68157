import Rowbase.Proofs.Acts

/-! # Acts in lockstep

Two things may look alike to an act though they are not the same: done on either, with the same files, it returns the
same and leaves the same files, and the two things look alike again. There is one rule for each way in which acts are
put together, with what relates the two things before and after as parameters. -/
namespace Rowbase.Act

variable {ε ε' σ α β : Type} {P P' : σ → σ → Files → Prop}

/-- Whether an act returns the same and leaves the same files on any two things that are related, and leaves them
related as what it returned says. -/
def Lockstep (P : σ → σ → Files → Prop) (x : Act ε σ α) (Q : Except ε α → σ → σ → Files → Prop) : Prop :=
  ∀ s t fs, P s t fs → ∃ res s' t' fs', x.apply s fs = (res, s', fs') ∧ x.apply t fs = (res, t', fs') ∧
    Q res s' t' fs'

theorem lockstep_pure (a : α) : Lockstep P (pure a : Act ε σ α) fun _ => P := fun s t fs h =>
  ⟨.ok a, s, t, fs, rfl, rfl, h⟩

theorem lockstep_result (r : Except ε α) : Lockstep P (result r : Act ε σ α) fun _ => P := fun s t fs h =>
  ⟨r, s, t, fs, rfl, rfl, h⟩

theorem lockstep_throw (e : ε) : Lockstep P (throw e : Act ε σ α) fun _ => P := fun s t fs h =>
  ⟨.error e, s, t, fs, rfl, rfl, h⟩

/-- On one and the same thing an act does the same. -/
theorem lockstep_same (x : Act ε σ α) : Lockstep (fun s t _ => t = s) x fun _ s t _ => t = s := by
  rintro s _ fs rfl
  exact ⟨_, _, _, _, rfl, rfl, rfl⟩

theorem lockstep_look {f : σ → Files → Except ε α} (hf : ∀ s t fs, P s t fs → f s fs = f t fs) :
    Lockstep P (look f) fun _ => P := fun s t fs h =>
  ⟨f s fs, s, t, fs, rfl, congrArg (·, t, fs) (hf s t fs h).symm, h⟩

theorem lockstep_update {f : σ → σ} {Q : σ → σ → Files → Prop} (hf : ∀ s t fs, P s t fs → Q (f s) (f t) fs) :
    Lockstep P (update f : Act ε σ Unit) fun _ => Q := fun s t fs h =>
  ⟨.ok (), f s, f t, fs, rfl, rfl, hf s t fs h⟩

/-- A change that fails alike of two related things, or returns the same and leaves them related. -/
theorem lockstep_change {f : σ → Files → Except ε (α × σ × Files)} {Q : Except ε α → σ → σ → Files → Prop}
    (he : ∀ {e s t fs}, P s t fs → Q (.error e) s t fs)
    (hf : ∀ s t fs, P s t fs → (∃ e, f s fs = .error e ∧ f t fs = .error e) ∨
      ∃ a s' t' fs', f s fs = .ok (a, s', fs') ∧ f t fs = .ok (a, t', fs') ∧ Q (.ok a) s' t' fs') :
    Lockstep P (change f) Q := by
  intro s t fs h
  rcases hf s t fs h with ⟨e, hs, ht⟩ | ⟨a, s', t', fs', hs, ht, hq⟩
  · exact ⟨.error e, s, t, fs, apply_change_error hs, apply_change_error ht, he h⟩
  · exact ⟨.ok a, s', t', fs', apply_change_ok hs, apply_change_ok ht, hq⟩

namespace Lockstep

variable {x : Act ε σ α} {Q R : Except ε α → σ → σ → Files → Prop}

theorem mono (h : Lockstep P x Q) (hP : ∀ {s t fs}, P' s t fs → P s t fs)
    (hQ : ∀ {res s t fs}, Q res s t fs → R res s t fs) : Lockstep P' x R := fun s t fs hp =>
  have ⟨res, s', t', fs', hs, ht, hq⟩ := h s t fs (hP hp)
  ⟨res, s', t', fs', hs, ht, hQ hq⟩

theorem bind {f : α → Act ε σ β} {R : Except ε β → σ → σ → Files → Prop} (hx : Lockstep P x Q)
    (hf : ∀ a, Lockstep (Q (.ok a)) (f a) R)
    (he : ∀ {e s t fs}, Q (.error e) s t fs → R (.error e) s t fs) : Lockstep P (x >>= f) R := by
  intro s t fs h
  obtain ⟨res, s₁, t₁, fs₁, hs, ht, hq⟩ := hx s t fs h
  cases res with
  | error e => exact ⟨.error e, s₁, t₁, fs₁, apply_bind_error hs f, apply_bind_error ht f, he hq⟩
  | ok a =>
    obtain ⟨res, s', t', fs', hs', ht', hr⟩ := hf a s₁ t₁ fs₁ hq
    exact ⟨res, s', t', fs', (apply_bind_ok hs f).trans hs', (apply_bind_ok ht f).trans ht', hr⟩

theorem adapt {f : ε → ε'} {R : Except ε' α → σ → σ → Files → Prop} (hx : Lockstep P x Q)
    (hr : ∀ {res s t fs}, Q res s t fs → R (res.mapError f) s t fs) : Lockstep P (x.adapt f) R := by
  intro s t fs h
  obtain ⟨res, s', t', fs', hs, ht, hq⟩ := hx s t fs h
  exact ⟨res.mapError f, s', t', fs', by rw [apply_adapt, hs], by rw [apply_adapt, ht], hr hq⟩

/-- What is not known of the thing but kept by the act is kept by it with other errors. -/
theorem adapt_keep {f : ε → ε'} {Q : σ → σ → Files → Prop} (hx : Lockstep P x fun _ => Q) :
    Lockstep P (x.adapt f) fun _ => Q := hx.adapt id

theorem discard (hx : Lockstep P x fun _ => P') : Lockstep P (discard x) fun _ => P' := by
  intro s t fs h
  obtain ⟨res, s', t', fs', hs, ht, hq⟩ := hx s t fs h
  exact ⟨res.map fun _ => (), s', t', fs', by rw [apply_discard, hs], by rw [apply_discard, ht], hq⟩

theorem caught (hx : Lockstep P x fun _ => P') : Lockstep P x.caught fun _ => P' := by
  intro s t fs h
  obtain ⟨res, s', t', fs', hs, ht, hq⟩ := hx s t fs h
  exact ⟨.ok res, s', t', fs', by rw [apply_caught, hs], by rw [apply_caught, ht], hq⟩

theorem onFailure {cleanup : Act ε σ Unit} (hx : Lockstep P x Q)
    (hc : ∀ e, Lockstep (Q (.error e)) cleanup fun _ => R (.error e))
    (hok : ∀ {a s t fs}, Q (.ok a) s t fs → R (.ok a) s t fs) : Lockstep P (x.onFailure cleanup) R := by
  intro s t fs h
  obtain ⟨res, s₁, t₁, fs₁, hs, ht, hq⟩ := hx s t fs h
  cases res with
  | ok a => exact ⟨.ok a, s₁, t₁, fs₁, apply_onFailure_ok hs cleanup, apply_onFailure_ok ht cleanup, hok hq⟩
  | error e =>
    obtain ⟨_, s', t', fs', hs', ht', hr⟩ := hc e s₁ t₁ fs₁ hq
    refine ⟨.error e, s', t', fs', ?_, ?_, hr⟩
    · rw [apply_onFailure_error hs, hs']
    · rw [apply_onFailure_error ht, ht']

/-- What an act makes of the first of two things is known beside what relates the two. -/
theorem also {R : Except ε α → σ → Files → Prop} (hx : Lockstep P x Q)
    (hR : ∀ s t fs, P s t fs → R (x.apply s fs).1 (x.apply s fs).2.1 (x.apply s fs).2.2) :
    Lockstep P x fun res s t fs => Q res s t fs ∧ R res s fs := by
  intro s t fs h
  obtain ⟨res, s', t', fs', hs, ht, hq⟩ := hx s t fs h
  have hr := hR s t fs h
  rw [hs] at hr
  exact ⟨res, s', t', fs', hs, ht, hq, hr⟩

end Lockstep

/-! ## An act for each item of a list -/

theorem lockstep_forM {f : α → Act ε σ PUnit} :
    ∀ {items : List α}, (∀ a ∈ items, Lockstep P (f a) fun _ => P) → Lockstep P (items.forM f) fun _ => P
  | [], _ => lockstep_pure _
  | a :: _, hf => by
    rw [List.forM_eq_forM, List.forM_cons]
    exact (hf a (.head _)).bind (fun _ => lockstep_forM fun b hb => hf b (.tail _ hb)) id

theorem lockstep_mapM {f : α → Act ε σ β} (hf : ∀ a, Lockstep P (f a) fun _ => P) :
    ∀ items : List α, Lockstep P (items.mapM f) fun _ => P
  | [] => by
    rw [List.mapM_nil]
    exact lockstep_pure _
  | a :: items => by
    rw [List.mapM_cons]
    exact (hf a).bind (fun _ => (lockstep_mapM hf items).bind (fun _ => lockstep_pure _) id) id

end Rowbase.Act
