import Mathlib.Tactic.Common
import Rowbase.Files.Act

/-! # What acts return and leave

`x.apply s fs` is what the act `x` returns, done on the thing `s` and the files `fs`, with the thing and the
files that it leaves. There is one rule for each way in which acts are put together, so an act of many steps
is followed step by step and never opened. -/
namespace Rowbase.Act

variable {ε ε' σ τ α β : Type}

/-! ## Applying -/

@[simp] theorem apply_pure (a : α) (s : σ) (fs : Files) :
    (pure a : Act ε σ α).apply s fs = (.ok a, s, fs) := rfl

@[simp] theorem apply_throw (e : ε) (s : σ) (fs : Files) :
    (throw e : Act ε σ α).apply s fs = (.error e, s, fs) := rfl

theorem apply_bind (x : Act ε σ α) (f : α → Act ε σ β) (s : σ) (fs : Files) :
    (x >>= f).apply s fs = match x.apply s fs with
      | (.ok a, s', fs') => (f a).apply s' fs'
      | (.error e, s', fs') => (.error e, s', fs') := by
  change (x (s, fs) >>= fun t => ExceptT.bindCont f t.1 t.2 : Id _) = _
  dsimp only [apply]
  rcases x (s, fs) with ⟨_ | _, _, _⟩ <;> rfl

theorem apply_bind_ok {x : Act ε σ α} {s s' : σ} {fs fs' : Files} {a : α}
    (h : x.apply s fs = (.ok a, s', fs')) (f : α → Act ε σ β) :
    (x >>= f).apply s fs = (f a).apply s' fs' := by
  rw [apply_bind, h]

theorem apply_bind_error {x : Act ε σ α} {s s' : σ} {fs fs' : Files} {e : ε}
    (h : x.apply s fs = (.error e, s', fs')) (f : α → Act ε σ β) :
    (x >>= f).apply s fs = (.error e, s', fs') := by
  rw [apply_bind, h]

theorem apply_map (f : α → β) (x : Act ε σ α) (s : σ) (fs : Files) :
    (f <$> x).apply s fs = ((x.apply s fs).1.map f, (x.apply s fs).2) := by
  rw [← bind_pure_comp, apply_bind]
  rcases x.apply s fs with ⟨_ | _, _, _⟩ <;> rfl

@[simp] theorem apply_look (f : σ → Files → Except ε α) (s : σ) (fs : Files) :
    (look f).apply s fs = (f s fs, s, fs) := rfl

@[simp] theorem apply_result (r : Except ε α) (s : σ) (fs : Files) :
    (result r : Act ε σ α).apply s fs = (r, s, fs) := rfl

@[simp] theorem apply_thing (s : σ) (fs : Files) :
    (thing : Act ε σ σ).apply s fs = (.ok s, s, fs) := rfl

@[simp] theorem apply_update (f : σ → σ) (s : σ) (fs : Files) :
    (update f : Act ε σ Unit).apply s fs = (.ok (), f s, fs) := rfl

theorem apply_change (f : σ → Files → Except ε (α × σ × Files)) (s : σ) (fs : Files) :
    (change f).apply s fs = match f s fs with
      | .error e => (.error e, s, fs)
      | .ok (a, s', fs') => (.ok a, s', fs') := by
  dsimp only [change, apply]
  rcases f s fs with _ | ⟨_, _, _⟩ <;> rfl

theorem apply_change_ok {f : σ → Files → Except ε (α × σ × Files)} {s s' : σ} {fs fs' : Files} {a : α}
    (h : f s fs = .ok (a, s', fs')) : (change f).apply s fs = (.ok a, s', fs') := by
  rw [apply_change, h]

theorem apply_change_error {f : σ → Files → Except ε (α × σ × Files)} {s : σ} {fs : Files} {e : ε}
    (h : f s fs = .error e) : (change f).apply s fs = (.error e, s, fs) := by
  rw [apply_change, h]

@[simp] theorem apply_within (part : σ → τ) (put : τ → σ → σ) (x : Act ε τ α) (s : σ) (fs : Files) :
    (x.within part put).apply s fs =
      ((x.apply (part s) fs).1, put (x.apply (part s) fs).2.1 s, (x.apply (part s) fs).2.2) := rfl

@[simp] theorem apply_caught (x : Act ε σ α) (s : σ) (fs : Files) :
    x.caught.apply s fs = (.ok (x.apply s fs).1, (x.apply s fs).2) := rfl

@[simp] theorem apply_adapt (f : ε → ε') (x : Act ε σ α) (s : σ) (fs : Files) :
    (x.adapt f).apply s fs = ((x.apply s fs).1.mapError f, (x.apply s fs).2) := rfl

theorem apply_onFailure (x : Act ε σ α) (cleanup : Act ε σ Unit) (s : σ) (fs : Files) :
    (x.onFailure cleanup).apply s fs = match x.apply s fs with
      | (.error e, s', fs') => (.error e, (cleanup.apply s' fs').2)
      | (.ok a, s', fs') => (.ok a, s', fs') := by
  dsimp only [onFailure, apply]
  rcases x (s, fs) with ⟨_ | _, _, _⟩ <;> rfl

theorem apply_onFailure_ok {x : Act ε σ α} {s s' : σ} {fs fs' : Files} {a : α}
    (h : x.apply s fs = (.ok a, s', fs')) (cleanup : Act ε σ Unit) :
    (x.onFailure cleanup).apply s fs = (.ok a, s', fs') := by
  rw [apply_onFailure, h]

theorem apply_onFailure_error {x : Act ε σ α} {s s' : σ} {fs fs' : Files} {e : ε}
    (h : x.apply s fs = (.error e, s', fs')) (cleanup : Act ε σ Unit) :
    (x.onFailure cleanup).apply s fs = (.error e, (cleanup.apply s' fs').2) := by
  rw [apply_onFailure, h]

@[simp] theorem apply_discard (x : Act ε σ α) (s : σ) (fs : Files) :
    (discard x).apply s fs = ((x.apply s fs).1.map fun _ => (), (x.apply s fs).2) := by
  rw [← apply_map]
  rfl

/-! ## An act for each item of a list -/

/-- A walk whose steps fail with other errors fails with other errors. -/
theorem apply_forM_adapt (g : ε → ε') (f : α → Act ε σ PUnit) :
    ∀ (items : List α) (s : σ) (fs : Files),
      (items.forM fun item => (f item).adapt g).apply s fs = ((items.forM f).adapt g).apply s fs
  | [], _, _ => rfl
  | item :: items, s, fs => by
    rw [List.forM_eq_forM, List.forM_eq_forM, List.forM_cons, List.forM_cons, apply_bind, apply_adapt,
      apply_adapt, apply_bind]
    rcases (f item).apply s fs with ⟨_ | _, s', fs'⟩
    · rfl
    · exact apply_forM_adapt g f items s' fs'

/-- Acts on one and the same part are an act on it. -/
theorem within_bind (part : σ → τ) (put : τ → σ → σ) (hpart : ∀ r s, part (put r s) = r)
    (hput : ∀ r r' s, put r' (put r s) = put r' s) (x : Act ε τ α) (f : α → Act ε τ β) :
    (x.within part put >>= fun a => (f a).within part put) = (x >>= f).within part put := by
  funext state
  obtain ⟨s, fs⟩ := state
  change (x.within part put >>= fun a => (f a).within part put).apply s fs = ((x >>= f).within part put).apply s fs
  rw [apply_bind, apply_within, apply_within, apply_bind]
  rcases x.apply (part s) fs with ⟨_ | a, r, fs'⟩
  · rfl
  · simp only [apply_within, hpart, hput]

/-! ## What acts keep -/

variable {x : Act ε σ α} {P : σ → Files → Prop}

/-- Whether a condition that holds before an act holds after it, whether the act fails or not. -/
def Preserves (P : σ → Files → Prop) (x : Act ε σ α) : Prop :=
  ∀ s fs, P s fs → P (x.apply s fs).2.1 (x.apply s fs).2.2

theorem preserves_pure (a : α) : Preserves P (pure a : Act ε σ α) := fun _ _ h => h

theorem preserves_throw (e : ε) : Preserves P (throw e : Act ε σ α) := fun _ _ h => h

theorem preserves_result (r : Except ε α) : Preserves P (result r : Act ε σ α) := fun _ _ h => h

theorem Preserves.adapt {f : ε → ε'} (h : Preserves P x) : Preserves P (x.adapt f) := h

theorem Preserves.discard (hx : Preserves P x) : Preserves P (discard x) := by
  intro s fs h
  rw [apply_discard]
  exact hx s fs h

/-- Whether a condition holds after an act if another holds before it, whether the act fails or not. -/
def Brings (P Q : σ → Files → Prop) (x : Act ε σ α) : Prop :=
  ∀ s fs, P s fs → Q (x.apply s fs).2.1 (x.apply s fs).2.2

theorem Brings.bind {Q R : σ → Files → Prop} {f : α → Act ε σ β} (hx : Brings P Q x) (hf : ∀ a, Brings Q R (f a))
    (hQ : ∀ {s fs}, Q s fs → R s fs) : Brings P R (x >>= f) := by
  intro s fs h
  have h' := hx s fs h
  rw [apply_bind]
  rcases hr : x.apply s fs with ⟨_ | a, s', fs'⟩ <;> rw [hr] at h'
  · exact hQ h'
  · exact hf a s' fs' h'

theorem Preserves.bind {f : α → Act ε σ β} (hx : Preserves P x) (hf : ∀ a, Preserves P (f a)) :
    Preserves P (x >>= f) := Brings.bind hx hf id

theorem preserves_mapM {f : α → Act ε σ β} (hf : ∀ a, Preserves P (f a)) :
    ∀ items : List α, Preserves P (items.mapM f)
  | [] => by
    rw [List.mapM_nil]
    exact preserves_pure _
  | item :: items => by
    rw [List.mapM_cons]
    exact (hf item).bind fun _ => (preserves_mapM hf items).bind fun _ => preserves_pure _

theorem preserves_forM_of_mem {f : α → Act ε σ PUnit} :
    ∀ {items : List α}, (∀ a ∈ items, Preserves P (f a)) → Preserves P (items.forM f)
  | [], _ => preserves_pure _
  | item :: items, hf => by
    rw [List.forM_eq_forM, List.forM_cons]
    exact (hf item (.head _)).bind fun _ => preserves_forM_of_mem fun a hm => hf a (.tail _ hm)

theorem preserves_forM {f : α → Act ε σ PUnit} (hf : ∀ a, Preserves P (f a)) (items : List α) :
    Preserves P (items.forM f) := preserves_forM_of_mem fun a _ => hf a

end Rowbase.Act
