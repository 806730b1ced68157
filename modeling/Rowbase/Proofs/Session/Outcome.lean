import Rowbase.Proofs.Database.Finding
import Rowbase.Session.Basic

/-! # How statements end

A statement that is carried out on a database in order leaves one in order. It succeeds just if what it
needs is there; if it fails, the database cannot be told from the one before. -/
namespace Rowbase

open Act

/-- Whether an act succeeds just under a condition, and then does something to the database, and else
leaves it as it was. -/
inductive Settles (l : Location) (sites : Sites) (d : Database) {ε α : Type} (x : Act ε Catalog α)
    (c : Catalog) (fs : Files) (P : Prop) (Q : Database → Prop) : Prop where
  | refused {e : ε} {c' : Catalog} {fs' : Files} {d' : Database} (hp : ¬ P)
      (ha : x.apply c fs = (.error e, c', fs')) (hm : Models l sites c' fs' d') (hd : d'.Sound l sites)
      (hs : d.Same d')
  | done {a : α} {c' : Catalog} {fs' : Files} {d' : Database} (hp : P)
      (ha : x.apply c fs = (.ok a, c', fs')) (hm : Models l sites c' fs' d') (hd : d'.Sound l sites)
      (hq : Q d')

section
variable {l : Location} {sites : Sites} {d : Database} {ε ε' α β : Type} {x : Act ε Catalog α}
  {c c' : Catalog} {fs fs' : Files} {t i : String} {P P' : Prop} {Q Q' : Database → Prop}

theorem Database.Same.refl (d : Database) : d.Same d := ⟨.refl d, fun _ => rfl⟩

theorem Settles.mono (h : Settles l sites d x c fs P Q) (hp : P ↔ P') (hq : ∀ d', P → Q d' → Q' d') :
    Settles l sites d x c fs P' Q' := by
  cases h with
  | refused hn ha hm hd hs => exact .refused (fun h' => hn (hp.2 h')) ha hm hd hs
  | done hp' ha hm hd h' => exact .done (hp.1 hp') ha hm hd (hq _ hp' h')

theorem settles_throw (hp : ¬ P) (h : Models l sites c fs d) (hd : d.Sound l sites) (e : ε) :
    Settles l sites d (throw e : Act ε Catalog α) c fs P Q :=
  .refused hp rfl h hd (.refl d)

theorem settles_pure (hp : P) (hq : Q d) (h : Models l sites c fs d) (hd : d.Sound l sites) (a : α) :
    Settles l sites d (pure a : Act ε Catalog α) c fs P Q :=
  .done hp rfl h hd hq

/-- An act settles if what is left to do of it does. -/
theorem Settles.of_apply {y : Act ε Catalog α} (he : x.apply c fs = y.apply c' fs')
    (h : Settles l sites d y c' fs' P Q) : Settles l sites d x c fs P Q := by
  cases h with
  | refused hp ha hm hd hs => exact .refused hp (he.trans ha) hm hd hs
  | done hp ha hm hd hq => exact .done hp (he.trans ha) hm hd hq

/-- An act that goes on from what a look returned settles if it does from there. -/
theorem Looks.settles_bind {f : α → Act ε Catalog β} (hx : Looks l sites d x) (h : Models l sites c fs d)
    (hd : d.Sound l sites) (herror : ∀ e, x.value c fs = .error e → ¬ P)
    (hok : ∀ a c', x.value c fs = .ok a → Models l sites c' fs d → Settles l sites d (f a) c' fs P Q) :
    Settles l sites d (x >>= f) c fs P Q := by
  obtain ⟨c', ha, h'⟩ := hx.apply h
  cases hv : x.value c fs with
  | error e =>
    rw [hv] at ha
    exact .refused (herror e hv) (apply_bind_error ha f) h' hd (.refl d)
  | ok a =>
    rw [hv] at ha
    exact (hok a c' hv h').of_apply (apply_bind_ok ha f)

/-- A look alone settles, and leaves the database as it is. -/
theorem Looks.settles (hx : Looks l sites d x) (h : Models l sites c fs d) (hd : d.Sound l sites) :
    Settles l sites d x c fs (∃ a, x.value c fs = .ok a) (d.Same ·) := by
  obtain ⟨c', ha, h'⟩ := hx.apply h
  cases hv : x.value c fs with
  | error e =>
    rw [hv] at ha
    exact .refused (fun ⟨a, hc⟩ => nomatch hc) ha h' hd (.refl d)
  | ok a =>
    rw [hv] at ha
    exact .done ⟨a, rfl⟩ ha h' hd (.refl d)

/-- What is returned in the end does not matter. -/
theorem Settles.bind_pure (h : Settles l sites d x c fs P Q) (f : α → β) :
    Settles l sites d (x >>= fun a => pure (f a)) c fs P Q := by
  cases h with
  | refused hp ha hm hd hs => exact .refused hp (apply_bind_error ha _) hm hd hs
  | done hp ha hm hd hq => exact .done hp (apply_bind_ok ha _) hm hd hq

theorem Settles.adapt (h : Settles l sites d x c fs P Q) (g : ε → ε') :
    Settles l sites d (x.adapt g) c fs P Q := by
  cases h with
  | refused hp ha hm hd hs => exact .refused hp (by rw [apply_adapt, ha]; rfl) hm hd hs
  | done hp ha hm hd hq => exact .done hp (by rw [apply_adapt, ha]; rfl) hm hd hq

/-- Whether an act does not fail. -/
def Act.Succeeds {ε σ α : Type} (x : Act ε σ α) (s : σ) (fs : Files) : Prop :=
  ∃ a s' fs', x.apply s fs = (.ok a, s', fs')

/-! ## What is checked first -/

theorem value_adapt_ok {x : Act ε Catalog α} {a : α} (hv : x.value c fs = .ok a) (g : ε → ε') :
    (x.adapt g).value c fs = .ok a := by
  rw [value_adapt, hv]
  rfl

theorem looks_checkWritable (t : String) : Looks l sites d (Catalog.checkWritable t) := by
  rw [Catalog.checkWritable]
  split
  · exact looks_throw _
  · exact looks_pure _

theorem value_checkWritable_ok (h : (Catalog.checkWritable t).value c fs = .ok ()) : t ∉ Schema.names := by
  intro hn
  rw [Catalog.checkWritable, if_pos hn] at h
  cases h

theorem looks_checkListed (t : String) : Looks l sites d (Catalog.checkListed t) :=
  ((looks_tableExists t).adapt _).bind fun exists? => by
    split
    · exact looks_pure _
    · exact looks_throw _

theorem value_checkListed (h : Models l sites c fs d) (t : String) :
    (Catalog.checkListed t).value c fs =
      if d.tableHandles t = [] then .error (.unknownTable t) else .ok () := by
  have hx := ((looks_tableExists t : Looks l sites d _).adapt Refusal.storage).reads.value_bind
    (f := fun exists? => if exists? = true then pure () else throw (.unknownTable t)) (fun exists? => by
      split
      · exact reads_pure _
      · exact reads_throw _) c fs
  refine hx.trans ?_
  rw [value_adapt_ok (value_tableExists h t)]
  cases hl : d.tableHandles t <;> rfl

/-- A table that may be written and is listed is there. -/
theorem Database.Regular.exists_table (hd : d.Regular l sites) (hn : t ∉ Schema.names)
    (hl : d.tableHandles t ≠ []) : ∃ ct, d.table t = some ct :=
  Option.ne_none_iff_exists'.1 (((hd.listed t).1 hl).resolve_left hn)

/-- A statement that writes to a table needs one that is not the catalog's own. -/
theorem settles_checked {y : Act Refusal Catalog β} (h : Models l sites c fs d) (hd : d.Sound l sites)
    (hp : P → d.table t ≠ none)
    (hy : ∀ ct c', d.table t = some ct → Models l sites c' fs d → Settles l sites d y c' fs P Q) :
    Settles l sites d (do
      Catalog.checkWritable t
      Catalog.checkListed t
      y) c fs P Q := by
  refine (looks_checkWritable t).settles_bind h hd (fun e he hP => ?_) fun _ c₁ hw h₁ => ?_
  · have hn : t ∈ Schema.names := by
      by_contra hn
      rw [Catalog.checkWritable, if_neg hn] at he
      cases he
    exact hp hP (hd.regular.own t hn)
  · have hn := value_checkWritable_ok hw
    refine (looks_checkListed t).settles_bind h₁ hd (fun e he hP => ?_) fun _ c₂ hl h₂ => ?_
    · rw [value_checkListed h₁] at he
      split at he
      · rename_i hnil
        exact (hd.regular.listed t).2 (.inr (hp hP)) hnil
      · cases he
    · rw [value_checkListed h₁] at hl
      split at hl
      · cases hl
      · rename_i hne
        obtain ⟨ct, hc⟩ := hd.regular.exists_table hn hne
        exact hy ct c₂ hc h₂

end

end Rowbase
