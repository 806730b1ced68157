import Rowbase.Language.Reader.Statement
import Rowbase.Proofs.Walks

/-! # What readers make of tokens

A reader is known by what it makes of the tokens that it is given: one lemma for each of the readers that others
are put together from. -/
namespace Rowbase.Language.Reader

variable {α β : Type} {r : Reader α} {f : α → Reader β} {ts rest : List Token} {t : Token} {a : α}

@[simp] theorem ok_bind {ε : Type} (a : α) (f : α → Except ε β) : (Except.ok a >>= f) = f a := rfl

@[simp] theorem error_bind {ε : Type} (e : ε) (f : α → Except ε β) : (Except.error e >>= f) = .error e := rfl

@[simp] theorem run_pure (a : α) (ts : List Token) : (pure a : Reader α).run ts = .ok (a, ts) := rfl

@[simp] theorem run_bind (r : Reader α) (f : α → Reader β) (ts : List Token) :
    (r >>= f).run ts = r.run ts >>= fun p => (f p.1).run p.2 := by
  change Except.map _ (Reader.bind r f ts) = Except.map _ (r ts) >>= _
  rw [Reader.bind]
  cases r ts with
  | error e => rfl
  | ok p =>
    obtain ⟨a, rest, h⟩ := p
    dsimp only
    change _ = Except.map _ (f a rest)
    cases f a rest <;> rfl

/-- A reader leaves no more tokens than it was given. -/
theorem length_of_run (h : r.run ts = .ok (a, rest)) : rest.length ≤ ts.length := by
  rw [run] at h
  cases hr : r ts with
  | error e =>
    rw [hr] at h
    cases h
  | ok p =>
    rw [hr] at h
    cases h
    exact p.2.2

@[simp] theorem run_map (g : α → β) (r : Reader α) (ts : List Token) :
    (g <$> r).run ts = r.run ts >>= fun p => .ok (g p.1, p.2) := run_bind r (fun a => pure (g a)) ts

@[simp] theorem run_fail (expected : String) (ts : List Token) :
    (fail expected : Reader α).run ts = .error (unexpected expected ts) := rfl

@[simp] theorem run_peek (ts : List Token) : peek.run ts = .ok (ts.head?, ts) := rfl

@[simp] theorem run_skip (ts : List Token) : skip.run ts = .ok ((), ts.tail) := rfl

@[simp] theorem run_accept_nil (t : Token) : (accept t).run [] = .ok (false, []) := rfl

@[simp] theorem run_accept_cons (t t' : Token) (ts : List Token) :
    (accept t).run (t' :: ts) = .ok (if t' = t then (true, ts) else (false, t' :: ts)) := by
  rw [run, accept]
  split <;> rfl

theorem run_expect_eq_ok : (expect t).run ts = .ok ((), rest) ↔ ts = t :: rest := by
  cases ts with
  | nil => simp [expect]
  | cons t' ts => by_cases h : t' = t <;> simp [expect, h]

@[simp] theorem run_expect (t : Token) (ts : List Token) : (expect t).run (t :: ts) = .ok ((), ts) :=
  run_expect_eq_ok.2 rfl

@[simp] theorem run_keyword (k : Keyword) (ts : List Token) : (keyword k).run (.keyword k :: ts) = .ok ((), ts) :=
  run_expect _ ts

@[simp] theorem run_name (s : String) (ts : List Token) : name.run (.name s :: ts) = .ok (s, ts) := by
  simp [name]

@[simp] theorem run_integer (n : Int) (ts : List Token) : integer.run (.integer n :: ts) = .ok (n, ts) := by
  simp [integer]

theorem run_name_eq_ok {s : String} : name.run ts = .ok (s, rest) ↔ ts = .name s :: rest := by
  constructor
  · intro h
    cases ts with
    | nil => simp [name] at h
    | cons t ts =>
      cases t <;> simp [name] at h
      rw [h.1, h.2]
  · rintro rfl
    exact run_name s rest

theorem run_integer_eq_ok {n : Int} : integer.run ts = .ok (n, rest) ↔ ts = .integer n :: rest := by
  constructor
  · intro h
    cases ts with
    | nil => simp [integer] at h
    | cons t ts =>
      cases t <;> simp [integer] at h
      rw [h.1, h.2]
  · rintro rfl
    exact run_integer n rest

@[simp] theorem run_parenthesized (r : Reader α) (ts : List Token) : (parenthesized r).run (.leftParen :: ts) =
    r.run ts >>= fun p => (expect .rightParen).run p.2 >>= fun q => .ok (p.1, q.2) := by
  simp [parenthesized]

/-! ### Readers that are given as functions

They are written with their tokens because they call themselves, and simplification does not see that they are
readers. -/

@[simp] theorem run_bind_fun (r : (ts : List Token) → Except SyntaxError (α × Rest ts)) (f : α → Reader β)
    (ts : List Token) : (Bind.bind (r : Reader α) f : Reader β).run ts = run r ts >>= fun p => (f p.1).run p.2 :=
  run_bind r f ts

@[simp] theorem run_parenthesized_fun (r : (ts : List Token) → Except SyntaxError (α × Rest ts)) (ts : List Token) :
    (parenthesized r).run (.leftParen :: ts) =
      run r ts >>= fun p => (expect .rightParen).run p.2 >>= fun q => .ok (p.1, q.2) :=
  run_parenthesized r ts

/-! ## Lists -/

/-- Lists of tokens with commas between them. -/
def commaTokens : List (List Token) → List Token
  | [] => []
  | [ts] => ts
  | ts :: rest => ts ++ .comma :: commaTokens rest

/-- A list is read item by item, as long as commas follow. -/
theorem run_separated (item : Reader α) (ts : List Token) :
    run (separated item) ts = item.run ts >>= fun p =>
      match p.2 with
      | .comma :: rest => run (separated item) rest >>= fun q => .ok (p.1 :: q.1, q.2)
      | rest => .ok ([p.1], rest) := by
  change Except.map _ (separated item ts) = Except.map _ (item ts) >>= _
  rw [separated]
  cases item ts with
  | error e => rfl
  | ok p =>
    obtain ⟨a, rest, h⟩ := p
    cases rest with
    | nil => rfl
    | cons t rest =>
      cases t with
      | comma =>
        dsimp only
        change _ = Except.map _ (separated item rest) >>= _
        cases separated item rest <;> rfl
      | _ => rfl

/-- Items with commas between them are read back, if each is where a comma or what comes last follows. -/
theorem run_separated_tokens {item : Reader α} {tokens : α → List Token} (Stops : List Token → Prop)
    (hcomma : ∀ ts, Stops (.comma :: ts)) {rest : List Token} (hrest : Stops rest)
    (hlast : rest.head? ≠ some .comma) :
    ∀ {as : List α}, as ≠ [] →
      (∀ a ∈ as, ∀ rest, Stops rest → item.run (tokens a ++ rest) = .ok (a, rest)) →
      run (separated item) (commaTokens (as.map tokens) ++ rest) = .ok (as, rest)
  | [], hne, _ => absurd rfl hne
  | [a], _, hitem => by
    rw [List.map_singleton, commaTokens, run_separated, hitem a (.head _) rest hrest, ok_bind]
    cases rest with
    | nil => rfl
    | cons t rest =>
      cases t with
      | comma => exact absurd rfl hlast
      | _ => rfl
  | a :: b :: as, _, hitem => by
    have hothers := run_separated_tokens Stops hcomma hrest hlast (List.cons_ne_nil b as)
      fun a' hm => hitem a' (.tail _ hm)
    rw [List.map_cons, List.map_cons, commaTokens, List.append_assoc, List.cons_append, run_separated,
      hitem a (.head _) _ (hcomma _), ok_bind]
    · dsimp only
      rw [← List.map_cons, hothers, ok_bind]
    · exact List.cons_ne_nil _ _

/-! ## What is read has a property -/

/-- Whether a reader makes only things with a property of tokens that all have one, and leaves tokens that have
it. -/
def Gives (Q : Token → Prop) (r : Reader α) (P : α → Prop) : Prop :=
  ∀ ⦃ts a rest⦄, (∀ t ∈ ts, Q t) → r.run ts = .ok (a, rest) → P a ∧ ∀ t ∈ rest, Q t

section
variable {Q : Token → Prop} {P P' : α → Prop} {R : β → Prop}

theorem Gives.mono (h : Gives Q r P) (hp : ∀ a, P a → P' a) : Gives Q r P' :=
  fun _ _ _ hts hx => ⟨hp _ (h hts hx).1, (h hts hx).2⟩

theorem gives_pure (h : P a) : Gives Q (pure a) P := by
  intro ts a' rest hts hx
  cases hx
  exact ⟨h, hts⟩

theorem gives_fail (expected : String) : Gives Q (fail expected) P := by
  intro ts a rest hts hx
  cases hx

theorem Gives.bind (h : Gives Q r P) (hf : ∀ a, P a → Gives Q (f a) R) : Gives Q (r >>= f) R := by
  intro ts b rest hts hx
  rw [run_bind] at hx
  obtain ⟨⟨a, mid⟩, ha, hb⟩ := bind_eq_ok.1 hx
  obtain ⟨hp, hmid⟩ := h hts ha
  exact hf a hp hmid hb

theorem Gives.map {g : α → β} (h : Gives Q r P) (hg : ∀ a, P a → R (g a)) : Gives Q (g <$> r) R :=
  h.bind fun a hp => gives_pure (hg a hp)

theorem gives_peek : Gives Q peek fun next => ∀ t ∈ next, Q t := by
  intro ts next rest hts hx
  cases hx
  exact ⟨fun t ht => hts t (List.mem_of_mem_head? ht), hts⟩

theorem gives_skip : Gives Q skip fun _ => True := by
  intro ts next rest hts hx
  cases hx
  exact ⟨trivial, fun t ht => hts t (List.mem_of_mem_tail ht)⟩

theorem gives_accept (t : Token) : Gives Q (accept t) fun _ => True := by
  intro ts b rest hts hx
  cases ts with
  | nil =>
    cases hx
    exact ⟨trivial, hts⟩
  | cons t' ts =>
    rw [run_accept_cons] at hx
    split at hx
    · cases hx
      exact ⟨trivial, fun t ht => hts t (.tail _ ht)⟩
    · cases hx
      exact ⟨trivial, hts⟩

theorem gives_expect (t : Token) : Gives Q (expect t) fun _ => True := by
  intro ts u rest hts hx
  cases run_expect_eq_ok.1 hx
  exact ⟨trivial, fun t ht => hts t (.tail _ ht)⟩

theorem gives_name : Gives Q name fun s => Q (.name s) := by
  intro ts s rest hts hx
  cases run_name_eq_ok.1 hx
  exact ⟨hts _ (.head _), fun t ht => hts t (.tail _ ht)⟩

theorem gives_integer : Gives Q integer fun n => Q (.integer n) := by
  intro ts n rest hts hx
  cases run_integer_eq_ok.1 hx
  exact ⟨hts _ (.head _), fun t ht => hts t (.tail _ ht)⟩

theorem Gives.parenthesized (h : Gives Q r P) : Gives Q (parenthesized r) P :=
  (gives_expect _).bind fun _ _ => h.bind fun _ hp => (gives_expect _).bind fun _ _ => gives_pure hp

/-- A list that is read is not empty. -/
theorem Gives.separated (h : Gives Q r P) : Gives Q (separated r) fun as => as ≠ [] ∧ ∀ a ∈ as, P a := by
  intro ts as rest hts hx
  induction hn : ts.length using Nat.strongRecOn generalizing ts as with
  | ind n ih =>
    rw [run_separated] at hx
    obtain ⟨⟨a, mid⟩, ha, hx⟩ := bind_eq_ok.1 hx
    obtain ⟨hp, hmid⟩ := h hts ha
    have hle : mid.length ≤ ts.length := length_of_run ha
    have hsingle : (.ok ([a], mid) : Except SyntaxError (List α × List Token)) = .ok (as, rest) →
        (as ≠ [] ∧ ∀ a ∈ as, P a) ∧ ∀ t ∈ rest, Q t := by
      intro he
      cases he
      exact ⟨⟨List.cons_ne_nil _ _, List.forall_mem_singleton.2 hp⟩, hmid⟩
    cases mid with
    | nil => exact hsingle hx
    | cons t mid =>
      cases t with
      | comma =>
        obtain ⟨⟨others, last⟩, hothers, hx⟩ := bind_eq_ok.1 hx
        cases hx
        obtain ⟨⟨-, hall⟩, hlast⟩ := ih mid.length (hn ▸ hle) (fun t ht => hmid t (.tail _ ht)) hothers rfl
        exact ⟨⟨List.cons_ne_nil _ _, List.forall_mem_cons.2 ⟨hp, hall⟩⟩, hlast⟩
      | _ => exact hsingle hx

end

end Rowbase.Language.Reader
