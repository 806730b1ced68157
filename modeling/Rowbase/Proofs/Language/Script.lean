import Rowbase.Proofs.Language.Stopping

/-! # Scripts, statement by statement

A script is cut at its semicolons. It can be read just if each piece is a statement by itself, and what is read are
these statements. -/
namespace Rowbase.Language

variable {ts seg us : List Token} {s : Statement} {ss : List Statement}

/-- The pieces of a script between its semicolons. Nothing has to stand behind the last of them, and without tokens
there are no pieces. -/
def segments (ts : List Token) : List (List Token) :=
  let pieces := ts.splitOn .semicolon
  if pieces.getLast? = some [] then pieces.dropLast else pieces

@[simp] theorem segments_nil : segments [] = [] := rfl

theorem segments_of_not_mem (h : .semicolon ∉ ts) (hne : ts ≠ []) : segments ts = [ts] := by
  unfold segments
  rw [List.splitOn_eq_singleton h]
  simp [hne]

theorem segments_append_semicolon (h : .semicolon ∉ seg) (us : List Token) :
    segments (seg ++ .semicolon :: us) = seg :: segments us := by
  have hcut : (seg ++ .semicolon :: us).splitOn .semicolon = seg.splitOn .semicolon ++ us.splitOn .semicolon := by
    unfold List.splitOn
    exact List.splitOnP_append_cons seg us (by simp)
  rw [List.splitOn_eq_singleton h, List.singleton_append] at hcut
  have hne : us.splitOn .semicolon ≠ [] := List.splitOn_ne_nil _ us
  unfold segments
  simp only [hcut, List.getLast?_cons_of_ne_nil hne, List.dropLast_cons_of_ne_nil hne]
  split <;> rfl

/-- Tokens are a statement just if reading one leaves nothing of them but a semicolon. -/
theorem Statement.ofTokens_eq_ok_iff : ofTokens ts = .ok s ↔
    ∃ rest, Reader.statement.run ts = .ok (s, rest) ∧ (rest = [] ∨ rest = [.semicolon]) := by
  rw [ofTokens_eq, bind_eq_ok]
  constructor
  · rintro ⟨⟨s', rest⟩, hrun, hlast⟩
    cases rest with
    | nil =>
      cases hlast
      exact ⟨[], hrun, .inl rfl⟩
    | cons t rest =>
      by_cases ht : t = .semicolon
      · cases rest with
        | nil =>
          simp only [ht] at hlast hrun
          cases hlast
          exact ⟨_, hrun, .inr rfl⟩
        | cons t' rest => simp [ht] at hlast
      · simp [ht] at hlast
  · rintro ⟨rest, hrun, rfl | rfl⟩
    · exact ⟨_, hrun, rfl⟩
    · exact ⟨_, hrun, rfl⟩

theorem Statement.ofTokens_of_not_mem (h : .semicolon ∉ ts) :
    ofTokens ts = .ok s ↔ Reader.statement.run ts = .ok (s, []) := by
  rw [ofTokens_eq_ok_iff]
  constructor
  · rintro ⟨rest, hrun, rfl | rfl⟩
    · exact hrun
    · exact absurd (.head _) (Reader.stops_statement.not_mem h hrun)
  · intro hrun
    exact ⟨[], hrun, .inl rfl⟩

namespace Script

/-- A script starts with a statement, and a semicolon stands between that and the rest. -/
theorem ofTokens_eq (ts : List Token) : ofTokens ts = if ts.isEmpty then .ok [] else
    Reader.statement.run ts >>= fun p =>
      match p.2 with
      | .semicolon :: rest => (ofTokens rest).map (p.1 :: ·)
      | rest => if rest.isEmpty then .ok [p.1] else .error (Reader.unexpected Token.semicolon.shown rest) := by
  rw [ofTokens, Reader.run]
  refine ite_congr rfl (fun _ => rfl) fun _ => ?_
  cases Reader.statement ts with
  | error e => rfl
  | ok p =>
    obtain ⟨s, rest, h⟩ := p
    cases rest with
    | nil => rfl
    | cons t rest => cases t <;> rfl

theorem ofTokens_nil : ofTokens [] = .ok [] := ofTokens_eq []

theorem ofTokens_eq_ok_iff (hne : ts ≠ []) : ofTokens ts = .ok ss ↔
    ∃ s rest, Reader.statement.run ts = .ok (s, rest) ∧
      ((rest = [] ∧ ss = [s]) ∨ ∃ us ss', rest = .semicolon :: us ∧ ofTokens us = .ok ss' ∧ ss = s :: ss') := by
  have hfull : ¬ ts.isEmpty = true := by simpa using hne
  rw [ofTokens_eq, if_neg hfull, bind_eq_ok]
  constructor
  · rintro ⟨⟨s, rest⟩, hrun, hlast⟩
    refine ⟨s, rest, hrun, ?_⟩
    cases rest with
    | nil =>
      cases hlast
      exact .inl ⟨rfl, rfl⟩
    | cons t us =>
      cases t with
      | semicolon =>
        obtain ⟨ss', hothers, rfl⟩ := map_eq_ok.1 hlast
        exact .inr ⟨us, ss', rfl, hothers, rfl⟩
      | _ => cases hlast
  · rintro ⟨s, rest, hrun, ⟨rfl, rfl⟩ | ⟨us, ss', rfl, hothers, rfl⟩⟩
    · exact ⟨_, hrun, rfl⟩
    · exact ⟨_, hrun, map_eq_ok.2 ⟨ss', hothers, rfl⟩⟩

theorem ofTokens_eq_nil_iff : ofTokens ts = .ok [] ↔ ts = [] := by
  constructor
  · intro h
    by_contra hne
    obtain ⟨s, rest, -, ⟨-, hss⟩ | ⟨us, ss', -, -, hss⟩⟩ := (ofTokens_eq_ok_iff hne).1 h
    · cases hss
    · cases hss
  · rintro rfl
    exact ofTokens_nil

/-- Just the tokens up to the first semicolon are read as the first statement. -/
theorem ofTokens_append_semicolon (h : .semicolon ∉ seg) : ofTokens (seg ++ .semicolon :: us) = .ok ss ↔
    ∃ s ss', Statement.ofTokens seg = .ok s ∧ ofTokens us = .ok ss' ∧ ss = s :: ss' := by
  rw [ofTokens_eq_ok_iff (by simp)]
  simp only [Statement.ofTokens_of_not_mem h, Reader.stops_statement.run_append_eq_ok h]
  constructor
  · rintro ⟨s, last, ⟨rest, hrun, hrest, rfl⟩, ⟨hlast, -⟩ | ⟨us', ss', hlast, hothers, rfl⟩⟩
    · simp at hlast
    · cases rest with
      | nil =>
        cases hlast
        exact ⟨s, ss', hrun, hothers, rfl⟩
      | cons t rest =>
        cases hlast
        exact absurd (.head _) hrest
  · rintro ⟨s, ss', hrun, hothers, rfl⟩
    exact ⟨s, .semicolon :: us, ⟨[], hrun, List.not_mem_nil, rfl⟩, .inr ⟨us, ss', rfl, hothers, rfl⟩⟩

/-- Tokens without a semicolon are the script of one statement. -/
theorem ofTokens_of_not_mem (h : .semicolon ∉ ts) (hne : ts ≠ []) :
    ofTokens ts = .ok ss ↔ ∃ s, Statement.ofTokens ts = .ok s ∧ ss = [s] := by
  rw [ofTokens_eq_ok_iff hne]
  simp only [Statement.ofTokens_of_not_mem h]
  constructor
  · rintro ⟨s, rest, hrun, ⟨rfl, rfl⟩ | ⟨us, ss', rfl, -, -⟩⟩
    · exact ⟨s, hrun, rfl⟩
    · exact absurd (.head _) (Reader.stops_statement.not_mem h hrun)
  · rintro ⟨s, hrun, rfl⟩
    exact ⟨s, [], hrun, .inl ⟨rfl, rfl⟩⟩

/-- A script is read as one statement for each of its pieces. By induction on the tokens, from semicolon to
semicolon. -/
theorem ofTokens_segments (ts : List Token) (ss : List Statement) :
    ofTokens ts = .ok ss ↔ List.Forall₂ (fun seg s => Statement.ofTokens seg = .ok s) (segments ts) ss := by
  induction hn : ts.length using Nat.strongRecOn generalizing ts ss with
  | ind n ih =>
    by_cases hm : .semicolon ∈ ts
    · obtain ⟨seg, us, rfl, hseg⟩ := List.eq_append_cons_of_mem hm
      have hlt : us.length < n := by
        rw [← hn, List.length_append, List.length_cons]
        omega
      rw [ofTokens_append_semicolon hseg, segments_append_semicolon hseg, List.forall₂_cons_left_iff]
      simp only [ih us.length hlt us _ rfl]
    · by_cases hne : ts = []
      · subst hne
        rw [ofTokens_nil, segments_nil, List.forall₂_nil_left_iff, Except.ok.injEq, eq_comm]
      · rw [ofTokens_of_not_mem hm hne, segments_of_not_mem hm hne, List.forall₂_cons_left_iff]
        simp only [List.forall₂_nil_left_iff, exists_and_left, exists_eq_left]

/-- Tokens are a statement just if they are the script of that statement alone. -/
theorem ofTokens_singleton (ts : List Token) (s : Statement) :
    Statement.ofTokens ts = .ok s ↔ ofTokens ts = .ok [s] := by
  by_cases hne : ts = []
  · subst hne
    rw [ofTokens_nil]
    constructor
    · intro h
      cases h
    · intro h
      cases h
  · rw [ofTokens_eq_ok_iff hne, Statement.ofTokens_eq_ok_iff]
    constructor
    · rintro ⟨rest, hrun, hrest | rfl⟩
      · exact ⟨s, rest, hrun, .inl ⟨hrest, rfl⟩⟩
      · exact ⟨s, _, hrun, .inr ⟨[], [], rfl, ofTokens_nil, rfl⟩⟩
    · rintro ⟨s', rest, hrun, ⟨hrest, hs⟩ | ⟨us, ss', hrest, hothers, hs⟩⟩
      · cases hs
        exact ⟨rest, hrun, .inl hrest⟩
      · cases hs
        cases ofTokens_eq_nil_iff.1 hothers
        exact ⟨rest, hrun, .inr hrest⟩

/-- A text is read as a script just if each piece between its semicolons is a statement by itself, and as a single
statement just if it is a script of one. -/
theorem ofText_segments {text : String} {ts : List Token} (h : Token.ofText text = .ok ts) :
    (∀ ss, ofText text = .ok ss ↔ List.Forall₂ (fun seg s => Statement.ofTokens seg = .ok s) (segments ts) ss) ∧
      ∀ s, Statement.ofText text = .ok s ↔ ofText text = .ok [s] := by
  unfold ofText Statement.ofText
  rw [h]
  exact ⟨ofTokens_segments ts, ofTokens_singleton ts⟩

theorem ofText_segments_two :
    Token.ofText "SHOW TABLES; DROP TABLE t;" = .ok [.keyword .SHOW, .keyword .TABLES, .semicolon, .keyword .DROP,
        .keyword .TABLE, .name "t", .semicolon] ∧
      ofText "SHOW TABLES; DROP TABLE t;" = .ok [.showTables, .dropTable "t"] := by
  have htokens := ok_of_toOption (show (Token.ofText "SHOW TABLES; DROP TABLE t;").toOption =
    some [.keyword .SHOW, .keyword .TABLES, .semicolon, .keyword .DROP, .keyword .TABLE, .name "t", .semicolon] by
      decide +kernel)
  refine ⟨htokens, ((ofText_segments htokens).1 _).2 ?_⟩
  have hsegments : segments [.keyword .SHOW, .keyword .TABLES, .semicolon, .keyword .DROP, .keyword .TABLE, .name "t",
      .semicolon] = [[.keyword .SHOW, .keyword .TABLES], [.keyword .DROP, .keyword .TABLE, .name "t"]] := by decide
  rw [hsegments]
  exact .cons rfl (.cons rfl .nil)

end Script

end Rowbase.Language
