import SourceCheck.Proofs.Token.Closed

/-!
# Layout

Blanks and comments separate tokens and say nothing else. `Reads` says what the tokens of a text without problems are;
written with one space between each two, they are read as themselves.
-/

namespace SourceCheck

/-- A token without its place: its kind and its characters. -/
abbrev Lexeme := TokenKind × List Char

def Token.toLexeme (t : Token) : Lexeme :=
  (t.kind, t.lexeme.toList)

def endLexeme : Lexeme :=
  (.eof, [])

/-- A text without problems and its tokens. Blanks and comments leave none. -/
inductive Reads : Bool → List Char → List Lexeme → Prop where
  | nil {afterOperand} : Reads afterOperand [] []
  | blank {afterOperand c cs ts} :
    isBlank c = true →
    Reads afterOperand cs ts →
    Reads afterOperand (c :: cs) ts
  | comment {afterOperand c cs ts} :
    isBlank c = false →
    (Piece.scan afterOperand c cs).kind = none →
    (Piece.scan afterOperand c cs).badEscapes = [] →
    (Piece.scan afterOperand c cs).problem = none →
    Reads afterOperand (cs.drop (Piece.scan afterOperand c cs).extent) ts →
    Reads afterOperand (c :: cs) ts
  | token {afterOperand c cs k ts} :
    isBlank c = false →
    (Piece.scan afterOperand c cs).IsToken k →
    Reads k.endsOperand (cs.drop (Piece.scan afterOperand c cs).extent) ts →
    Reads afterOperand (c :: cs) ((k, c :: cs.take (Piece.scan afterOperand c cs).extent) :: ts)

lemma Reads.ofChars {afterOperand cs ts} (h : Reads afterOperand cs ts) (file place) :
    (Lexed.ofChars file place afterOperand cs).problems = [] ∧
      (Lexed.ofChars file place afterOperand cs).tokens.map Token.toLexeme = ts ++ [endLexeme] := by
  induction h generalizing place with
  | nil =>
    rw [Lexed.ofChars]
    exact ⟨rfl, rfl⟩
  | blank hc _ ih =>
    rw [Lexed.ofChars, if_pos hc]
    exact ih _
  | comment hc hkind hescapes hproblem _ ih =>
    rw [Lexed.ofChars, if_neg (by simp [hc])]
    simpa [hkind, hescapes, hproblem, Lexed.pieceReports] using ih _
  | token hc hk _ ih =>
    rw [Lexed.ofChars, if_neg (by simp [hc])]
    simpa [hk.kind, hk.badEscapes, hk.problem, Lexed.pieceReports, Token.toLexeme] using ih _

lemma eq_nil_of_pieceReports {file start stop text piece} (h : Lexed.pieceReports file start stop text piece = []) :
    piece.badEscapes = [] ∧ piece.problem = none := by
  simpa [Lexed.pieceReports] using h

lemma exists_reads {file place afterOperand cs}
    (h : (Lexed.ofChars file place afterOperand cs).problems = []) : ∃ ts, Reads afterOperand cs ts := by
  fun_induction Lexed.ofChars file place afterOperand cs with
  | case1 => exact ⟨[], .nil⟩
  | case2 place afterOperand c cs hc ih =>
    obtain ⟨ts, hts⟩ := ih h
    exact ⟨ts, .blank hc hts⟩
  | case3 place afterOperand c cs hc piece text stop after rest token ih =>
    obtain ⟨hpiece, hrest⟩ := List.append_eq_nil_iff.1 h
    obtain ⟨hescapes, hproblem⟩ := eq_nil_of_pieceReports hpiece
    obtain ⟨ts, hts⟩ := ih hrest
    have hc' : isBlank c = false := by simpa using hc
    cases hkind : piece.kind with
    | none =>
      have hafter : after = afterOperand := by simp [after, hkind]
      rw [hafter] at hts
      exact ⟨ts, .comment hc' hkind hescapes hproblem hts⟩
    | some k =>
      have hafter : after = k.endsOperand := by simp [after, hkind]
      rw [hafter] at hts
      exact ⟨_, .token hc' ⟨hkind, hescapes, hproblem⟩ hts⟩

lemma Reads.token_append {afterOperand c cs rest k ts} (hc : isBlank c = false)
    (hk : (Piece.scan afterOperand c cs).IsToken k)
    (hspaced : Spaced rest) (hrest : Reads k.endsOperand rest ts) :
    Reads afterOperand (c :: cs.take (Piece.scan afterOperand c cs).extent ++ rest)
      ((k, c :: cs.take (Piece.scan afterOperand c cs).extent) :: ts) := by
  obtain ⟨n, hn, hextent, hread⟩ := Piece.closed_scan hk
  rw [Nat.zero_add] at hextent
  have hscan := hread rest hspaced
  have hlength : (cs.take n).length = n := List.length_take_of_le hn
  rw [← hscan] at hk
  have htoken (h : Reads k.endsOperand ((cs.take n ++ rest).drop _) ts) := Reads.token hc hk h
  rw [hscan, hextent, List.drop_left' hlength, List.take_left' hlength] at htoken
  rw [hextent]
  exact htoken hrest

/-- Tokens are read again with one space between each two. An empty text may stand behind them. -/
lemma Reads.intercalate {afterOperand cs ts} (h : Reads afterOperand cs ts) {extra}
    (hextra : extra = [] ∨ extra = [[]]) : Reads afterOperand ([' '].intercalate (ts.map Prod.snd ++ extra)) ts := by
  induction h with
  | nil => obtain rfl | rfl := hextra <;> exact .nil
  | blank _ _ ih | comment _ _ _ _ _ ih => exact ih
  | @token afterOperand c cs k ts hc hk _ ih =>
    rw [List.map_cons, List.cons_append]
    cases hrest : ts.map Prod.snd ++ extra with
    | nil =>
      obtain ⟨rfl, -⟩ : ts = [] ∧ extra = [] := by simpa using hrest
      simpa using Reads.token_append hc hk spaced_nil .nil
    | cons t texts =>
      rw [hrest] at ih
      have hblank : Reads k.endsOperand (' ' :: [' '].intercalate (t :: texts)) ts :=
        .blank (by decide) ih
      simpa [List.intercalate] using Reads.token_append hc hk (spaced_cons _) hblank

lemma map_kind_lexeme_eq {ts us : List Token} (h : ts.map Token.toLexeme = us.map Token.toLexeme) :
    ts.map (fun t => (t.kind, t.lexeme)) = us.map fun t => (t.kind, t.lexeme) := by
  have hmap (l : List Token) : l.map (fun t => (t.kind, t.lexeme)) =
      (l.map Token.toLexeme).map fun t => (t.1, String.ofList t.2) := by
    simp [Token.toLexeme]
  rw [hmap, hmap, h]

/-- Layout between tokens is irrelevant: the texts of the tokens of a text without problems, with one space between
each two, are a text without problems and with the same tokens. The end mark may be among them or not. -/
theorem lex_intercalate_lexemes {source : String} {file : Nat} (h : (lex source file).problems = [])
    {ts : List Token} (hts : ts = (lex source file).tokens ∨ ts = (lex source file).tokens.dropLast) :
    (lex (" ".intercalate (ts.map (·.lexeme))) file).problems = [] ∧
      (lex (" ".intercalate (ts.map (·.lexeme))) file).tokens.map (fun t => (t.kind, t.lexeme)) =
        (lex source file).tokens.map fun t => (t.kind, t.lexeme) := by
  obtain ⟨lexemes, hreads⟩ := exists_reads h
  obtain ⟨-, hsource⟩ := hreads.ofChars file {}
  have htexts : ∃ extra, (extra = [] ∨ extra = [[]]) ∧
      (ts.map (·.lexeme)).map String.toList = lexemes.map Prod.snd ++ extra := by
    have hmap (l : List Token) : (l.map (·.lexeme)).map String.toList =
        (l.map Token.toLexeme).map Prod.snd := by
      simp [Token.toLexeme]
    obtain rfl | rfl := hts
    · exact ⟨[[]], .inr rfl, by rw [hmap, lex, hsource, List.map_append]; rfl⟩
    · refine ⟨[], .inl rfl, ?_⟩
      rw [hmap, List.map_dropLast, lex, hsource, List.dropLast_concat, List.append_nil]
  obtain ⟨extra, hextra, htexts⟩ := htexts
  have hagain := hreads.intercalate hextra
  rw [← htexts, show [' '] = " ".toList from rfl, ← String.toList_intercalate] at hagain
  obtain ⟨hproblems, htokens⟩ := hagain.ofChars file {}
  exact ⟨hproblems, map_kind_lexeme_eq (htokens.trans hsource.symm)⟩

/-- Comments, a point behind an operand and numbers that start or end with their point. -/
def pointedSource : String :=
  "f(.5)//x\n1.len/**/1. r\"\"\"\n\"\"\" t.0.1"

theorem lex_intercalate_lexemes_pointedSource :
    (lex pointedSource).problems = [] ∧
      " ".intercalate ((lex pointedSource).tokens.map (·.lexeme)) =
        "f ( .5 ) 1 . len 1. r\"\"\"\n\"\"\" t . 0.1 " ∧
      (lex "f ( .5 ) 1 . len 1. r\"\"\"\n\"\"\" t . 0.1 ").problems = [] ∧
      (lex "f ( .5 ) 1 . len 1. r\"\"\"\n\"\"\" t . 0.1 ").tokens.map (fun t => (t.kind, t.lexeme)) =
        (lex pointedSource).tokens.map fun t => (t.kind, t.lexeme) := by
  have h : (lex pointedSource).problems = [] := by decide +kernel
  have htext : " ".intercalate ((lex pointedSource).tokens.map (·.lexeme)) =
      "f ( .5 ) 1 . len 1. r\"\"\"\n\"\"\" t . 0.1 " := by decide +kernel
  have hlex := lex_intercalate_lexemes h (.inl rfl)
  rw [htext] at hlex
  exact ⟨h, htext, hlex⟩

end SourceCheck
