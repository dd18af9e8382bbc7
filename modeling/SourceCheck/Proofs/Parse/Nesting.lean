import SourceCheck.Proofs.Parse.Pace

/-!
# Nested tokens

A parser that keeps the pace, and the way to the next declaration, do not leave properly nested tokens before a word
for visibility.
-/

namespace SourceCheck

open List TokenKind Recovery

variable {kind : TokenKind} {x : Position}

inductive Bracket where
  | paren
  | square
  | brace
deriving DecidableEq

def TokenKind.opens? : TokenKind → Option Bracket
  | .punctuation .lParen => some .paren
  | .punctuation .lBracket => some .square
  | .punctuation .lBrace => some .brace
  | _ => none

def TokenKind.closes? : TokenKind → Option Bracket
  | .punctuation .rParen => some .paren
  | .punctuation .rBracket => some .square
  | .punctuation .rBrace => some .brace
  | _ => none

lemma TokenKind.opens?_eq_brace (h : kind.opens? = some .brace) : kind = .punctuation .lBrace := by
  unfold opens? at h
  split at h
  all_goals cases h
  rfl

lemma TokenKind.closes?_eq_brace (h : kind.closes? = some .brace) : kind = .punctuation .rBrace := by
  unfold closes? at h
  split at h
  all_goals cases h
  rfl

lemma TokenKind.closes?_of_opens? {b} (h : kind.opens? = some b) : kind.closes? = none := by
  unfold opens? at h
  split at h
  all_goals cases h
  all_goals rfl

lemma TokenKind.isOuter_eq_false (h : kind.isOuter = false) : kind = .keyword .pubKw ∨ kind = .keyword .privKw := by
  unfold isOuter at h
  split at h
  · exact .inl rfl
  · exact .inr rfl
  · cases h

lemma TokenKind.isPlain_of_not_isOuter (h : kind.isOuter = false) : kind.isPlain = true := by
  obtain rfl | rfl := isOuter_eq_false h
  · rfl
  · rfl

/-- Properly nested in all kinds of brackets, without an end mark. -/
inductive Nested : List Token → Prop where
  | nil :
    Nested []
  | plain {t ts} :
    t.kind.opens? = none →
    t.kind.closes? = none →
    t.kind ≠ .eof →
    Nested ts →
    Nested (t :: ts)
  | group {o c b inner ts} :
    o.kind.opens? = some b →
    c.kind.closes? = some b →
    Nested inner →
    Nested ts →
    Nested (o :: (inner ++ c :: ts))

/-- Tokens that close brackets opened before, the innermost first, and are nested otherwise. -/
inductive Closes : List Bracket → List Token → Prop where
  | nil :
    Closes [] []
  | plain {t ts stack} :
    t.kind.opens? = none →
    t.kind.closes? = none →
    t.kind ≠ .eof →
    Closes stack ts →
    Closes stack (t :: ts)
  | opening {t ts b stack} :
    t.kind.opens? = some b →
    Closes (b :: stack) ts →
    Closes stack (t :: ts)
  | closing {t ts b stack} :
    t.kind.closes? = some b →
    Closes stack ts →
    Closes (b :: stack) (t :: ts)

variable {ts : List Token} {stack : List Bracket} {t : Token} {b : Bracket}

lemma Nested.closes_append {rest} (h : Nested ts) (hrest : Closes stack rest) : Closes stack (ts ++ rest) := by
  induction h generalizing stack rest with
  | nil => exact hrest
  | plain hopen hclose hend _ ih => exact .plain hopen hclose hend (ih hrest)
  | group hopen hclose _ _ ihinner ih =>
    rw [cons_append, append_assoc, cons_append]
    exact .opening hopen (ihinner (.closing hclose (ih hrest)))

lemma Nested.closes (h : Nested ts) : Closes [] ts := by
  simpa using h.closes_append .nil

namespace Closes

section

variable (h : Closes stack (t :: ts))

include h

lemma kind_ne_eof : t.kind ≠ .eof := by
  cases h with
  | plain _ _ hend _ => exact hend
  | opening hopen _ => exact fun hend => by simp [hend, opens?] at hopen
  | closing hclose _ => exact fun hend => by simp [hend, closes?] at hclose

lemma tail : ∃ stack', Closes stack' ts := by
  cases h with
  | plain _ _ _ hts | opening _ hts | closing _ hts => exact ⟨_, hts⟩

lemma tail_of_plain
    (ht : t.kind.isPlain = true) : ∃ stack', Closes stack' ts ∧ stack'.count .brace = stack.count .brace := by
  cases h with
  | plain _ _ _ hts => exact ⟨stack, hts, rfl⟩
  | @opening _ _ b _ hopen hts =>
    refine ⟨b :: stack, hts, count_cons_of_ne ?_⟩
    rintro rfl
    rw [opens?_eq_brace hopen] at ht
    cases ht
  | @closing _ _ b stack hclose hts =>
    refine ⟨stack, hts, (count_cons_of_ne ?_).symm⟩
    rintro rfl
    rw [closes?_eq_brace hclose] at ht
    cases ht

lemma tail_of_lBrace (ht : t.kind = .punctuation .lBrace) : Closes (.brace :: stack) ts := by
  cases h with
  | plain hopen _ _ _ => simp [ht, opens?] at hopen
  | opening hopen hts =>
    obtain rfl : _ = Bracket.brace := by simpa [ht, opens?] using hopen.symm
    exact hts
  | closing hclose _ => simp [ht, closes?] at hclose

lemma tail_of_rBrace (ht : t.kind = .punctuation .rBrace) :
    ∃ stack', stack = .brace :: stack' ∧ Closes stack' ts := by
  cases h with
  | plain _ hclose _ _ => simp [ht, closes?] at hclose
  | opening hopen _ => simp [ht, opens?] at hopen
  | closing hclose hts =>
    obtain rfl : _ = Bracket.brace := by simpa [ht, closes?] using hclose.symm
    exact ⟨_, rfl, hts⟩

end

end Closes

/-! ### Positions -/

/-- Nested tokens before a word for visibility. They end in a closing brace if groups can be passed over. -/
structure Parted (skips : Prop) (before after : List Token) : Prop where
  head : ∃ t ts, after = t :: ts ∧ t.kind.isOuter = false
  last : skips → ∃ t, before.getLast? = some t ∧ t.kind = .punctuation .rBrace

/-- A position inside of nested tokens, or right behind them. No more braces are open than are to be closed. -/
def Within (before after : List Token) (x : Position) : Prop :=
  ∃ stack ts, x.2.2 = ts ++ after ∧ ts <:+ before ∧ Closes stack ts ∧ x.1 ≤ stack.count .brace ∧
    (ts = [] → before.getLast? = some x.2.1)

lemma getLast?_of_suffix {before} (h : t :: ts <:+ before) (hts : ts = []) : before.getLast? = some t := by
  subst hts
  obtain ⟨front, rfl⟩ := h
  simp

variable {skips : Prop} {before after : List Token}

namespace Recovery

variable {p t : Token} {rest : List Token} {depth : Nat}

lemma toGroupEnd_plain (hopen : t.kind.opens? = none) (hclose : t.kind.closes? = none)
    (hend : t.kind ≠ .eof) : toGroupEnd p depth (t :: rest) = toGroupEnd t depth rest := by
  rw [toGroupEnd.eq_def]
  dsimp only
  split <;> simp_all [opens?, closes?]

lemma toGroupEnd_opening (hopen : t.kind.opens? = some b) :
    toGroupEnd p depth (t :: rest) = toGroupEnd t (depth + 1) rest := by
  rw [toGroupEnd.eq_def]
  dsimp only
  split <;> simp_all [opens?]

lemma toGroupEnd_closing_zero (hclose : t.kind.closes? = some b) : toGroupEnd p 0 (t :: rest) = (p, t :: rest) := by
  rw [toGroupEnd.eq_def]
  dsimp only
  split <;> simp_all [closes?]

lemma toGroupEnd_closing_one (hclose : t.kind.closes? = some b) : toGroupEnd p 1 (t :: rest) = (t, rest) := by
  rw [toGroupEnd.eq_def]
  dsimp only
  split <;> simp_all [closes?]

lemma toGroupEnd_closing_succ (hclose : t.kind.closes? = some b) :
    toGroupEnd p (depth + 2) (t :: rest) = toGroupEnd t (depth + 1) rest := by
  rw [toGroupEnd.eq_def]
  dsimp only
  split <;> simp_all [closes?]

end Recovery

/-- A group that starts inside of nested tokens ends there. The induction is on the tokens scanned; `opened` are the
brackets on the way. -/
lemma toGroupEnd_within (after opened p) (h : Closes (opened ++ stack) ts) (hsuffix : ts <:+ before)
    (hlast : ∃ t, ts.getLast? = some t ∧ t.kind.closes?.isSome = true) :
    ∃ p' ts', toGroupEnd p opened.length (ts ++ after) = (p', ts' ++ after) ∧ ts' <:+ before ∧
      Closes stack ts' ∧ (ts' = [] → before.getLast? = some p') := by
  induction ts generalizing opened p with
  | nil =>
    obtain ⟨t, ht, -⟩ := hlast
    cases ht
  | cons t ts ih =>
    have htail : ts <:+ before := (suffix_cons t ts).trans hsuffix
    have hlast' (hne : ts ≠ []) : ∃ t, ts.getLast? = some t ∧ t.kind.closes?.isSome = true := by
      rwa [List.getLast?_cons_of_ne_nil hne] at hlast
    have hmore (hopen : t.kind.closes? = none) : ts ≠ [] := by
      rintro rfl
      obtain ⟨u, hu, hcloses⟩ := hlast
      obtain rfl : t = u := by simpa using hu
      simp [hopen] at hcloses
    generalize hstack : opened ++ stack = all at h
    cases h with
    | plain hopen hclose hend hts =>
      rw [cons_append, toGroupEnd_plain hopen hclose hend]
      subst hstack
      exact ih opened t hts htail (hlast' (hmore hclose))
    | @opening _ _ b _ hopen hts =>
      have hclose : t.kind.closes? = none := closes?_of_opens? hopen
      rw [cons_append, toGroupEnd_opening hopen]
      subst hstack
      exact ih (b :: opened) t hts htail (hlast' (hmore hclose))
    | @closing _ _ b rest hclose hts =>
      match opened, hstack with
      | [], hstack =>
        rw [cons_append, length_nil, toGroupEnd_closing_zero hclose]
        obtain rfl : stack = b :: rest := hstack
        exact ⟨p, t :: ts, rfl, hsuffix, .closing hclose hts, by simp⟩
      | [x], hstack =>
        rw [cons_append, length_singleton, toGroupEnd_closing_one hclose]
        obtain ⟨-, rfl⟩ : x = b ∧ stack = rest := by simpa using hstack
        exact ⟨t, ts, rfl, htail, hts, getLast?_of_suffix hsuffix⟩
      | x :: y :: opened, hstack =>
        have hrest : y :: opened ++ stack = rest := by simpa using (List.cons.inj hstack).2
        rw [cons_append, length_cons, length_cons, toGroupEnd_closing_succ hclose]
        rw [← hrest] at hts
        refine ih (y :: opened) t hts htail (hlast' ?_)
        rintro rfl
        cases hts

lemma Within.read {n p rest} (h : Within before after (n, p, t :: rest))
    (hne : t :: rest ≠ after) (hplain : t.kind.isPlain = true) : Within before after (n, t, rest) := by
  obtain ⟨stack, ts, hrest, hsuffix, hcloses, hlevel, -⟩ := h
  cases ts with
  | nil => exact absurd hrest hne
  | cons u ts =>
    obtain ⟨rfl, rfl⟩ := List.cons.inj hrest
    obtain ⟨stack', hcloses', hcount⟩ := hcloses.tail_of_plain hplain
    exact ⟨stack', ts, rfl, (suffix_cons _ ts).trans hsuffix, hcloses', hcount ▸ hlevel,
      getLast?_of_suffix hsuffix⟩

lemma Within.rest_ne_nil (h : Parted skips before after) (hx : Within before after x) : x.2.2 ≠ [] := by
  obtain ⟨stack, ts, hrest, -⟩ := hx
  obtain ⟨d, ds, rfl, -⟩ := h.head
  simp [hrest]

lemma Within.advance {n} {s : ParseState} {finish} (h : Within before after (n, s.cursor)) (hne : s.rest ≠ after)
    (hplain : (s.peek finish).kind.isPlain = true) : Within before after (n, s.advance.cursor) := by
  cases hrest : s.rest with
  | nil =>
    rw [ParseState.advance_of_rest_nil hrest]
    exact h
  | cons t rest =>
    rw [ParseState.peek_of_rest_cons hrest] at hplain
    rw [ParseState.cursor, hrest] at h
    have hend : t.kind ≠ .eof := fun heof => by simp [heof, isPlain] at hplain
    rw [ParseState.advance_of_rest_cons hrest hend]
    exact h.read (hrest ▸ hne) hplain

lemma Within.pace (h : Parted skips before after) {y} (hx : Within before after x)
    (hstep : Pace skips x y) : Within before after y := by
  obtain ⟨stack, ts, hrest, hsuffix, hcloses, hlevel, hlast⟩ := id hx
  obtain ⟨d, ds, hafter, houter⟩ := h.head
  -- Behind the nested tokens no brace is open, and the next token is a word for visibility.
  have hbehind {n : Nat} (hn : n ≤ stack.count .brace) (hts : ts = []) : n = 0 := by
    subst hts
    cases hcloses
    simpa using hn
  cases hstep with
  | @read n p t rest hplain hread =>
    refine hx.read (fun hend => ?_) hplain
    obtain rfl : ts = [] := self_eq_append_left.1 (hend.symm.trans hrest)
    obtain rfl : t = d := (List.cons.inj (hrest.trans hafter)).1
    simp [hread (hbehind hlevel rfl)] at houter
  | @enter n p t rest hopen =>
    cases ts with
    | nil =>
      obtain rfl : t = d := (List.cons.inj (hrest.trans hafter)).1
      simp [hopen, isOuter] at houter
    | cons u ts =>
      obtain ⟨rfl, rfl⟩ := List.cons.inj hrest
      refine ⟨.brace :: stack, ts, rfl, (suffix_cons _ ts).trans hsuffix,
        hcloses.tail_of_lBrace hopen, ?_, getLast?_of_suffix hsuffix⟩
      rw [count_cons_self]
      exact Nat.succ_le_succ hlevel
  | @leave n p t rest hclose =>
    cases ts with
    | nil => cases hbehind hlevel rfl
    | cons u ts =>
      obtain ⟨rfl, rfl⟩ := List.cons.inj hrest
      obtain ⟨stack', rfl, hcloses'⟩ := hcloses.tail_of_rBrace hclose
      refine ⟨stack', ts, rfl, (suffix_cons _ ts).trans hsuffix, hcloses', ?_, getLast?_of_suffix hsuffix⟩
      rw [count_cons_self] at hlevel
      exact Nat.le_of_succ_le_succ hlevel
  | forget => exact ⟨stack, ts, hrest, hsuffix, hcloses, Nat.le_of_succ_le hlevel, hlast⟩
  | @skip n p rest hskips hfar =>
    obtain rfl : rest = ts ++ after := hrest
    obtain ⟨l, hl, hbrace⟩ := h.last hskips
    have hne : ts ≠ [] := by
      intro hts
      obtain rfl : l = p := Option.some.inj (hl.symm.trans (hlast hts))
      obtain hprevious | hnil := hfar (hbehind hlevel hts)
      · exact hprevious hbrace
      · simp [hafter] at hnil
    have hend : ∃ t, ts.getLast? = some t ∧ t.kind.closes?.isSome = true := by
      obtain ⟨front, rfl⟩ := hsuffix
      have hsome := List.getLast?_eq_some_getLast hne
      rw [List.getLast?_append, hsome] at hl
      obtain rfl : ts.getLast hne = l := by simpa using hl
      exact ⟨_, hsome, by simp [hbrace, closes?]⟩
    obtain ⟨p', ts', hgroup, hsuffix', hcloses', hlast'⟩ :=
      toGroupEnd_within after [] p hcloses hsuffix hend
    rw [length_nil] at hgroup
    rw [hgroup]
    exact ⟨stack, ts', rfl, hsuffix', hcloses', hlevel, hlast'⟩

lemma Within.paces (h : Parted skips before after) {y} (hx : Within before after x)
    (hsteps : Paces skips x y) : Within before after y := by
  induction hsteps with
  | refl => exact hx
  | tail _ hstep ih => exact ih.pace h hstep

/-- The next declaration is not behind a visibility word that follows nested tokens. The induction is on the tokens
passed over. -/
lemma toDeclaration_within (h : Parted skips before after) (p depth)
    (hcloses : Closes stack ts) (hdepth : depth ≤ stack.count .brace) :
    ∃ p' ts' stack', toDeclaration p depth (ts ++ after) = (p', ts' ++ after) ∧ ts' <:+ ts ∧
      Closes stack' ts' := by
  induction ts generalizing stack p depth with
  | nil =>
    obtain ⟨d, ds, rfl, houter⟩ := h.head
    cases hcloses
    obtain rfl : depth = 0 := by simpa using hdepth
    refine ⟨p, [], [], ?_, suffix_refl _, .nil⟩
    rw [nil_append, toDeclaration]
    obtain hkind | hkind := isOuter_eq_false houter
    · simp [hkind]
    · simp [hkind]
  | cons t ts ih =>
    have hpass (hplain : t.kind.isPlain = true) : ∃ p' ts' stack',
        toDeclaration t depth (ts ++ after) = (p', ts' ++ after) ∧ ts' <:+ t :: ts ∧
          Closes stack' ts' := by
      obtain ⟨stack', hcloses', hcount⟩ := hcloses.tail_of_plain hplain
      obtain ⟨p', ts', stack', hto, hsuffix, hts'⟩ := ih t depth hcloses' (hcount ▸ hdepth)
      exact ⟨p', ts', stack', hto, hsuffix.trans (suffix_cons t ts), hts'⟩
    have hstop : ∃ p' ts' stack', (p, t :: (ts ++ after)) = (p', ts' ++ after) ∧ ts' <:+ t :: ts ∧
        Closes stack' ts' :=
      ⟨p, t :: ts, stack, rfl, suffix_refl _, hcloses⟩
    rw [cons_append]
    unfold toDeclaration
    split
    · rename_i hend
      exact absurd hend hcloses.kind_ne_eof
    · rename_i hclose
      obtain ⟨stack', rfl, hcloses'⟩ := hcloses.tail_of_rBrace hclose
      split
      · exact ⟨t, ts, stack', rfl, suffix_cons t ts, hcloses'⟩
      · rw [count_cons_self] at hdepth
        obtain ⟨p', ts', stack', hto, hsuffix, hts'⟩ := ih t (depth - 1) hcloses' (by omega)
        exact ⟨p', ts', stack', hto, hsuffix.trans (suffix_cons t ts), hts'⟩
    · rename_i hopen
      have hlevel : depth + 1 ≤ (Bracket.brace :: stack).count .brace := by
        rw [count_cons_self]
        exact Nat.succ_le_succ hdepth
      obtain ⟨p', ts', stack', hto, hsuffix, hts'⟩ := ih t (depth + 1) (hcloses.tail_of_lBrace hopen) hlevel
      exact ⟨p', ts', stack', hto, hsuffix.trans (suffix_cons t ts), hts'⟩
    · rename_i hsemicolon
      have hplain : t.kind.isPlain = true := by rw [hsemicolon]; rfl
      split
      · obtain ⟨stack', hcloses', -⟩ := hcloses.tail_of_plain hplain
        exact ⟨t, ts, stack', rfl, suffix_cons t ts, hcloses'⟩
      · exact hpass hplain
    case h_10 =>
      refine hpass ?_
      unfold isPlain
      split <;> simp_all
    all_goals
      rename_i hkind
      split
      · exact hstop
      · exact hpass (by rw [hkind]; rfl)

end SourceCheck
