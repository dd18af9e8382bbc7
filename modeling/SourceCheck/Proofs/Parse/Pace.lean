import SourceCheck.Proofs.Parse.Steady

/-!
# The pace of parsers

How far parsers read, whether they fail or not. A parser closes only braces that it has opened, and outside of them
stops before the words for visibility. Two kinds of problems spoil this: half of a double angle that is read, and too
deep nesting where no bracket ends the group.
-/

open SourceCheck.Parser

namespace SourceCheck

open ParseState

variable {inside : Bool} {skips : Prop}

/-! ### Moves -/

def TokenKind.isPlain : TokenKind → Bool
  | .punctuation .lBrace | .punctuation .rBrace | .eof => false
  | _ => true

def TokenKind.isOuter : TokenKind → Bool
  | .keyword .pubKw | .keyword .privKw => false
  | _ => true

/-- Whether such a token may be read, inside or outside of braces. -/
def TokenKind.isRead (inside : Bool) (kind : TokenKind) : Bool :=
  kind.isPlain && (kind.isOuter || inside)

/-- Whether it may be read where half of a double angle may come next. -/
def TokenKind.isTaken (inside : Bool) : TokenKind → Bool
  | .operator .shr => false
  | kind => kind.isRead inside

lemma TokenKind.isRead_of_isTaken {kind : TokenKind} (h : kind.isTaken inside = true) : kind.isRead inside = true := by
  unfold isTaken at h
  split at h
  · cases h
  · exact h

lemma TokenKind.ne_shr_of_isTaken {kind : TokenKind} (h : kind.isTaken inside = true) : kind ≠ .operator .shr := by
  rintro rfl
  cases h

/-- The open braces, the token read last and the tokens left. -/
abbrev Position := Nat × Token × List Token

/-- Outside of all braces words for visibility are not read, and no group is passed over right behind a closing brace.
-/
inductive Pace (skips : Prop) : Position → Position → Prop where
  | read {n p t rest} :
    t.kind.isPlain = true →
    (n = 0 → t.kind.isOuter = true) →
    Pace skips (n, p, t :: rest) (n, t, rest)
  | enter {n p t rest} :
    t.kind = .punctuation .lBrace →
    Pace skips (n, p, t :: rest) (n + 1, t, rest)
  | leave {n p t rest} :
    t.kind = .punctuation .rBrace →
    Pace skips (n + 1, p, t :: rest) (n, t, rest)
  | forget {n x} :
    Pace skips (n + 1, x) (n, x)
  | skip {n p rest} :
    skips →
    (n = 0 → p.kind ≠ .punctuation .rBrace ∨ rest = []) →
    Pace skips (n, p, rest) (n, Recovery.toGroupEnd p 0 rest)

abbrev Paces (skips : Prop) : Position → Position → Prop :=
  Relation.ReflTransGen (Pace skips)

lemma Paces.leaves {x y} (h : Paces skips x y) : Leaves x.2 y.2 := by
  induction h with
  | refl => exact .refl
  | tail _ hstep ih =>
    refine ih.trans ?_
    cases hstep with
    | read hplain _ =>
      refine .single (.read fun heof => ?_)
      simp [heof, TokenKind.isPlain] at hplain
    | enter hkind | leave hkind => exact .single (.read (by simp [hkind]))
    | forget => exact .refl
    | skip _ _ => exact Steady.leaves_toGroupEnd _ 0 _

lemma Paces.at_end {x y} (h : Paces skips x y) (hend : x.2.2 = []) : y.2 = x.2 := by
  induction h with
  | refl => rfl
  | tail _ hstep ih =>
    rw [← ih] at hend ⊢
    cases hstep with
    | read _ _ | enter _ | leave _ => cases hend
    | forget => rfl
    | skip _ _ =>
      obtain rfl := hend
      rfl

lemma Paces.pass {n p t rest} (hn : 0 < n) (hbrace : t.kind ≠ .punctuation .rBrace) (hend : t.kind ≠ .eof) :
    Paces skips (n, p, t :: rest) (n, t, rest) := by
  by_cases hopen : t.kind = .punctuation .lBrace
  · exact .tail (.single (.enter hopen)) .forget
  · refine .single (.read ?_ fun h => by omega)
    unfold TokenKind.isPlain
    split <;> simp_all

lemma Paces.advance {c : ParseContext} {s : ParseState} {n} (hn : inside = true → 0 < n)
    (hkind : (s.peek c.finish).kind.isRead inside = true) : Paces skips (n, s.cursor) (n, s.advance.cursor) := by
  cases hrest : s.rest with
  | nil =>
    rw [advance_of_rest_nil hrest]
  | cons t rest =>
    simp only [peek_of_rest_cons hrest, TokenKind.isRead, Bool.and_eq_true, Bool.or_eq_true] at hkind
    obtain ⟨hplain, houter⟩ := hkind
    have hend : t.kind ≠ .eof := by
      intro heof
      simp [heof, TokenKind.isPlain] at hplain
    rw [advance_of_rest_cons hrest hend, cursor, hrest]
    refine .single (.read hplain fun hzero => ?_)
    obtain houter | hinside := houter
    · exact houter
    · have := hn hinside
      omega

lemma Paces.forget {skips : Prop} (n k) (x : Token × List Token) : Paces skips (n + k, x) (n, x) := by
  induction k with
  | zero => exact .refl
  | succ k ih => exact .head .forget ih

lemma Paces.enter {skips : Prop} {c : ParseContext} {s : ParseState} {n x}
    (hopen : (s.peek c.finish).kind = .punctuation .lBrace)
    (h : Paces skips (n + 1, s.advance.cursor) (n, x)) : Paces skips (n, s.cursor) (n, x) := by
  cases hrest : s.rest with
  | nil =>
    rw [advance_of_rest_nil hrest] at h
    have hsame : x = s.cursor := h.at_end hrest
    rw [hsame]
  | cons t rest =>
    rw [peek_of_rest_cons hrest] at hopen
    rw [advance_of_rest_cons hrest (by simp [hopen])] at h
    rw [cursor, hrest]
    exact .head (.enter hopen) h

lemma Paces.leave {skips : Prop} {c : ParseContext} {s : ParseState} (n)
    (hclose : (s.peek c.finish).kind = .punctuation .rBrace) : Paces skips (n + 1, s.cursor) (n, s.advance.cursor) := by
  cases hrest : s.rest with
  | nil =>
    rw [advance_of_rest_nil hrest]
    exact .single .forget
  | cons t rest =>
    rw [peek_of_rest_cons hrest] at hclose
    rw [advance_of_rest_cons hrest (by simp [hclose]), cursor, hrest]
    exact .single (.leave hclose)

/-! ### Problems -/

/-- A double angle was found in place of something else. -/
def GrammarProblem.foundShr : GrammarProblem → Bool
  | .expected _ found => found = TokenKind.describe (.operator .shr)
  | _ => false

/-- Problems after which the pace is not kept: too deep nesting is one unless groups can be passed over. -/
def GrammarProblem.Spoils (skips : Prop) (p : GrammarProblem) : Prop :=
  p.foundShr = true ∨ p = .nestingTooDeep ∧ ¬ skips

namespace ParseState

/-- A problem is recorded after which the pace is not kept. -/
def Spoilt (skips : Prop) (s : ParseState) : Prop :=
  (∃ r ∈ s.problems, r.cause.foundShr = true) ∨ s.tooDeep = true ∧ ¬ skips

lemma Spoilt.grown {s t : ParseState} (h : s.Spoilt skips) (hg : s.Grown t) : t.Spoilt skips := by
  obtain ⟨more, hproblems, hdeep⟩ := hg
  obtain ⟨r, hr, hfound⟩ | ⟨hs, hskips⟩ := h
  · exact .inl ⟨r, by simp [hproblems, hr], hfound⟩
  · exact .inr ⟨by simp [hdeep, hs], hskips⟩

lemma spoilt_report (s : ParseState) {r} (h : r.cause.Spoils skips) : (s.report r).Spoilt skips := by
  obtain hfound | ⟨hdeep, hskips⟩ := h
  · have hne : r.cause ≠ .nestingTooDeep := by
      intro heq
      simp [heq, GrammarProblem.foundShr] at hfound
    refine .inl ⟨r, ?_, hfound⟩
    simp [report, hne]
  · refine .inr ⟨?_, hskips⟩
    unfold report
    rw [if_pos hdeep]
    split
    · assumption
    · rfl

end ParseState

/-! ### Recovery -/

lemma Recovery.paces_toStatement {n} (hn : 0 < n) (previous rest) :
    Paces skips (n, previous, rest) (n, toStatement previous rest) := by
  induction rest generalizing previous with
  | nil => exact .refl
  | cons t rest ih =>
    have hpass (hbrace : t.kind ≠ .punctuation .rBrace) (hend : t.kind ≠ .eof) :
        Paces skips (n, previous, t :: rest) (n, toStatement t rest) :=
      (Paces.pass hn hbrace hend).trans (ih t)
    unfold toStatement
    split
    · exact .refl
    · exact .refl
    · rename_i hkind
      exact Paces.pass hn (by simp [hkind]) (by simp [hkind])
    · rename_i hkind
      split
      · exact .refl
      · exact hpass (by simp [hkind]) (by simp [hkind])
    · rename_i hend hbrace _ _
      exact hpass hbrace hend

lemma Recovery.paces_toMethod {n} (hn : 0 < n) (previous depth rest) :
    Paces skips (n + depth, previous, rest) (n, toMethod previous depth rest) := by
  induction rest generalizing previous depth with
  | nil => exact .forget n depth _
  | cons t rest ih =>
    have hpass (hbrace : t.kind ≠ .punctuation .rBrace) (hend : t.kind ≠ .eof) :
        Paces skips (n + depth, previous, t :: rest) (n, toMethod t depth rest) :=
      (Paces.pass (by omega) hbrace hend).trans (ih t depth)
    have hstop (hkind : t.kind ≠ .punctuation .rBrace) (hend : t.kind ≠ .eof) :
        Paces skips (n + depth, previous, t :: rest)
          (n, if depth = 0 then (previous, t :: rest) else toMethod t depth rest) := by
      split
      · exact .forget n depth _
      · exact hpass hkind hend
    unfold toMethod
    split
    · exact .forget n depth _
    · rename_i hkind
      split
      · exact .refl
      · exact .single (.leave hkind)
      · rename_i hzero _
        obtain ⟨k, rfl⟩ := Nat.exists_eq_succ_of_ne_zero hzero
        exact .head (.leave hkind) (ih t k)
    · rename_i hkind
      exact .head (.enter hkind) (ih t (depth + 1))
    case h_7 hend hbrace _ _ _ _ => exact hpass hbrace hend
    all_goals
      rename_i hkind
      exact hstop (by simp [hkind]) (by simp [hkind])

lemma Recovery.paces_toArm {n} (hn : 0 < n) (previous depth rest) :
    Paces skips (n + depth, previous, rest) (n, toArm previous depth rest) := by
  induction rest generalizing previous depth with
  | nil => exact .forget n depth _
  | cons t rest ih =>
    have hpass (hbrace : t.kind ≠ .punctuation .rBrace) (hend : t.kind ≠ .eof) :
        Paces skips (n + depth, previous, t :: rest) (n, toArm t depth rest) :=
      (Paces.pass (by omega) hbrace hend).trans (ih t depth)
    unfold toArm
    split
    · exact .forget n depth _
    · rename_i hkind
      exact .head (.enter hkind) (ih t (depth + 1))
    · rename_i hkind
      split
      · exact .refl
      · have hleave : Paces skips (n + 1, previous, t :: rest) (n, t, rest) := .single (.leave hkind)
        split
        · split
          · rename_i hcomma
            exact hleave.trans (Paces.pass hn (by simp [hcomma]) (by simp [hcomma]))
          · exact hleave
        · exact hleave
      · rename_i hzero _
        obtain ⟨k, rfl⟩ := Nat.exists_eq_succ_of_ne_zero hzero
        exact .head (.leave hkind) (ih t k)
    · rename_i hkind
      split
      · rename_i hzero
        subst hzero
        exact Paces.pass hn (by simp [hkind]) (by simp [hkind])
      · exact hpass (by simp [hkind]) (by simp [hkind])
    · rename_i hend _ hbrace _
      exact hpass hbrace hend

structure Resumes (skips : Prop) (recover : ParseState → ParseState) : Prop extends
    Steady.Moves recover where
  splitAngle {s : ParseState} : s.splitAngle = false → (recover s).splitAngle = false
  paces {s : ParseState} {n : Nat} : 0 < n → Paces skips (n, s.cursor) (n, (recover s).cursor)

lemma resumes_toStatement (skips : Prop) : Resumes skips toStatement where
  toMoves := (Steady.moves_moveTo fun t ts =>
    (Recovery.paces_toStatement Nat.one_pos t ts : Paces skips _ _).leaves).whole
  splitAngle _ := rfl
  paces hn := Recovery.paces_toStatement hn _ _

lemma resumes_toMethod (skips : Prop) : Resumes skips toMethod where
  toMoves := Steady.moves_moveTo fun t ts => (Recovery.paces_toMethod Nat.one_pos t 0 ts : Paces skips _ _).leaves
  splitAngle h := h
  paces hn := Recovery.paces_toMethod hn _ 0 _

lemma resumes_toArm (skips : Prop) : Resumes skips toArm where
  toMoves := Steady.moves_moveTo fun t ts => (Recovery.paces_toArm Nat.one_pos t 0 ts : Paces skips _ _).leaves
  splitAngle h := h
  paces hn := Recovery.paces_toArm hn _ 0 _

lemma Resumes.resume {skips : Prop} {recover} (hrecover : Resumes skips recover) {c : ParseContext} {s s' n}
    (hn : 0 < n) (hclose : ¬ ((s.peek c.finish).kind = .punctuation .rBrace ∨ (s.peek c.finish).kind = .eof))
    (h : Paces skips (n, s.cursor) (n, s'.cursor)) (e) :
    Paces skips (n, s.cursor) (n, (Parser.resume recover s e s').cursor) := by
  have hto : Paces skips (n, s.cursor) (n, (recover (s'.report e)).cursor) := by
    refine h.trans ?_
    have hmove := hrecover.paces (s := s'.report e) hn
    rwa [report_cursor] at hmove
  unfold Parser.resume
  split
  · rename_i hlength
    refine hto.trans ?_
    have hsame : (recover (s'.report e)).rest = s.rest := hto.leaves.suffix.eq_of_length hlength
    cases hrest : s.rest with
    | nil => rw [advance_of_rest_nil (hsame.trans hrest)]
    | cons t rest =>
      rw [hrest] at hsame
      rw [peek_of_rest_cons hrest] at hclose
      have hend : t.kind ≠ .eof := fun h => hclose (.inr h)
      rw [advance_of_rest_cons hsame hend, cursor, hsame]
      exact Paces.pass hn (fun h => hclose (.inl h)) hend
  · exact hto

end SourceCheck
