import Mathlib.Tactic.Lemma
import SourceCheck.Parse.Program

/-!
# Runs of parsers

What the basic parsers do to a state, as equations.
-/

namespace SourceCheck

open ParseState

variable {kind : TokenKind} {what : String} {n : Nat}

def tokensOf (kinds : List TokenKind) : List Token :=
  kinds.map fun kind => ⟨kind, "", default⟩

namespace ParseState

lemma peek_of_rest_cons {s : ParseState} {t rest} (h : s.rest = t :: rest) (finish) : s.peek finish = t := by
  rw [peek, h]
  rfl

lemma advance_of_rest_nil {s : ParseState} (h : s.rest = []) : s.advance = s := by
  unfold advance
  rw [h]

lemma advance_of_rest_cons {s : ParseState} {t rest} (h : s.rest = t :: rest)
    (ht : t.kind ≠ .eof) : s.advance = { s with rest, previous := t } := by
  rw [advance, h]
  exact if_neg ht

lemma advance_previous {s : ParseState} {finish} (h : (s.peek finish).kind = kind)
    (hend : kind ≠ .eof) : s.advance.previous.kind = kind ∨ s.advance.rest = [] := by
  cases hrest : s.rest with
  | nil =>
    rw [advance_of_rest_nil hrest]
    exact .inr hrest
  | cons t rest =>
    rw [peek_of_rest_cons hrest] at h
    rw [advance_of_rest_cons hrest (h ▸ hend)]
    exact .inl h

lemma advance_shorter {s : ParseState} {finish} (hrest : s.rest ≠ [])
    (hend : (s.peek finish).kind ≠ .eof) : s.advance.rest.length < s.rest.length := by
  cases h : s.rest with
  | nil => exact absurd h hrest
  | cons t rest =>
    rw [peek_of_rest_cons h] at hend
    rw [advance_of_rest_cons h hend]
    exact Nat.lt_succ_self _

@[simp] lemma advance_splitAngle (s : ParseState) : s.advance.splitAngle = s.splitAngle := by
  unfold advance
  split
  · split <;> rfl
  · rfl

@[simp] lemma advance_problems (s : ParseState) : s.advance.problems = s.problems := by
  unfold advance
  split
  · split <;> rfl
  · rfl

@[simp] lemma advance_tooDeep (s : ParseState) : s.advance.tooDeep = s.tooDeep := by
  unfold advance
  split
  · split <;> rfl
  · rfl

@[simp] lemma report_rest (s : ParseState) (r) : (s.report r).rest = s.rest := by
  unfold report
  split
  · split <;> rfl
  · rfl

@[simp] lemma report_previous (s : ParseState) (r) : (s.report r).previous = s.previous := by
  unfold report
  split
  · split <;> rfl
  · rfl

@[simp] lemma report_splitAngle (s : ParseState) (r) : (s.report r).splitAngle = s.splitAngle := by
  unfold report
  split
  · split <;> rfl
  · rfl

end ParseState

namespace Parser

variable {α β : Type} {c : ParseContext} {s s' : ParseState}

/-! ### Steps in a row -/

lemma run_pure (a : α) (c s) : (pure a : Parser α) c s = (.ok a, s) :=
  rfl

lemma run_bind_ok {p a} (h : p c s = (.ok a, s')) (k : α → Parser β) : (p >>= k) c s = k a c s' := by
  simp only [bind, ReaderT.bind, ExceptT.bind, ExceptT.mk, StateT.bind, h, ExceptT.bindCont]

lemma run_bind_error {p e} (h : p c s = (.error e, s')) (k : α → Parser β) : (p >>= k) c s = (.error e, s') := by
  simp only [bind, ReaderT.bind, ExceptT.bind, ExceptT.mk, StateT.bind, h, ExceptT.bindCont]
  rfl

lemma run_bind_eq_ok {p} {k : α → Parser β} {b} (h : (p >>= k) c s = (.ok b, s')) :
    ∃ a s₁, p c s = (.ok a, s₁) ∧ k a c s₁ = (.ok b, s') := by
  rcases hp : p c s with ⟨e | a, s₁⟩
  · rw [run_bind_error hp] at h
    cases h
  · rw [run_bind_ok hp] at h
    exact ⟨a, s₁, rfl, h⟩

lemma discard_bind (p : Parser α) (k : Unit → Parser β) : (discard p >>= k) = (p >>= fun _ => k ()) := by
  funext c s
  rcases hp : p c s with ⟨e | a, s'⟩
  · have hdiscard : discard p c s = (.error e, s') := run_bind_error hp fun _ => pure ()
    rw [run_bind_error hp, run_bind_error hdiscard]
  · have hdiscard : discard p c s = (.ok (), s') := run_bind_ok hp fun _ => pure ()
    rw [run_bind_ok hp, run_bind_ok hdiscard]

/-! ### Looking ahead and reading -/

lemma run_peek (c s) : peek c s = (.ok (s.peek c.finish), s) :=
  rfl

lemma run_peekKind (c s) : peekKind c s = (.ok (s.peek c.finish).kind, s) :=
  rfl

/-- The parser that follows is named, so that it can be split. -/
lemma run_peekKind_eq {k} {r : ParseResult β} (h : (peekKind >>= k) c s = r) :
    ∃ p, k (s.peek c.finish).kind = p ∧ p c s = r :=
  ⟨_, rfl, h⟩

lemma run_here (c s) : here c s = (.ok (s.peek c.finish).span, s) :=
  rfl

lemma run_at? (kind c s) : at? kind c s = (.ok (decide ((s.peek c.finish).kind = kind)), s) :=
  rfl

lemma run_advance (c s) : advance c s = (.ok s.advance.previous.span, s.advance) :=
  rfl

lemma run_accept_of_eq (h : (s.peek c.finish).kind = kind) : accept kind c s = (.ok true, s.advance) := by
  rw [accept, run_bind_ok (run_at? kind c s), if_pos (by simpa using h)]
  rfl

lemma run_accept_of_ne (h : (s.peek c.finish).kind ≠ kind) : accept kind c s = (.ok false, s) := by
  rw [accept, run_bind_ok (run_at? kind c s), if_neg (by simpa using h)]
  rfl

lemma run_expected (what c s) :
    (expected what : Parser α) c s =
      (.error ⟨.expected what (s.peek c.finish).kind.describe, (s.peek c.finish).span⟩, s) :=
  rfl

lemma run_expect_of_eq (h : (s.peek c.finish).kind = kind) :
    expect kind what c s = (.ok s.advance.previous.span, s.advance) := by
  rw [expect, run_bind_ok (run_at? kind c s), if_pos (by simpa using h)]
  rfl

lemma run_expect_of_ne (h : (s.peek c.finish).kind ≠ kind) : expect kind what c s =
      (.error ⟨.expected what (s.peek c.finish).kind.describe, (s.peek c.finish).span⟩, s) := by
  rw [expect, run_bind_ok (run_at? kind c s), if_neg (by simpa using h)]
  rfl

lemma run_expect_eq_ok {span}
    (h : expect kind what c s = (.ok span, s')) : (s.peek c.finish).kind = kind ∧ s' = s.advance := by
  by_cases hnext : (s.peek c.finish).kind = kind
  · rw [run_expect_of_eq hnext] at h
    exact ⟨hnext, (Prod.ext_iff.1 h).2.symm⟩
  · rw [run_expect_of_ne hnext] at h
    cases h

lemma run_token_eq_ok {k} {b : β} (h : (discard (expect kind what) >>= k) c s = (.ok b, s')) :
    (s.peek c.finish).kind = kind ∧ k () c s.advance = (.ok b, s') := by
  obtain ⟨u, s₁, hdiscard, hk⟩ := run_bind_eq_ok h
  obtain ⟨span, s₂, hexpect, hpure⟩ := run_bind_eq_ok (k := fun _ => pure ()) hdiscard
  obtain ⟨hnext, rfl⟩ := run_expect_eq_ok hexpect
  cases hpure
  exact ⟨hnext, hk⟩

lemma run_read (c s) : (read : Parser ParseContext) c s = (.ok c, s) :=
  rfl

lemma run_get (c s) : (get : Parser ParseState) c s = (.ok s, s) :=
  rfl

section

variable {t : Token} {rest : List Token} {kind : TokenKind} (hrest : s.rest = t :: rest)
include hrest

lemma run_accept_cons (hkind : t.kind = kind) (hend : kind ≠ .eof) :
    accept kind c s = (.ok true, { s with rest, previous := t }) := by
  have hnext : (s.peek c.finish).kind = kind := by rw [peek_of_rest_cons hrest, hkind]
  rw [run_accept_of_eq hnext, advance_of_rest_cons hrest (hkind ▸ hend)]

lemma run_expect_cons (hkind : t.kind = kind) (hend : kind ≠ .eof) :
    expect kind what c s = (.ok t.span, { s with rest, previous := t }) := by
  have hnext : (s.peek c.finish).kind = kind := by rw [peek_of_rest_cons hrest, hkind]
  rw [run_expect_of_eq hnext, advance_of_rest_cons hrest (hkind ▸ hend)]

lemma run_advance_cons (hend : t.kind ≠ .eof) : advance c s = (.ok t.span, { s with rest, previous := t }) := by
  rw [run_advance, advance_of_rest_cons hrest hend]

lemma run_identifier_cons {text : String} (hkind : t.kind = .ident text) :
    identifier c s = (.ok text, { s with rest, previous := t }) := by
  have hadvance : discard advance c s = (.ok (), { s with rest, previous := t }) :=
    run_bind_ok (run_advance_cons hrest (by simp [hkind])) fun _ => pure ()
  rw [identifier, run_bind_ok (run_peekKind c s), peek_of_rest_cons hrest, hkind]
  exact run_bind_ok hadvance _

lemma run_name_cons {text : String} (hkind : t.kind = .ident text) :
    name c s = (.ok ⟨text, t.span⟩, { s with rest, previous := t }) := by
  rw [name, run_bind_ok (run_here c s), run_bind_ok (run_identifier_cons hrest hkind),
    peek_of_rest_cons hrest]
  rfl

end

lemma run_closeAngle_of_split (h : s.splitAngle = true) :
    closeAngle c s = (.ok (), { s with splitAngle := false }.advance) := by
  rw [closeAngle, run_bind_ok (run_get c s), if_pos h]
  rfl

lemma run_closeAngle_gt (h : s.splitAngle = false) (hnext : (s.peek c.finish).kind = .operator .gt) :
    closeAngle c s = (.ok (), s.advance) := by
  rw [closeAngle, run_bind_ok (run_get c s), if_neg (by simp [h]), acceptOperator, run_bind_ok (run_accept_of_eq hnext)]
  rfl

lemma run_closeAngle_shr (h : s.splitAngle = false) (hnext : (s.peek c.finish).kind = .operator .shr) :
    closeAngle c s = (.ok (), { s with splitAngle := true }) := by
  rw [closeAngle, run_bind_ok (run_get c s), if_neg (by simp [h]), acceptOperator,
    run_bind_ok (run_accept_of_ne (by simp [hnext])), if_neg (by simp), atOperator,
    run_bind_ok (run_at? _ c s), if_pos (by simpa using hnext)]
  rfl

lemma run_closeAngle_error (h : s.splitAngle = false) (hgt : (s.peek c.finish).kind ≠ .operator .gt)
    (hshr : (s.peek c.finish).kind ≠ .operator .shr) :
    closeAngle c s = (expected "'>'" : Parser Unit) c s := by
  rw [closeAngle, run_bind_ok (run_get c s), if_neg (by simp [h]), acceptOperator,
    run_bind_ok (run_accept_of_ne hgt), if_neg (by simp), atOperator,
    run_bind_ok (run_at? _ c s), if_neg (by simpa using hshr)]

lemma run_attempt (p : Parser α) (c s) : attempt p c s = (.ok (p c s).1, (p c s).2) :=
  rfl

lemma run_nested_of_le {p : Parser α} (h : nestingLimit ≤ c.depth) :
    nested p c s = (.error ⟨.nestingTooDeep, (s.peek c.finish).span⟩, s.toGroupEnd) := by
  rw [nested, run_bind_ok (run_read c s), if_pos h]
  rfl

lemma run_nested_of_lt {p : Parser α} (h : c.depth < nestingLimit) :
    nested p c s = p { c with depth := c.depth + 1 } s := by
  rw [nested, run_bind_ok (run_read c s), if_neg (Nat.not_le.2 h)]
  rfl

/-! ### Repetition -/

lemma run_iterate_error {step} {b : β} {e} (h : step b c s = (.error e, s')) :
    iterate step b c s = (.error e, s') := by
  rw [iterate, iterateFrom, h]

lemma run_iterate_none {step} {b : β} (h : step b c s = (.ok none, s')) : iterate step b c s = (.ok b, s') := by
  rw [iterate, iterateFrom, h]

lemma run_iterate_some {step} {b b' : β} (h : step b c s = (.ok (some b'), s'))
    (hlt : s'.rest.length < s.rest.length) : iterate step b c s = iterate step b' c s' := by
  rw [iterate, iterateFrom, h]
  exact if_pos hlt

lemma run_iterate_stuck {step} {b b' : β} (h : step b c s = (.ok (some b'), s'))
    (hge : ¬ s'.rest.length < s.rest.length) : iterate step b c s = (.ok b', s') := by
  rw [iterate, iterateFrom, h]
  exact if_neg hge

/-- The rounds of a repetition that give a result. -/
inductive Rounds (step : β → Parser (Option β)) (c : ParseContext) :
    β → ParseState → ParseResult β → Prop where
  | error {b s e s'} :
    step b c s = (.error e, s') →
    Rounds step c b s (.error e, s')
  | last {b s s'} :
    step b c s = (.ok none, s') →
    Rounds step c b s (.ok b, s')
  | stuck {b s b' s'} :
    step b c s = (.ok (some b'), s') →
    ¬ s'.rest.length < s.rest.length →
    Rounds step c b s (.ok b', s')
  | next {b s b' s' r} :
    step b c s = (.ok (some b'), s') →
    s'.rest.length < s.rest.length →
    Rounds step c b' s' r →
    Rounds step c b s r

/-- The induction is on the number of tokens left. -/
lemma rounds_iterate (step : β → Parser (Option β)) (b : β) (c) (s : ParseState) :
    Rounds step c b s (iterate step b c s) := by
  induction hlen : s.rest.length using Nat.strongRecOn generalizing b s with
  | _ n ih =>
    cases h : step b c s with
    | mk o s' =>
      match o with
      | .error e =>
        rw [run_iterate_error h]
        exact .error h
      | .ok none =>
        rw [run_iterate_none h]
        exact .last h
      | .ok (some b') =>
        by_cases hlt : s'.rest.length < s.rest.length
        · rw [run_iterate_some h hlt]
          exact .next h hlt (ih _ (hlen ▸ hlt) b' s' rfl)
        · rw [run_iterate_stuck h hlt]
          exact .stuck h hlt

lemma iterate_invariant {step} {P : ParseState → Prop}
    (hstep : ∀ b s o s', step b c s = (.ok o, s') → P s → P s')
    {b b' : β} (h : iterate step b c s = (.ok b', s')) (hs : P s) : P s' := by
  have hrounds := rounds_iterate step b c s
  rw [h] at hrounds
  clear h
  generalize hr : (Except.ok b', s') = r at hrounds
  induction hrounds with
  | error _ => cases hr
  | last hlast =>
    cases hr
    exact hstep _ _ _ _ hlast hs
  | stuck hstuck _ =>
    cases hr
    exact hstep _ _ _ _ hstuck hs
  | next hnext _ _ ih => exact ih (hstep _ _ _ _ hnext hs) hr

/-! ### Recovery -/

lemma run_atClose (c s) :
    atClose c s = (.ok (decide ((s.peek c.finish).kind = .punctuation .rBrace ∨
      (s.peek c.finish).kind = .eof)), s) := by
  rw [atClose, atMark, run_bind_ok (run_at? _ c s)]
  by_cases hbrace : (s.peek c.finish).kind = .punctuation .rBrace
  · simp [hbrace, run_pure]
  · simp [hbrace, atEnd, run_at?]

lemma run_atClose_true (h : (s.peek c.finish).kind = .punctuation .rBrace ∨ (s.peek c.finish).kind = .eof) :
    atClose c s = (.ok true, s) := by
  rw [run_atClose, decide_eq_true h]

lemma run_atClose_false (h : ¬ ((s.peek c.finish).kind = .punctuation .rBrace ∨ (s.peek c.finish).kind = .eof)) :
    atClose c s = (.ok false, s) := by
  rw [run_atClose, decide_eq_false h]

section

variable {ensure : List Token → Parser Unit} {stop : Parser Bool} {item : Parser α}
  {recover : ParseState → ParseState} {items : List α} {s₁ : ParseState}

lemma run_roundWith_stop (h : stop c s = (.ok true, s₁)) :
    roundWith ensure stop item recover items c s = (.ok none, s₁) := by
  rw [roundWith, run_bind_ok h]
  rfl

lemma run_roundWith_ok {a} (h : stop c s = (.ok false, s₁)) (hitem : item c s₁ = (.ok a, s')) :
    roundWith ensure stop item recover items c s = (.ok (some (items ++ [a])), s') := by
  have hattempt : attempt item c s₁ = (.ok (.ok a), s') := by rw [run_attempt, hitem]
  rw [roundWith, run_bind_ok h]
  simp only [Bool.false_eq_true, ↓reduceIte]
  rw [run_bind_ok (run_get c s₁), run_bind_ok hattempt]
  rfl

lemma run_roundWith_error {e s₂} (h : stop c s = (.ok false, s₁)) (hitem : item c s₁ = (.error e, s'))
    (hensure : ensure s₁.rest c (recover (s'.report e)) = (.ok (), s₂)) :
    roundWith ensure stop item recover items c s = (.ok (some items), s₂) := by
  have hattempt : attempt item c s₁ = (.ok (.error e), s') := by rw [run_attempt, hitem]
  rw [roundWith, run_bind_ok h]
  simp only [Bool.false_eq_true, ↓reduceIte]
  rw [run_bind_ok (run_get c s₁), run_bind_ok hattempt]
  exact run_bind_ok hensure _

/-- Go on after a failed value, and pass over one token if that is its place. -/
def resume (recover : ParseState → ParseState) (before : ParseState) (e : Report GrammarProblem)
    (s : ParseState) : ParseState :=
  if (recover (s.report e)).rest.length = before.rest.length then (recover (s.report e)).advance
  else recover (s.report e)

lemma run_ensureProgress (c s before) :
    ensureProgress before c s = (.ok (), if s.rest.length = before.length then s.advance else s) := by
  rw [ensureProgress, run_bind_ok (run_get c s)]
  split
  · rfl
  · rfl

lemma run_ensureProgressInBlock {before : List Token}
    (h : s.rest.length = before.length → (s.peek c.finish).kind ≠ .punctuation .rBrace) :
    ensureProgressInBlock before c s = ensureProgress before c s := by
  rw [ensureProgressInBlock, ensureProgress, run_bind_ok (run_get c s), run_bind_ok (run_get c s), atMark,
    run_bind_ok (run_at? _ c s)]
  by_cases hlength : s.rest.length = before.length
  · simp [hlength, h hlength]
  · simp [hlength]

lemma run_recoverRound_stop (h : stop c s = (.ok true, s₁)) :
    recoverRound stop item recover items c s = (.ok none, s₁) :=
  run_roundWith_stop h

lemma run_recoverRound_ok {a} (h : stop c s = (.ok false, s₁)) (hitem : item c s₁ = (.ok a, s')) :
    recoverRound stop item recover items c s = (.ok (some (items ++ [a])), s') :=
  run_roundWith_ok h hitem

lemma run_recoverRound_error {e} (h : stop c s = (.ok false, s₁)) (hitem : item c s₁ = (.error e, s')) :
    recoverRound stop item recover items c s = (.ok (some items), resume recover s₁ e s') :=
  run_roundWith_error h hitem (run_ensureProgress c _ _)

end

/-! ### Productions -/

/-- The parsers of productions where fewer than `n` tokens are left. -/
def guarded (n : Nat) : Subparsers :=
  fun q c s =>
    if s.rest.length < n then parseAt q c s
    else (.error ⟨.nestingTooDeep, (s.peek c.finish).span⟩, s)

lemma guarded_of_lt (h : s.rest.length < n) (q) : guarded n q c s = rule (guarded s.rest.length) q c s := by
  rw [guarded, if_pos h, parseAt]
  rfl

lemma guarded_of_not_lt (h : ¬ s.rest.length < n) (q) :
    guarded n q c s = (.error ⟨.nestingTooDeep, (s.peek c.finish).span⟩, s) :=
  if_neg h

lemma run_grammar (h : s.rest.length < n) (q) : grammar q c s = guarded n q c s := by
  rw [guarded, if_pos h]
  rfl

/-! ### Type arguments in expressions -/

def opensLiteral (c : ParseContext) (s : ParseState) : Bool :=
  c.structLiterals && (s.peek c.finish).kind = .punctuation .lBrace &&
    startsFields (s.peekAt c.finish 1).kind (s.peekAt c.finish 2).kind

lemma run_atStructLiteral (c s) : atStructLiteral c s = (.ok (opensLiteral c s), s) :=
  rfl

/-- Whether what follows type arguments shows that they are some. -/
def confirmsTypeArgs (c : ParseContext) (s : ParseState) : Bool :=
  !s.splitAngle && ((s.peek c.finish).kind = .punctuation .colonColon || opensLiteral c s)

lemma run_genericSuffix_some {sub args} (h : typeArgs sub c s = (.ok args, s')) (hnext : confirmsTypeArgs c s' = true) :
    genericSuffix sub c s = (.ok (some args), s') := by
  have hattempt : attempt (typeArgs sub) c s = (.ok (.ok args), s') := by rw [run_attempt, h]
  rw [confirmsTypeArgs, Bool.and_eq_true] at hnext
  obtain ⟨hsplit, hfollow⟩ := hnext
  rw [genericSuffix, run_bind_ok (run_get c s), run_bind_ok hattempt]
  dsimp only
  rw [run_bind_ok (run_get c s'), if_pos hsplit, atMark, run_bind_ok (run_at? _ c s')]
  by_cases hcolon : (s'.peek c.finish).kind = .punctuation .colonColon
  · rw [if_pos (decide_eq_true hcolon)]
    rfl
  · rw [if_neg (by simpa using hcolon), run_bind_ok (run_atStructLiteral c s'),
    if_pos (by simpa [hcolon] using hfollow)]
    rfl

lemma run_genericSuffix_none {sub}
    (h : ∀ args s', typeArgs sub c s = (.ok args, s') → confirmsTypeArgs c s' = false) :
    genericSuffix sub c s = (.ok none, s) := by
  cases hrun : typeArgs sub c s with
  | mk o s' =>
    have hattempt : attempt (typeArgs sub) c s = (.ok o, s') := by rw [run_attempt, hrun]
    rw [genericSuffix, run_bind_ok (run_get c s), run_bind_ok hattempt]
    cases o with
    | error e => rfl
    | ok args =>
      have hnext := h args s' hrun
      dsimp only
      rw [run_bind_ok (run_get c s')]
      cases hsplit : s'.splitAngle with
      | true => rfl
      | false =>
        simp only [confirmsTypeArgs, hsplit, Bool.not_false, Bool.true_and, Bool.or_eq_false_iff,
          decide_eq_false_iff_not] at hnext
        rw [if_pos (by simp), atMark, run_bind_ok (run_at? _ c s'), if_neg (by simpa using hnext.1),
          run_bind_ok (run_atStructLiteral c s'), if_neg (by simp [hnext.2])]
        rfl

lemma run_genericSuffix_cases (sub c s) :
    (∃ args s', typeArgs sub c s = (.ok args, s') ∧ confirmsTypeArgs c s' = true ∧
      genericSuffix sub c s = (.ok (some args), s')) ∨
    ((∀ args s', typeArgs sub c s = (.ok args, s') → confirmsTypeArgs c s' = false) ∧
      genericSuffix sub c s = (.ok none, s)) := by
  by_cases hargs : ∃ args s', typeArgs sub c s = (.ok args, s') ∧ confirmsTypeArgs c s' = true
  · obtain ⟨args, s', hrun, hconfirms⟩ := hargs
    exact .inl ⟨args, s', hrun, hconfirms, run_genericSuffix_some hrun hconfirms⟩
  · have hnone : ∀ args s', typeArgs sub c s = (.ok args, s') → confirmsTypeArgs c s' = false := by
      intro args s' hrun
      simpa using fun hconfirms => hargs ⟨args, s', hrun, hconfirms⟩
    exact .inr ⟨hnone, run_genericSuffix_none hnone⟩

end Parser

end SourceCheck
