import Mathlib.Data.List.Infix
import Mathlib.Logic.Relation
import SourceCheck.Proofs.Parse.Runs

/-!
# Steady parsers

Problems are only added while parsers run, and none recorded before is looked at. Tokens are only read from the front.
-/

open SourceCheck.Parser

namespace SourceCheck

variable {s' : ParseState}

/-- Before and behind one token that is no end mark. -/
inductive ReadsOne : Token × List Token → Token × List Token → Prop where
  | read {p t rest} :
    t.kind ≠ .eof →
    ReadsOne (p, t :: rest) (t, rest)

abbrev Leaves : Token × List Token → Token × List Token → Prop :=
  Relation.ReflTransGen ReadsOne

lemma Leaves.suffix {x y} (h : Leaves x y) : y.2 <:+ x.2 := by
  induction h with
  | refl => exact List.suffix_refl _
  | tail _ hread ih =>
    cases hread
    exact (List.suffix_cons _ _).trans ih

namespace ParseState

def cursor (s : ParseState) : Token × List Token :=
  (s.previous, s.rest)

/-- States that differ at most in the problems recorded. -/
structure Like (s t : ParseState) : Prop where
  rest : s.rest = t.rest
  previous : s.previous = t.previous
  splitAngle : s.splitAngle = t.splitAngle

/-- Problems are only added, and too deep nesting is noticed. -/
def Grown (s t : ParseState) : Prop :=
  ∃ more, t.problems = s.problems ++ more ∧ t.tooDeep = (s.tooDeep || more.any fun r => r.cause = .nestingTooDeep)

lemma Like.symm {s t : ParseState} (h : s.Like t) : t.Like s :=
  ⟨h.rest.symm, h.previous.symm, h.splitAngle.symm⟩

lemma Grown.refl (s : ParseState) : s.Grown s :=
  ⟨[], by simp, by simp⟩

lemma Grown.of_eq {s t : ParseState} (hproblems : t.problems = s.problems) (hdeep : t.tooDeep = s.tooDeep) :
    s.Grown t :=
  ⟨[], by simp [hproblems], by simp [hdeep]⟩

lemma Grown.trans {s t u : ParseState} (h : s.Grown t) (h' : t.Grown u) : s.Grown u := by
  obtain ⟨more, hproblems, hdeep⟩ := h
  obtain ⟨more', hproblems', hdeep'⟩ := h'
  refine ⟨more ++ more', ?_, ?_⟩
  · rw [hproblems', hproblems, List.append_assoc]
  · rw [hdeep', hdeep, List.any_append, Bool.or_assoc]

lemma grown_report (s : ParseState) (r) : s.Grown (s.report r) := by
  unfold report
  split
  · rename_i hdeep
    split
    · exact .refl s
    · exact ⟨[r], rfl, by simp [hdeep]⟩
  · rename_i hother
    exact ⟨[r], rfl, by simp [hother]⟩

lemma Like.report {s t : ParseState} (h : s.Like t) (r) : (s.report r).Like (t.report r) :=
  ⟨by simp [h.rest], by simp [h.previous], by simp [h.splitAngle]⟩

lemma Like.advance {s t : ParseState} (h : s.Like t) : s.advance.Like t.advance := by
  have hrest := h.rest
  unfold ParseState.advance
  rw [hrest]
  split
  · split
    · exact h
    · exact ⟨rfl, rfl, h.splitAngle⟩
  · exact h

/-- Problems are only added, and tokens before the end are only read. -/
structure Onward (s t : ParseState) : Prop where
  grown : s.Grown t
  leaves : Leaves s.cursor t.cursor

lemma Onward.refl (s : ParseState) : s.Onward s :=
  ⟨.refl s, .refl⟩

lemma Onward.trans {s t u : ParseState} (h : s.Onward t) (h' : t.Onward u) : s.Onward u :=
  ⟨h.grown.trans h'.grown, h.leaves.trans h'.leaves⟩

lemma Onward.suffix {s t : ParseState} (h : s.Onward t) : t.rest <:+ s.rest :=
  h.leaves.suffix

lemma onward_advance (s : ParseState) : s.Onward s.advance := by
  refine ⟨.of_eq (by simp) (by simp), ?_⟩
  cases hrest : s.rest with
  | nil => rw [advance_of_rest_nil hrest]
  | cons t rest =>
    by_cases hend : t.kind = .eof
    · rw [advance, hrest]
      simpa [hend] using .refl
    · rw [advance_of_rest_cons hrest hend, cursor, hrest]
      exact .single (.read hend)

lemma onward_whole (s : ParseState) : s.Onward { s with splitAngle := false } :=
  ⟨.of_eq rfl rfl, .refl⟩

@[simp] lemma report_cursor (s : ParseState) (r) : (s.report r).cursor = s.cursor := by
  simp [cursor]

lemma onward_report (s : ParseState) (r) : s.Onward (s.report r) :=
  ⟨s.grown_report r, by rw [report_cursor]⟩

lemma Like.peek {s t : ParseState} (h : s.Like t) (finish) : s.peek finish = t.peek finish := by
  rw [ParseState.peek, h.rest]
  rfl

end ParseState

/-- Parsers that give the same from like states, only add problems and read no end mark. -/
structure Steady {α : Type} (p : Parser α) : Prop where
  blind (c : ParseContext) {s t : ParseState} :
    s.Like t → (p c s).1 = (p c t).1 ∧ (p c s).2.Like (p c t).2
  onward (c : ParseContext) (s : ParseState) : s.Onward (p c s).2

variable {c : ParseContext}

namespace Steady

variable {α β : Type}

lemma run_like {p} (h : Steady p) {s t} {o : Except (Report GrammarProblem) α} (hs : p c s = (o, s'))
    (hlike : s.Like t) : ∃ t', p c t = (o, t') ∧ s'.Like t' := by
  obtain ⟨hout, hlike'⟩ := h.blind c hlike
  rw [hs] at hout hlike'
  exact ⟨(p c t).2, Prod.ext hout.symm rfl, hlike'⟩

lemma onward_run {p} (h : Steady p) {s}
    {o : Except (Report GrammarProblem) α} (hs : p c s = (o, s')) : s.Onward s' := by
  have honward := h.onward c s
  rwa [hs] at honward

lemma pure (a : α) : Steady (Pure.pure a : Parser α) where
  blind _ _ _ h := ⟨rfl, h⟩
  onward _ s := .refl s

lemma bind {p : Parser α} {k : α → Parser β} (hp : Steady p) (hk : ∀ a, Steady (k a)) : Steady (p >>= k) where
  blind c s t h := by
    cases hs : p c s with
    | mk o s' =>
      obtain ⟨t', ht, hlike⟩ := hp.run_like hs h
      cases o with
      | error e =>
        rw [run_bind_error hs, run_bind_error ht]
        exact ⟨rfl, hlike⟩
      | ok a =>
        rw [run_bind_ok hs, run_bind_ok ht]
        exact (hk a).blind c hlike
  onward c s := by
    rcases hs : p c s with ⟨e | a, s'⟩
    · rw [run_bind_error hs]
      exact hp.onward_run hs
    · rw [run_bind_ok hs]
      exact (hp.onward_run hs).trans ((hk a).onward c s')

lemma look {p : Parser α} (f : ParseContext → ParseState → α)
    (hf : ∀ c {s t}, s.Like t → f c s = f c t) (hp : ∀ c s, p c s = (.ok (f c s), s)) : Steady p where
  blind c s t h := by
    rw [hp, hp, hf c h]
    exact ⟨rfl, h⟩
  onward c s := by
    rw [hp]
    exact .refl s

lemma here : Steady Parser.here :=
  look (fun c s => (s.peek c.finish).span) (fun c _ _ h => by rw [h.peek]) run_here

lemma peek : Steady Parser.peek :=
  look (fun c s => s.peek c.finish) (fun _ _ _ h => h.peek _) run_peek

lemma peekKind : Steady Parser.peekKind :=
  look (fun c s => (s.peek c.finish).kind) (fun c _ _ h => by rw [h.peek]) run_peekKind

lemma peekAt (n) : Steady (Parser.peekAt n) :=
  look (fun c s => s.peekAt c.finish n) (fun _ _ _ h => by rw [ParseState.peekAt, h.rest]; rfl)
    fun _ _ => rfl

lemma read : Steady (MonadReader.read : Parser ParseContext) :=
  look (fun c _ => c) (fun _ _ _ _ => rfl) fun _ _ => rfl

lemma at? (kind : TokenKind) : Steady (Parser.at? kind) :=
  look (fun c s => decide ((s.peek c.finish).kind = kind)) (fun c _ _ h => by rw [h.peek]) (run_at? kind)

lemma since (start) : Steady (Parser.since start) :=
  look (fun _ s => if s.previous.span.stop < start.start then start else start.merge s.previous.span)
    (fun _ _ _ h => by rw [h.previous]) fun _ _ => rfl

lemma doneSince {start} {f : Span → α} : Steady (Parser.since start >>= fun span => Pure.pure (f span)) :=
  (since start).bind fun _ => pure _

lemma advance : Steady Parser.advance where
  blind c s t h := by
    rw [run_advance, run_advance, h.advance.previous]
    exact ⟨rfl, h.advance⟩
  onward _ s := s.onward_advance

lemma discard {p : Parser α} (h : Steady p) : Steady (Functor.discard p) :=
  h.bind fun _ => pure _

lemma failAt (span : Span) (cause) : Steady (Parser.failAt span cause : Parser α) where
  blind _ _ _ h := ⟨rfl, h⟩
  onward _ s := .refl s

lemma expected (what) : Steady (Parser.expected what : Parser α) :=
  peekKind.bind fun _ => here.bind fun _ => failAt _ _

lemma accept (kind : TokenKind) : Steady (Parser.accept kind) := by
  refine (at? kind).bind fun b => ?_
  split
  · exact advance.discard.bind fun _ => pure _
  · exact pure _

lemma expect (kind what) : Steady (Parser.expect kind what) := by
  refine (at? kind).bind fun b => ?_
  split
  · exact advance
  · exact expected what

lemma report (span : Span) (cause) : Steady (Parser.report span cause) where
  blind _ _ _ h := ⟨rfl, h.report _⟩
  onward _ s := s.onward_report _

lemma closeAngle : Steady Parser.closeAngle where
  blind c s t h := by
    have hpeek := h.peek c.finish
    cases hsplit : s.splitAngle with
    | true =>
      rw [run_closeAngle_of_split hsplit, run_closeAngle_of_split (h.splitAngle ▸ hsplit)]
      exact ⟨rfl, ParseState.Like.advance ⟨h.rest, h.previous, rfl⟩⟩
    | false =>
      have hsplit' : t.splitAngle = false := h.splitAngle ▸ hsplit
      by_cases hgt : (s.peek c.finish).kind = .operator .gt
      · rw [run_closeAngle_gt hsplit hgt, run_closeAngle_gt hsplit' (hpeek ▸ hgt)]
        exact ⟨rfl, h.advance⟩
      · by_cases hshr : (s.peek c.finish).kind = .operator .shr
        · rw [run_closeAngle_shr hsplit hshr, run_closeAngle_shr hsplit' (hpeek ▸ hshr)]
          exact ⟨rfl, h.rest, h.previous, rfl⟩
        · rw [run_closeAngle_error hsplit hgt hshr, run_closeAngle_error hsplit' (hpeek ▸ hgt) (hpeek ▸ hshr)]
          exact (expected _).blind c h
  onward c s := by
    cases hsplit : s.splitAngle with
    | true =>
      rw [run_closeAngle_of_split hsplit]
      exact s.onward_whole.trans (ParseState.onward_advance _)
    | false =>
      by_cases hgt : (s.peek c.finish).kind = .operator .gt
      · rw [run_closeAngle_gt hsplit hgt]
        exact s.onward_advance
      · by_cases hshr : (s.peek c.finish).kind = .operator .shr
        · rw [run_closeAngle_shr hsplit hshr]
          exact ⟨.of_eq rfl rfl, .refl⟩
        · rw [run_closeAngle_error hsplit hgt hshr]
          exact .refl s

lemma opensLiteral_like (c : ParseContext) {s t} (h : s.Like t) : opensLiteral c s = opensLiteral c t := by
  rw [opensLiteral, h.peek, ParseState.peekAt, ParseState.peekAt, h.rest]
  rfl

lemma confirmsTypeArgs_like (c : ParseContext) {s t} (h : s.Like t) : confirmsTypeArgs c s = confirmsTypeArgs c t := by
  rw [confirmsTypeArgs, h.splitAngle, h.peek, opensLiteral_like c h]
  rfl

lemma atStructLiteral : Steady Parser.atStructLiteral :=
  look opensLiteral opensLiteral_like run_atStructLiteral

lemma genericSuffix {sub : Subparsers} (h : Steady (Parser.typeArgs sub)) : Steady (Parser.genericSuffix sub) where
  blind c s t hlike := by
    obtain ⟨args, s', hs, hconfirms, hrun⟩ | ⟨hnone, hrun⟩ := run_genericSuffix_cases sub c s
    · obtain ⟨t', ht, hlike'⟩ := h.run_like hs hlike
      rw [confirmsTypeArgs_like c hlike'] at hconfirms
      rw [hrun, run_genericSuffix_some ht hconfirms]
      exact ⟨rfl, hlike'⟩
    · rw [hrun, run_genericSuffix_none]
      · exact ⟨rfl, hlike⟩
      · intro args t' ht
        obtain ⟨s', hs, hlike'⟩ := h.run_like ht hlike.symm
        rw [confirmsTypeArgs_like c hlike']
        exact hnone args s' hs
  onward c s := by
    obtain ⟨args, s', hs, -, hrun⟩ | ⟨-, hrun⟩ := run_genericSuffix_cases sub c s
    · rw [hrun]
      exact h.onward_run hs
    · rw [hrun]
      exact .refl s

/-! ### Context -/

lemma withReader {p : Parser α} (h : Steady p) (g : ParseContext → ParseContext) :
    Steady (MonadWithReader.withReader g p) where
  blind c _ _ hlike := h.blind (g c) hlike
  onward c s := h.onward (g c) s

structure Moves (move : ParseState → ParseState) : Prop where
  like {s t : ParseState} : s.Like t → (move s).Like (move t)
  onward (s : ParseState) : s.Onward (move s)

lemma moves {move} (h : Moves move) : Steady (modify move : Parser Unit) where
  blind _ _ _ hlike := ⟨rfl, h.like hlike⟩
  onward _ s := h.onward s

lemma moves_moveTo {find : Token → List Token → Token × List Token} (h : ∀ t ts, Leaves (t, ts) (find t ts)) :
    Moves (·.moveTo find) where
  like hlike := by
    rw [ParseState.moveTo, ParseState.moveTo, hlike.rest, hlike.previous]
    exact ⟨rfl, rfl, hlike.splitAngle⟩
  onward s := ⟨.of_eq rfl rfl, h s.previous s.rest⟩

lemma Moves.whole {move} (h : Moves move) : Moves fun s => move { s with splitAngle := false } where
  like hlike := h.like ⟨hlike.rest, hlike.previous, rfl⟩
  onward s := s.onward_whole.trans (h.onward _)

lemma leaves_toGroupEnd (previous depth rest) : Leaves (previous, rest) (Recovery.toGroupEnd previous depth rest) := by
  induction rest generalizing previous depth with
  | nil => exact .refl
  | cons t rest ih =>
    unfold Recovery.toGroupEnd
    by_cases hend : t.kind = .eof
    · simpa [hend] using .refl
    have hpass (depth : Nat) : Leaves (previous, t :: rest) (Recovery.toGroupEnd t depth rest) :=
      .head (.read hend) (ih t depth)
    split
    case h_1 => exact .refl
    all_goals try exact hpass _
    -- What is left are the three closing brackets.
    all_goals
      split
      · exact .refl
      · exact .single (.read hend)
      · exact hpass _

lemma moves_toGroupEnd : Moves ParseState.toGroupEnd :=
  moves_moveTo fun t => leaves_toGroupEnd t 0

lemma leaves_toDeclaration (previous depth rest) :
    Leaves (previous, rest) (Recovery.toDeclaration previous depth rest) := by
  induction rest generalizing previous depth with
  | nil => exact .refl
  | cons t rest ih =>
    unfold Recovery.toDeclaration
    by_cases hend : t.kind = .eof
    · simpa [hend] using .refl
    have hpass (depth : Nat) : Leaves (previous, t :: rest) (Recovery.toDeclaration t depth rest) :=
      .head (.read hend) (ih t depth)
    split
    case h_1 => exact .refl
    all_goals try exact hpass _
    all_goals
      split
      · first | exact .refl | exact .single (.read hend)
      · exact hpass _

lemma moves_toDeclaration : Moves ParseState.toDeclaration :=
  (moves_moveTo fun t => leaves_toDeclaration t 0).whole

lemma nested {p : Parser α} (h : Steady p) : Steady (Parser.nested p) := by
  refine read.bind fun c => ?_
  split
  · exact here.bind fun _ => (moves moves_toGroupEnd).bind fun _ => failAt _ _
  · exact h.withReader _

/-! ### Repetition -/

lemma like_rounds {step} (h : ∀ b, Steady (step b)) {b s t} {r : ParseResult β} (hr : Rounds step c b s r)
    (hlike : s.Like t) :
    r.1 = (Parser.iterate step b c t).1 ∧ r.2.Like (Parser.iterate step b c t).2 := by
  induction hr generalizing t with
  | error hs =>
    obtain ⟨t', ht, hlike'⟩ := (h _).run_like hs hlike
    rw [run_iterate_error ht]
    exact ⟨rfl, hlike'⟩
  | last hs =>
    obtain ⟨t', ht, hlike'⟩ := (h _).run_like hs hlike
    rw [run_iterate_none ht]
    exact ⟨rfl, hlike'⟩
  | stuck hs hge =>
    obtain ⟨t', ht, hlike'⟩ := (h _).run_like hs hlike
    rw [hlike.rest, hlike'.rest] at hge
    rw [run_iterate_stuck ht hge]
    exact ⟨rfl, hlike'⟩
  | next hs hlt _ ih =>
    obtain ⟨t', ht, hlike'⟩ := (h _).run_like hs hlike
    rw [hlike.rest, hlike'.rest] at hlt
    rw [run_iterate_some ht hlt]
    exact ih hlike'

lemma onward_rounds {step : β → Parser (Option β)} (h : ∀ b, Steady (step b)) {b s r}
    (hr : Rounds step c b s r) : s.Onward r.2 := by
  induction hr with
  | error hs | last hs | stuck hs _ => exact (h _).onward_run hs
  | next hs _ _ ih => exact ((h _).onward_run hs).trans ih

lemma iterate {step} (h : ∀ b, Steady (step b)) (b : β) : Steady (Parser.iterate step b) where
  blind c s _ hlike := like_rounds h (rounds_iterate step b c s) hlike
  onward c s := onward_rounds h (rounds_iterate step b c s)

lemma grown_next {step : β → Parser (Option β)} (h : ∀ b, Steady (step b)) {b b' s}
    (hs : step b c s = (.ok (some b'), s')) : s'.Grown (Parser.iterate step b c s).2 := by
  by_cases hlt : s'.rest.length < s.rest.length
  · rw [run_iterate_some hs hlt]
    exact ((iterate h b').onward c s').grown
  · rw [run_iterate_stuck hs hlt]
    exact .refl s'

/-! ### Recovery -/

lemma like_resume {recover} (hrecover : Moves recover) {s t t'} (h : s.Like t)
    (h' : s'.Like t') (e) : (resume recover s e s').Like (resume recover t e t') := by
  have hlike := hrecover.like (h'.report e)
  unfold resume
  rw [hlike.rest, h.rest]
  split
  · exact hlike.advance
  · exact hlike

lemma onward_resume {recover} (hrecover : Moves recover) (s s' : ParseState)
    (e) : (s'.report e).Onward (resume recover s e s') := by
  have hmove := hrecover.onward (s'.report e)
  unfold resume
  split
  · exact hmove.trans (ParseState.onward_advance _)
  · exact hmove

lemma recoverRound {stop} {item : Parser α} {recover} (f : ParseContext → ParseState → Bool)
    (hf : ∀ c {s t}, s.Like t → f c s = f c t) (hstop : ∀ c s, stop c s = (.ok (f c s), s)) (hitem : Steady item)
    (hrecover : Moves recover) (items : List α) : Steady (Parser.recoverRound stop item recover items) where
  blind c s t h := by
    have hs := hstop c s
    have ht := hstop c t
    rw [← hf c h] at ht
    cases hstops : f c s with
    | true =>
      rw [hstops] at hs ht
      rw [run_recoverRound_stop hs, run_recoverRound_stop ht]
      exact ⟨rfl, h⟩
    | false =>
      rw [hstops] at hs ht
      cases hrun : item c s with
      | mk o s' =>
        obtain ⟨t', hrun', hlike⟩ := hitem.run_like hrun h
        cases o with
        | ok a =>
          rw [run_recoverRound_ok hs hrun, run_recoverRound_ok ht hrun']
          exact ⟨rfl, hlike⟩
        | error e =>
          rw [run_recoverRound_error hs hrun, run_recoverRound_error ht hrun']
          exact ⟨rfl, like_resume hrecover h hlike e⟩
  onward c s := by
    have hs := hstop c s
    cases hstops : f c s with
    | true =>
      rw [hstops] at hs
      rw [run_recoverRound_stop hs]
      exact .refl s
    | false =>
      rw [hstops] at hs
      rcases hrun : item c s with ⟨e | a, s'⟩
      · rw [run_recoverRound_error hs hrun]
        exact ((hitem.onward_run hrun).trans (s'.onward_report e)).trans (onward_resume hrecover s s' e)
      · rw [run_recoverRound_ok hs hrun]
        exact hitem.onward_run hrun

/-- In a block a round starts at no closing brace, so that none is met where a token is passed over. -/
lemma recoverRoundInBlock_eq {item : Parser α} {recover} (hitem : Steady item) (hrecover : Moves recover) :
    recoverRoundInBlock item recover = Parser.recoverRound atClose item recover := by
  funext items c s
  rw [recoverRoundInBlock, Parser.recoverRound]
  by_cases hclose : (s.peek c.finish).kind = .punctuation .rBrace ∨ (s.peek c.finish).kind = .eof
  · rw [run_roundWith_stop (run_atClose_true hclose), run_roundWith_stop (run_atClose_true hclose)]
  have hstop := run_atClose_false hclose
  rcases hrun : item c s with ⟨e | a, s'⟩
  · have hsuffix := ((hitem.onward_run hrun).trans ((s'.onward_report e).trans (hrecover.onward _))).suffix
    have hensure := run_ensureProgress c (recover (s'.report e)) s.rest
    rw [run_roundWith_error hstop hrun hensure, run_roundWith_error hstop hrun]
    rw [run_ensureProgressInBlock, hensure]
    intro hlength hbrace
    rw [ParseState.peek, hsuffix.eq_of_length hlength] at hbrace
    exact hclose (.inl hbrace)
  · rw [run_roundWith_ok hstop hrun, run_roundWith_ok hstop hrun]

end Steady

end SourceCheck
