import SourceCheck.Proofs.Parse.Productions

/-!
# Progress

All that is read has at least one token. So every round of a loop that recovers ends it or reads a token, and a module
is read to its end.
-/

open SourceCheck.Parser

namespace SourceCheck

open ParseState Steady Paced

variable {α β : Type} {kind : TokenKind} {what : String} {sub : Subparsers} {c : ParseContext} {s s' t : ParseState}

lemma ParseState.rest_ne_nil (hfinish : c.finish.kind = .eof) (h : (s.peek c.finish).kind ≠ .eof) :
    s.rest ≠ [] := by
  intro hrest
  rw [peek, hrest] at h
  exact h hfinish

/-- Parsers that read a token unless they fail, where such a token comes next. -/
def Consumes (kind : TokenKind) (p : Parser α) : Prop :=
  ∀ c s a s', c.finish.kind = .eof → (s.peek c.finish).kind = kind → p c s = (.ok a, s') →
    s'.rest.length < s.rest.length

namespace Consumes

variable {p : Parser α} {k : α → Parser β}

lemma left (hp : Consumes kind p) (hk : ∀ a, Steady (k a)) : Consumes kind (p >>= k) := by
  intro c s b s' hfinish hkind hrun
  obtain ⟨a, s₁, hp', hrun⟩ := run_bind_eq_ok hrun
  exact Nat.lt_of_le_of_lt ((hk a).onward_run hrun).suffix.length_le (hp c s a s₁ hfinish hkind hp')

lemma right (hp : Steady p) (hk : ∀ a kind, Consumes kind (k a)) : Consumes kind (p >>= k) := by
  intro c s b s' hfinish _ hrun
  obtain ⟨a, s₁, hp', hrun⟩ := run_bind_eq_ok hrun
  exact Nat.lt_of_lt_of_le (hk a _ c s₁ b s' hfinish rfl hrun) (hp.onward_run hp').suffix.length_le

lemma here {k : Span → Parser β} (hk : ∀ span, Consumes kind (k span)) : Consumes kind (Parser.here >>= k) :=
  fun c s b s' hfinish hkind hrun => hk _ c s b s' hfinish hkind hrun

lemma peekKind {k : TokenKind → Parser β} (hk : Consumes kind (k kind)) : Consumes kind (Parser.peekKind >>= k) := by
  intro c s b s' hfinish hkind hrun
  rw [run_bind_ok (run_peekKind c s), hkind] at hrun
  exact hk c s b s' hfinish hkind hrun

lemma at? {other} {k : Bool → Parser β} (hk : ∀ b, Consumes kind (k b)) : Consumes kind (Parser.at? other >>= k) :=
  fun c s b s' hfinish hkind hrun => hk _ c s b s' hfinish hkind hrun

lemma expected : Consumes kind (Parser.expected what : Parser α) := by
  intro c s a s' _ _ hrun
  cases hrun

lemma failAt {span cause} : Consumes kind (Parser.failAt span cause : Parser α) := by
  intro c s a s' _ _ hrun
  cases hrun

lemma advance (hend : kind ≠ .eof) : Consumes kind Parser.advance := by
  intro c s a s' hfinish hkind hrun
  cases hrun
  exact advance_shorter (s.rest_ne_nil hfinish (hkind ▸ hend)) (hkind ▸ hend)

lemma pass {k : Unit → Parser β} (hk : Steady (k ())) (hend : kind ≠ .eof) :
    Consumes kind (discard Parser.advance >>= k) :=
  discard_bind Parser.advance k ▸ (advance hend).left fun _ => hk

lemma expect {other} (hend : other ≠ .eof) : Consumes kind (Parser.expect other what) := by
  intro c s a s' hfinish hkind hrun
  obtain ⟨hnext, rfl⟩ := run_expect_eq_ok hrun
  exact advance_shorter (s.rest_ne_nil hfinish (hnext ▸ hend)) (hnext ▸ hend)

lemma token {other} {k : Unit → Parser β} (hk : Steady (k ())) (hend : other ≠ .eof) :
    Consumes kind (discard (Parser.expect other what) >>= k) :=
  discard_bind (Parser.expect other what) k ▸ (expect hend).left fun _ => hk

lemma nested (h : ∀ kind, Consumes kind p) : Consumes kind (Parser.nested p) := by
  intro c s a s' hfinish hkind hrun
  by_cases hdepth : nestingLimit ≤ c.depth
  · rw [run_nested_of_le hdepth] at hrun
    cases hrun
  · rw [run_nested_of_lt (Nat.lt_of_not_le hdepth)] at hrun
    exact h kind { c with depth := c.depth + 1 } s a s' hfinish hkind hrun

end Consumes

/-! ### Productions -/

lemma Paced.steady {p : Parser α} {post} (h : Keeps True true p post) : Steady p :=
  h.toSteady

lemma Opens.consumes {p : Parser α} {other post} (h : Opens True true other p post) (hend : other ≠ .eof) :
    Consumes kind p := by
  obtain ⟨what, k, rfl, hk⟩ := h
  exact (Consumes.expect hend).left fun span => (hk span).toSteady

section

variable (h : PacedParts True sub)
include h

end

lemma consumes_itemDecl (annotations visibility) : Consumes kind (itemDecl annotations visibility) := by
  refine .peekKind ?_
  split
  · exact ((Paced.functionDecl _ _ _).consumes (by simp)).left fun _ => .pure _
  · exact ((Paced.structDecl _ _).consumes (by simp)).left fun _ => .pure _
  · exact ((Paced.enumDecl _ _).consumes (by simp)).left fun _ => .pure _
  · exact ((Paced.externDecl _ _).consumes (by simp)).left fun _ => .pure _
  · exact ((Paced.constDecl _ _).consumes (by simp)).left fun _ => .pure _
  · exact .expected

lemma consumes_declaration : Consumes kind declaration := by
  refine .here fun start => .right annotationList.steady fun annotations _ => .at? fun b => ?_
  split
  · exact ((Paced.implBlock annotations).consumes (by simp)).left fun _ => .doneSince
  · have hvisible {kind} : Consumes kind (visibleDecl start annotations) :=
      .right Paced.visibility.steady fun v _ => (consumes_itemDecl annotations v).left fun _ => .doneSince
    refine .at? fun b => ?_
    dsimp only
    split
    · exact .right (here.bind fun _ => .failAt _ _) fun _ _ => hvisible
    · exact hvisible

lemma steady_annotatedDecl (start annotations) : Steady (annotatedDecl start annotations) := by
  have himpl : Paced True false whole (implBlock annotations) whole := (Paced.implBlock annotations).paced rfl
  have hvisibility : Paced.Keeps True true visibility whole := Paced.visibility
  have hitem (v : Visibility) : Paced True false whole (itemDecl annotations v) whole :=
    itemDecl annotations v
  have hvisible : Steady (visibleDecl start annotations) :=
    hvisibility.toSteady.bind fun v => (hitem v).toSteady.bind fun _ => (Steady.since start).bind fun _ => .pure _
  refine (Steady.at? _).bind fun b => ?_
  split
  · exact himpl.toSteady.bind fun _ => (Steady.since start).bind fun _ => .pure _
  · refine (Steady.at? _).bind fun b => ?_
    dsimp only
    split
    · exact (here.bind fun _ => .failAt _ _).bind fun _ => hvisible
    · exact hvisible

lemma run_atEnd (c s) : atEnd c s = (.ok (decide ((s.peek c.finish).kind = .eof)), s) :=
  rfl

lemma steady_declaration : Steady declaration := by
  have hlist : Paced True false whole annotationList whole := annotationList_of fun _ _ h => h.1
  exact here.bind fun _ => hlist.toSteady.bind fun _ => steady_annotatedDecl _ _

abbrev declarationRound : List (Spanned Declaration) → Parser (Option (List (Spanned Declaration))) :=
  recoverRound atEnd declaration ParseState.toDeclaration

lemma steady_declarationRound (items) : Steady (declarationRound items) :=
  .recoverRound (fun c s => decide ((s.peek c.finish).kind = .eof)) (fun c _ _ h => by rw [h.peek]) run_atEnd
    steady_declaration moves_toDeclaration items

def afterImports (c : ParseContext) (s : ParseState) : Bool :=
  !decide ((s.peek c.finish).kind = .keyword .importKw)

abbrev importRound : List (Spanned ImportDecl) → Parser (Option (List (Spanned ImportDecl))) :=
  recoverRound (do return !(← atKeyword .importKw)) importDecl ParseState.toDeclaration

lemma run_afterImports (c s) : (do return !(← atKeyword .importKw) : Parser Bool) c s = (.ok (afterImports c s), s) :=
  rfl

lemma steady_importDecl : Steady importDecl := by
  have himport : Paced True false whole importDecl whole := importDecl.paced rfl
  exact himport.toSteady

lemma steady_importRound (items) : Steady (importRound items) :=
  .recoverRound afterImports (fun c _ _ h => by rw [afterImports, h.peek]; rfl) run_afterImports
    steady_importDecl moves_toDeclaration items

/-! ### Rounds -/

/-- Every round ends the loop, or reads a token and adds at most one value. -/
def Advances (step : List α → Parser (Option (List α))) : Prop :=
  ∀ items c s, c.finish.kind = .eof → step items c s = (.ok none, s) ∨
    ∃ more s', step items c s = (.ok (some more), s') ∧ more.length ≤ items.length + 1 ∧
      s'.rest.length < s.rest.length

section

variable {stop : Parser Bool} {item : Parser α} {recover : ParseState → ParseState}
  {f : ParseContext → ParseState → Bool}

end

/-- A loop that advances ends by itself, with no more values than tokens. -/
lemma Advances.iterate {step} (h : Advances step) (hfinish : c.finish.kind = .eof) (items : List α) (s) :
    ∃ l s', Parser.iterate step items c s = (.ok l, s') ∧ step l c s' = (.ok none, s') ∧
      l.length + s'.rest.length ≤ items.length + s.rest.length := by
  have hrounds := rounds_iterate step items c s
  generalize Parser.iterate step items c s = r at hrounds
  induction hrounds with
  | @error items s e s' hs =>
    obtain hnone | ⟨more, s₁, hsome, -⟩ := h items c s hfinish
    · cases hnone.symm.trans hs
    · cases hsome.symm.trans hs
  | @last items s s' hs =>
    obtain hnone | ⟨more, s₁, hsome, -⟩ := h items c s hfinish
    · cases hnone.symm.trans hs
      exact ⟨items, s, rfl, hs, Nat.le_refl _⟩
    · cases hsome.symm.trans hs
  | @stuck items s items' s' hs hge =>
    obtain hnone | ⟨more, s₁, hsome, -, hlt⟩ := h items c s hfinish
    · cases hnone.symm.trans hs
    · cases hsome.symm.trans hs
      exact absurd hlt hge
  | @next items s items' s' r hs hlt _ ih =>
    obtain hnone | ⟨more, s₁, hsome, hlength, -⟩ := h items c s hfinish
    · cases hnone.symm.trans hs
    · cases hsome.symm.trans hs
      obtain ⟨l, s'', hrun, hlast, hle⟩ := ih
      exact ⟨l, s'', hrun, hlast, by omega⟩

lemma finishOf_kind (tokens) : (finishOf tokens).kind = .eof := by
  unfold finishOf
  split <;> rfl

lemma parse_eq {tokens program}
    (h : Parser.program { finish := finishOf tokens } { rest := tokens, previous := finishOf tokens } =
      (.ok program, t)) : parse tokens = ⟨program, t.problems.map fun r => r.cause.diagnostic r.span⟩ := by
  simp only [parse, h]

end SourceCheck
