import SourceCheck.Proofs.Parse.Nesting
import SourceCheck.Proofs.Parse.Progress

/-!
# Declarations behind broken text

Whatever is wrong with properly nested tokens, a declaration behind them is read as if it stood alone.
-/

open SourceCheck.Parser

namespace SourceCheck

open List ParseState Steady

variable {α : Type} {start : Span} {annotations : List Annotation} {t : ParseState}

variable {skips : Prop} {before after : List Token} {c : ParseContext} {s s' : ParseState}

/-! ### One value -/

lemma Reached.within {post} {r : ParseResult α} (h : Reached skips 0 0 post c s r)
    (hparted : Parted skips before after) (hs : Within before after (0, s.cursor))
    (hspoilt : ¬ r.2.Spoilt skips) (hspoils : ∀ e, r.1 = .error e → ¬ e.cause.Spoils skips) :
    Within before after (0, r.2.cursor) ∧ ∀ a, r.1 = .ok a → post c r.2 := by
  obtain h | ⟨e, he, h⟩ | ⟨hpaces, hok, -⟩ := h
  · exact absurd h hspoilt
  · exact absurd h (hspoils e he)
  · exact ⟨hs.paces hparted hpaces, hok⟩

lemma hashForm_previous {a} (h : hashForm start c s = (.ok a, s')) :
    s'.previous.kind = .punctuation .rBracket ∨ s'.rest = [] := by
  obtain ⟨-, h⟩ := run_token_eq_ok h
  obtain ⟨name, s₁, -, h⟩ := run_bind_eq_ok h
  obtain ⟨args, s₂, -, h⟩ := run_bind_eq_ok h
  obtain ⟨hnext, h⟩ := run_token_eq_ok h
  obtain ⟨span, s₃, hsince, h⟩ := run_bind_eq_ok h
  cases hsince
  cases h
  exact advance_previous hnext (by simp)

lemma annotationName_previous {name} (h : annotationName c s = (.ok name, s')) :
    s'.previous.kind = .ident name ∨ s'.rest = [] := by
  obtain ⟨p, hp, h⟩ := run_peekKind_eq h
  split at hp
  · rename_i hnext
    subst hp
    obtain ⟨u, s₂, hadvance, h⟩ := run_bind_eq_ok h
    cases hadvance
    cases h
    exact advance_previous hnext (by simp)
  · subst hp
    cases h

lemma atSignForm_previous {a} (h : atSignForm start c s = (.ok a, s')) :
    s'.previous.kind = .ident a.name ∨ s'.rest = [] := by
  obtain ⟨name, s₁, hname, h⟩ := run_bind_eq_ok h
  obtain ⟨span, s₂, hsince, h⟩ := run_bind_eq_ok h
  obtain ⟨u, s₃, hreport, h⟩ := run_bind_eq_ok h
  cases hsince
  cases hreport
  cases h
  simpa using annotationName_previous hname

lemma annotationList_previous (h : annotationList c s = (.ok annotations, s')) : s' = s ∨ s'.rest = [] ∨
      s'.previous.kind ≠ .punctuation .semicolon ∧ s'.previous.kind ≠ .punctuation .rBrace := by
  refine iterate_invariant (P := fun t => t = s ∨ t.rest = [] ∨
    t.previous.kind ≠ .punctuation .semicolon ∧ t.previous.kind ≠ .punctuation .rBrace) ?_ h (.inl rfl)
  intro found t o t' hround ht
  obtain ⟨p, hp, hround⟩ := run_peekKind_eq hround
  split at hp
  · subst hp
    obtain ⟨start, t₂, -, hround⟩ := run_bind_eq_ok hround
    obtain ⟨a, t₃, hform, hround⟩ := run_bind_eq_ok hround
    cases hround
    obtain hlast | hrest := hashForm_previous hform
    · exact .inr (.inr (by simp [hlast]))
    · exact .inr (.inl hrest)
  · subst hp
    obtain ⟨start, t₂, -, hround⟩ := run_bind_eq_ok hround
    obtain ⟨a, t₃, hform, hround⟩ := run_bind_eq_ok hround
    cases hround
    obtain hlast | hrest := atSignForm_previous hform
    · exact .inr (.inr (by simp [hlast]))
    · exact .inr (.inl hrest)
  · subst hp
    cases hround
    exact ht

def Unspoilt {α : Type} (skips : Prop) (r : ParseResult α) : Prop :=
  ¬ r.2.Spoilt skips ∧ ∀ e, r.1 = .error e → ¬ e.cause.Spoils skips

lemma Unspoilt.left {β : Type} {p} {k : α → Parser β} (hk : ∀ a, Steady (k a))
    (h : Unspoilt skips ((p >>= k) c s)) : Unspoilt skips (p c s) := by
  rcases hp : p c s with ⟨e | a, s₁⟩
  · rw [run_bind_error hp] at h
    exact ⟨h.1, fun e' he => h.2 e' (by rw [Except.error.inj he])⟩
  · rw [run_bind_ok hp] at h
    exact ⟨fun hspoilt => h.1 (hspoilt.grown ((hk a).onward c s₁).grown), fun _ he => by cases he⟩

/-- One value inside of nested tokens does not leave them. -/
def GoesOn {α : Type} (before after : List Token) (r : ParseResult α) : Prop :=
  Within before after (0, r.2.cursor) ∧ ∀ a, r.1 = .ok a → r.2.splitAngle = false

lemma GoesOn.error {e} (h : Within before after (0, s'.cursor)) :
    GoesOn before after ((.error e, s') : ParseResult α) :=
  ⟨h, fun _ ha => by cases ha⟩

lemma Paced.goesOn {pre} {p : Parser α} (h : Paced skips false pre p whole)
    (hparted : Parted skips before after) (hs : Within before after (0, s.cursor)) (hpre : pre c s)
    (hunspoilt : Unspoilt skips (p c s)) : GoesOn before after (p c s) := by
  obtain hspoilt | ⟨e, he, hspoils⟩ | ⟨hpaces, hok, -⟩ := h.reached (n := 0) (by simp) hpre
  · exact absurd hspoilt hunspoilt.1
  · exact absurd hspoils (hunspoilt.2 e he)
  · exact ⟨hs.paces hparted hpaces, hok⟩

lemma run_visibility_pub (h : (s.peek c.finish).kind = .keyword .pubKw) : visibility c s = (.ok .pub, s.advance) := by
  rw [visibility, acceptKeyword, run_bind_ok (run_accept_of_eq h)]
  rfl

lemma run_visibility_priv (h : (s.peek c.finish).kind = .keyword .privKw) :
    visibility c s = (.ok .priv, s.advance) := by
  rw [visibility, acceptKeyword, run_bind_ok (run_accept_of_ne (by simp [h])), if_neg Bool.false_ne_true,
    acceptKeyword, run_bind_ok (run_accept_of_eq h)]
  rfl

lemma run_visibility_cases (c s) :
    ((s.peek c.finish).kind.isOuter = false ∧ ∃ v, visibility c s = (.ok v, s.advance)) ∨
    visibility c s = (.ok .priv, s.report ⟨.missingVisibility, (s.peek c.finish).span⟩) ∨
    ∃ e, visibility c s = (.error e, s) ∧
      e.cause = .expected "'pub' or 'priv'" (s.peek c.finish).kind.describe := by
  by_cases hpub : (s.peek c.finish).kind = .keyword .pubKw
  · exact .inl ⟨by rw [hpub]; rfl, .pub, run_visibility_pub hpub⟩
  · by_cases hpriv : (s.peek c.finish).kind = .keyword .privKw
    · exact .inl ⟨by rw [hpriv]; rfl, .priv, run_visibility_priv hpriv⟩
    · right
      rw [visibility, acceptKeyword, run_bind_ok (run_accept_of_ne hpub), if_neg Bool.false_ne_true,
        acceptKeyword, run_bind_ok (run_accept_of_ne hpriv), if_neg Bool.false_ne_true,
        run_bind_ok (run_peekKind c s)]
      split
      · exact .inl rfl
      · exact .inr ⟨_, rfl, rfl⟩

lemma visibleDecl_goesOn (hparted : Parted skips before after)
    (hs : Within before after (0, s.cursor)) (hwhole : s.splitAngle = false) (hne : s.rest ≠ after)
    (hunspoilt : Unspoilt skips (visibleDecl start annotations c s)) :
    GoesOn before after (visibleDecl start annotations c s) := by
  have hitem (v : Visibility) : Paced skips false whole (do
      let decl ← itemDecl annotations v
      return (⟨decl, ← since start⟩ : Spanned Declaration)) whole :=
    (Paced.itemDecl annotations v).bind fun _ => .doneSince
  obtain ⟨hkind, v, hv⟩ | hv | ⟨e, hv, -⟩ := run_visibility_cases c s
  · rw [visibleDecl, run_bind_ok hv] at hunspoilt ⊢
    have hplain : (s.peek c.finish).kind.isPlain = true := TokenKind.isPlain_of_not_isOuter hkind
    exact (hitem v).goesOn hparted (hs.advance hne hplain) (by simpa [whole] using hwhole) hunspoilt
  · rw [visibleDecl, run_bind_ok hv] at hunspoilt ⊢
    have hlike : (s.report ⟨.missingVisibility, (s.peek c.finish).span⟩).cursor = s.cursor :=
      s.report_cursor _
    exact (hitem .priv).goesOn hparted (hlike ▸ hs) (by simpa [whole] using hwhole) hunspoilt
  · rw [visibleDecl, run_bind_error hv]
    exact .error hs

lemma annotatedDecl_goesOn (hparted : Parted skips before after)
    (hs : Within before after (0, s.cursor)) (hwhole : s.splitAngle = false) (hne : s.rest ≠ after)
    (hunspoilt : Unspoilt skips (annotatedDecl start annotations c s)) :
    GoesOn before after (annotatedDecl start annotations c s) := by
  have himpl : Paced skips false whole (do
      let block ← implBlock annotations
      return (⟨.impl block, ← since start⟩ : Spanned Declaration)) whole :=
    ((Paced.implBlock annotations).paced rfl).bind fun _ => .doneSince
  by_cases hkind : (s.peek c.finish).kind = .keyword .implKw
  · rw [annotatedDecl, atKeyword, run_bind_ok (run_at? _ c s), if_pos (decide_eq_true hkind)] at hunspoilt ⊢
    exact himpl.goesOn hparted hs hwhole hunspoilt
  · rw [annotatedDecl, atKeyword, run_bind_ok (run_at? _ c s), if_neg (by simpa using hkind), atKeyword,
      run_bind_ok (run_at? _ c s)] at hunspoilt ⊢
    by_cases himport : (s.peek c.finish).kind = .keyword .importKw
    · dsimp only at hunspoilt ⊢
      rw [if_pos (decide_eq_true himport)]
      exact .error hs
    · dsimp only at hunspoilt ⊢
      rw [if_neg (by simpa using himport)] at hunspoilt ⊢
      exact visibleDecl_goesOn hparted hs hwhole hne hunspoilt

/-- A declaration is not read beyond nested tokens. The annotations before it do not reach their end, where a
semicolon or a brace stands. -/
lemma declaration_goesOn (hparted : Parted skips before after)
    (hlast : ∀ t, before.getLast? = some t → t.kind = .punctuation .semicolon ∨ t.kind = .punctuation .rBrace)
    (hs : Within before after (0, s.cursor)) (hwhole : s.splitAngle = false) (hne : s.rest ≠ after)
    (hunspoilt : Unspoilt skips (declaration c s)) : GoesOn before after (declaration c s) := by
  have hlist : Paced skips false whole annotationList whole := Paced.annotationList_of fun _ _ h => h.1
  rw [declaration, run_bind_ok (run_here c s)] at hunspoilt ⊢
  have hleft := hunspoilt.left fun annotations => steady_annotatedDecl _ annotations
  have hreached := hlist.reached (c := c) (n := 0) (by simp) hwhole
  cases hrun : annotationList c s with
  | mk o s₁ =>
    rw [hrun] at hleft hreached
    obtain ⟨hwithin, hwhole₁⟩ := hreached.within hparted hs hleft.1 hleft.2
    cases o with
    | error e =>
      rw [run_bind_error hrun]
      exact .error hwithin
    | ok annotations =>
      have hne₁ : s₁.rest ≠ after := by
        intro hrest
        obtain rfl | hnil | ⟨hsemicolon, hbrace⟩ := annotationList_previous hrun
        · exact hne hrest
        · exact hwithin.rest_ne_nil hparted hnil
        · obtain ⟨-, ts, hts, -, -, -, hend⟩ := hwithin
          obtain rfl : ts = [] := self_eq_append_left.1 (hrest.symm.trans hts)
          obtain hkind | hkind := hlast _ (hend rfl)
          · exact hsemicolon hkind
          · exact hbrace hkind
      rw [run_bind_ok hrun] at hunspoilt ⊢
      exact annotatedDecl_goesOn hparted hwithin (hwhole₁ _ rfl) hne₁ hunspoilt

/-! ### Rounds -/

/-- The tokens left are some of the nested ones, and all that follow them. -/
def Inside (before after : List Token) (s : ParseState) : Prop :=
  s.splitAngle = false ∧ ∃ stack ts, s.rest = ts ++ after ∧ ts <:+ before ∧ Closes stack ts

lemma Inside.within (h : Inside before after s) (hne : s.rest ≠ after) : Within before after (0, s.cursor) := by
  obtain ⟨-, stack, ts, hrest, hsuffix, hcloses⟩ := h
  refine ⟨stack, ts, hrest, hsuffix, hcloses, Nat.zero_le _, ?_⟩
  rintro rfl
  exact absurd hrest hne

lemma Inside.resume (hparted : Parted skips before after) (hs : Within before after (0, s'.cursor))
    (hsuffix : s'.rest <:+ s.rest) (hne : s.rest ≠ after) (e) :
    Inside before after (resume toDeclaration s e s') ∧
      (resume toDeclaration s e s').rest.length < s.rest.length := by
  obtain ⟨stack, ts, hrest, hts, hcloses, -⟩ := hs
  obtain ⟨p, us, stack', hto, hus, hcloses'⟩ :=
    toDeclaration_within hparted (s'.report e).previous 0 hcloses (Nat.zero_le _)
  have hfound : ((s'.report e).toDeclaration).rest = us ++ after := by
    have hrest' : (s'.report e).rest = ts ++ after := (s'.report_rest e).trans hrest
    simp only [toDeclaration, moveTo, hrest', hto]
  have hle : us ++ after <:+ s.rest := by
    have hmoved := (moves_toDeclaration.onward (s'.report e)).suffix
    rw [hfound, report_rest] at hmoved
    exact hmoved.trans hsuffix
  have husBefore : us <:+ before := hus.trans hts
  unfold Parser.resume
  split
  · rename_i hlength
    rw [hfound] at hlength
    have hsame : us ++ after = s.rest := hle.eq_of_length hlength
    cases us with
    | nil => exact absurd hsame.symm hne
    | cons t us =>
      rw [advance_of_rest_cons hfound hcloses'.kind_ne_eof]
      obtain ⟨stack'', hcloses''⟩ := hcloses'.tail
      refine ⟨⟨rfl, stack'', us, rfl, (suffix_cons t us).trans husBefore, hcloses''⟩, ?_⟩
      simp [← hsame]
  · rename_i hlength
    refine ⟨⟨rfl, stack', us, hfound, husBefore, hcloses'⟩, ?_⟩
    rw [hfound] at hlength ⊢
    exact Nat.lt_of_le_of_ne hle.length_le hlength

section

variable {α : Type} {stop : Parser Bool} {item : Parser α} {f : ParseContext → ParseState → Bool}

/-- Values inside of nested tokens are read until these end or there are no more. The induction is on the
number of tokens left. -/
lemma iterate_inside (hparted : Parted skips before after)
    (hstep : ∀ items, Steady (recoverRound stop item toDeclaration items))
    (hitem : Steady item) (hconsumes : ∀ kind, Consumes kind item) (hfinish : c.finish.kind = .eof)
    (hstop : ∀ c s, stop c s = (.ok (f c s), s))
    (hgoes : ∀ s, Inside before after s → s.rest ≠ after → f c s = false → Unspoilt skips (item c s) →
      GoesOn before after (item c s)) {items} (hs : Inside before after s)
    (hspoilt : ¬ (iterate (recoverRound stop item toDeclaration) items c s).2.Spoilt skips) :
    ∃ items' t, Inside before after t ∧ (t.rest = after ∨ f c t = true) ∧
      iterate (recoverRound stop item toDeclaration) items c s =
        iterate (recoverRound stop item toDeclaration) items' c t := by
  induction hlen : s.rest.length using Nat.strongRecOn generalizing items s with
  | _ n ih =>
    by_cases hend : s.rest = after ∨ f c s = true
    · exact ⟨items, s, hs, hend, rfl⟩
    · obtain ⟨hne, hfalse⟩ := not_or.1 hend
      have hstop' : stop c s = (.ok false, s) := by rw [hstop, Bool.eq_false_iff.2 hfalse]
      rcases hrun : item c s with ⟨e | a, s₁⟩
      · have hround : recoverRound stop item toDeclaration items c s =
            (.ok (some items), resume toDeclaration s e s₁) :=
          run_recoverRound_error hstop' hrun
        have hgrown := (onward_resume moves_toDeclaration s s₁ e).grown
        have hreport : ¬ (s₁.report e).Spoilt skips := fun h =>
          hspoilt ((h.grown hgrown).grown (grown_next hstep hround))
        have hunspoilt : Unspoilt skips (item c s) := by
          rw [hrun]
          refine ⟨fun h => hreport (h.grown (s₁.grown_report e)), fun e' he hspoils => hreport ?_⟩
          obtain rfl := Except.error.inj he
          exact s₁.spoilt_report hspoils
        obtain ⟨hwithin, -⟩ := hgoes s hs hne (Bool.eq_false_iff.2 hfalse) hunspoilt
        rw [hrun] at hwithin
        obtain ⟨hinside, hlt⟩ := Inside.resume hparted hwithin (hitem.onward_run hrun).suffix hne e
        rw [run_iterate_some hround hlt] at hspoilt ⊢
        exact ih _ (hlen ▸ hlt) hinside hspoilt rfl
      · have hround : recoverRound stop item toDeclaration items c s =
            (.ok (some (items ++ [a])), s₁) := run_recoverRound_ok hstop' hrun
        have hunspoilt : Unspoilt skips (item c s) := by
          rw [hrun]
          exact ⟨fun h => hspoilt (h.grown (grown_next hstep hround)), fun _ he => by cases he⟩
        obtain ⟨hwithin, hok⟩ := hgoes s hs hne (Bool.eq_false_iff.2 hfalse) hunspoilt
        rw [hrun] at hwithin hok
        have hlt := hconsumes _ c s a s₁ hfinish rfl hrun
        rw [run_iterate_some hround hlt] at hspoilt ⊢
        obtain ⟨stack, ts, hrest, hts, hcloses, -⟩ := hwithin
        exact ih _ (hlen ▸ hlt) ⟨hok a rfl, stack, ts, hrest, hts, hcloses⟩ hspoilt rfl

/-- A round ends the list, or adds something that does not depend on it. -/
lemma recoverRound_cases (item : Parser α) (recover : ParseState → ParseState)
    (hstop : ∀ c s, stop c s = (.ok (f c s), s))
    (c s) :
    (∀ items, recoverRound stop item recover items c s = (.ok none, s)) ∨
      ∃ more s', ∀ items, recoverRound stop item recover items c s = (.ok (some (items ++ more)), s') := by
  have hstops := hstop c s
  cases hf : f c s with
  | true => exact .inl fun _ => run_recoverRound_stop (hf ▸ hstops)
  | false =>
    rw [hf] at hstops
    rcases hrun : item c s with ⟨e | a, s₁⟩
    · refine .inr ⟨[], resume recover s e s₁, fun items => ?_⟩
      rw [append_nil]
      exact run_recoverRound_error hstops hrun
    · exact .inr ⟨[a], s₁, fun _ => run_recoverRound_ok hstops hrun⟩

section

variable (hstop : ∀ c s, stop c s = (.ok (f c s), s))

include hstop

lemma recoverRound_append {recover} (front : List α) {items o}
    (h : recoverRound stop item recover items c s = (.ok o, s')) :
    recoverRound stop item recover (front ++ items) c s = (.ok (o.map (front ++ ·)), s') := by
  obtain hround | ⟨more, s₁, hround⟩ := recoverRound_cases item recover hstop c s
  all_goals
    rw [hround] at h ⊢
    cases h
    simp

lemma iterate_recoverRound_ok {recover} (items : List α) (c s) :
    ∃ l s', iterate (recoverRound stop item recover) items c s = (.ok l, s') := by
  have hrounds := rounds_iterate (recoverRound stop item recover) items c s
  generalize iterate (recoverRound stop item recover) items c s = r at hrounds
  induction hrounds with
  | @error items s e s' hround =>
    obtain h | ⟨more, s₁, h⟩ := recoverRound_cases item recover hstop c s
    all_goals
      rw [h] at hround
      cases hround
  | last _ | stuck _ _ => exact ⟨_, _, rfl⟩
  | next _ _ _ ih => exact ih

lemma iterate_append {recover} (front : List α) {items l}
    (h : iterate (recoverRound stop item recover) items c s = (.ok l, s')) :
    iterate (recoverRound stop item recover) (front ++ items) c s = (.ok (front ++ l), s') := by
  have hrounds := rounds_iterate (recoverRound stop item recover) items c s
  rw [h] at hrounds
  clear h
  generalize hr : (Except.ok l, s') = r at hrounds
  induction hrounds with
  | error _ => cases hr
  | last hlast =>
    cases hr
    exact run_iterate_none (recoverRound_append hstop front hlast)
  | stuck hstuck hlt =>
    cases hr
    exact run_iterate_stuck (recoverRound_append hstop front hstuck) hlt
  | next hnext hlt _ ih =>
    rw [run_iterate_some (recoverRound_append hstop front hnext) hlt]
    exact ih hr

end

end

/-! ### The declaration behind -/

lemma run_declaration_of_visibility {v} (hkind : (s.peek c.finish).kind.isOuter = false)
    (hv : visibility c s = (.ok v, s.advance)) :
    declaration c s = (do
      let decl ← itemDecl [] v
      return (⟨decl, ← since (s.peek c.finish).span⟩ : Spanned Declaration) : Parser _) c s.advance := by
  have hlist : annotationList c s = (.ok [], s) := by
    refine run_iterate_none ?_
    rw [ nextAnnotation, run_bind_ok (run_peekKind c s)]
    obtain hpub | hpriv := TokenKind.isOuter_eq_false hkind
    · rw [hpub]
      rfl
    · rw [hpriv]
      rfl
  have hne (k : Keyword) (hk : k ≠ .pubKw ∧ k ≠ .privKw) : (s.peek c.finish).kind ≠ .keyword k := by
    obtain hpub | hpriv := TokenKind.isOuter_eq_false hkind
    · rw [hpub]
      exact fun h => hk.1 (TokenKind.keyword.inj h).symm
    · rw [hpriv]
      exact fun h => hk.2 (TokenKind.keyword.inj h).symm
  rw [declaration, run_bind_ok (run_here c s), run_bind_ok hlist, annotatedDecl, atKeyword,
    run_bind_ok (run_at? _ c s), if_neg (by simpa using hne .implKw ⟨by simp, by simp⟩), atKeyword,
    run_bind_ok (run_at? _ c s)]
  dsimp only
  rw [if_neg (by simpa using hne .importKw ⟨by simp, by simp⟩), visibleDecl, run_bind_ok hv]

lemma declaration_like (hrest : s.rest = t.rest) (hsplit : s.splitAngle = t.splitAngle)
    (hkind : (s.peek c.finish).kind.isOuter = false) (hne : s.rest ≠ []) :
    (declaration c s).1 = (declaration c t).1 ∧ (declaration c s).2.Like (declaration c t).2 := by
  have hpeek : s.peek c.finish = t.peek c.finish := by
    rw [ParseState.peek, hrest]
    rfl
  have hadvance : s.advance.Like t.advance := by
    obtain ⟨d, ds, hcons⟩ := exists_cons_of_ne_nil hne
    rw [peek_of_rest_cons hcons] at hkind
    have hend : d.kind ≠ .eof := fun heof => by simp [heof, TokenKind.isOuter] at hkind
    rw [advance_of_rest_cons hcons hend, advance_of_rest_cons (hrest ▸ hcons) hend]
    exact ⟨rfl, rfl, hsplit⟩
  have hsteady (v : Visibility) : Steady (do
      let decl ← itemDecl [] v
      return (⟨decl, ← since (s.peek c.finish).span⟩ : Spanned Declaration) : Parser _) := by
    have hitem : Paced True false whole (itemDecl [] v) whole := Paced.itemDecl [] v
    exact hitem.toSteady.bind fun _ => (Steady.since _).bind fun _ => .pure _
  obtain hpub | hpriv := TokenKind.isOuter_eq_false hkind
  · rw [run_declaration_of_visibility hkind (run_visibility_pub hpub),
      run_declaration_of_visibility (hpeek ▸ hkind) (run_visibility_pub (hpeek ▸ hpub)), ← hpeek]
    exact (hsteady .pub).blind c hadvance
  · rw [run_declaration_of_visibility hkind (run_visibility_priv hpriv),
      run_declaration_of_visibility (hpeek ▸ hkind) (run_visibility_priv (hpeek ▸ hpriv)), ← hpeek]
    exact (hsteady .priv).blind c hadvance

lemma problems_report_ne_nil (hgrown : s.Grown s') (hdeep : s.tooDeep = false) (e) : (s'.report e).problems ≠ [] := by
  obtain ⟨more, hproblems, htoo⟩ := hgrown
  unfold ParseState.report
  split
  · split
    · rename_i hset
      rw [htoo, hdeep, Bool.false_or, any_eq_true] at hset
      obtain ⟨r, hr, -⟩ := hset
      rw [hproblems]
      exact append_ne_nil_of_right_ne_nil _ (ne_nil_of_mem hr)
    · simp
  · simp

lemma iterate_declarations {d} (halone : iterate declarationRound [] c s = (.ok [d], s')) (hclean : s'.problems = [])
    (hdeep : s.tooDeep = false) (hrest : s.rest = t.rest) (hsplit : s.splitAngle = t.splitAngle)
    (hkind : (s.peek c.finish).kind.isOuter = false) (hne : s.rest ≠ []) (items) :
    ∃ t', iterate declarationRound items c t = (.ok (items ++ [d]), t') := by
  have hpeek : s.peek c.finish = t.peek c.finish := by
    rw [ParseState.peek, hrest]
    rfl
  have hnotEnd : (s.peek c.finish).kind ≠ .eof := fun heof => by simp [heof, TokenKind.isOuter] at hkind
  have hstop : atEnd c s = (.ok false, s) := by rw [run_atEnd, decide_eq_false hnotEnd]
  have hstop' : atEnd c t = (.ok false, t) := by rw [run_atEnd, ← hpeek, decide_eq_false hnotEnd]
  obtain ⟨hout, hlike⟩ := declaration_like hrest hsplit hkind hne
  cases hrun : declaration c s with
  | mk o s₁ =>
    cases hrun' : declaration c t with
    | mk o' t₁ =>
      rw [hrun, hrun'] at hout hlike
      obtain rfl : o = o' := hout
      cases o with
      | error e =>
        have hround : declarationRound [] c s = (.ok (some []), resume toDeclaration s e s₁) :=
          run_recoverRound_error hstop hrun
        have hgrown := (onward_resume moves_toDeclaration s s₁ e).grown.trans
          (grown_next steady_declarationRound hround)
        rw [halone] at hgrown
        obtain ⟨more, hmore, -⟩ := hgrown
        have hnil : (s₁.report e).problems = [] := (append_eq_nil_iff.1 (hmore.symm.trans hclean)).1
        exact absurd hnil (problems_report_ne_nil (steady_declaration.onward_run hrun).grown hdeep e)
      | ok d₁ =>
        have hround : declarationRound [] c s = (.ok (some ([] ++ [d₁])), s₁) := run_recoverRound_ok hstop hrun
        have hround' : declarationRound items c t = (.ok (some (items ++ [d₁])), t₁) :=
          run_recoverRound_ok hstop' hrun'
        by_cases hlt : s₁.rest.length < s.rest.length
        · rw [run_iterate_some hround hlt, nil_append] at halone
          obtain ⟨t', ht', -⟩ := (iterate steady_declarationRound [d₁]).run_like halone hlike
          rw [run_iterate_some hround' (hrest ▸ hlike.rest ▸ hlt)]
          exact ⟨t', iterate_append run_atEnd items ht'⟩
        · rw [run_iterate_stuck hround hlt, nil_append] at halone
          obtain rfl : d₁ = d := by simpa using (Prod.ext_iff.1 halone).1
          exact ⟨t₁, run_iterate_stuck hround' (hrest ▸ hlike.rest ▸ hlt)⟩

/-! ### Modules -/

structure PackageLine where
  word : Token
  name : Token
  semicolon : Token
  text : String
  word_kind : word.kind = .keyword .packageKw
  name_kind : name.kind = .ident text
  semicolon_kind : semicolon.kind = .punctuation .semicolon

namespace PackageLine

def tokens (line : PackageLine) : List Token :=
  [line.word, line.name, line.semicolon]

lemma run_package (line : PackageLine) (c previous rest) :
    Parser.package c { rest := line.tokens ++ rest, previous := previous } =
      (.ok ⟨line.text, line.name.span⟩, { rest := rest, previous := line.semicolon }) := by
  have hline : packageLine c { rest := line.tokens ++ rest, previous := previous } =
      (.ok ⟨line.text, line.name.span⟩, { rest := rest, previous := line.semicolon }) := by
    rw [packageLine, acceptKeyword, run_bind_ok (run_accept_cons rfl line.word_kind (by simp))]
    dsimp only
    rw [if_neg (by simp), run_bind_ok (run_name_cons rfl line.name_kind), discard_bind, expectMark,
      run_bind_ok (run_expect_cons rfl line.semicolon_kind (by simp))]
    rfl
  have hattempt : attempt packageLine c { rest := line.tokens ++ rest, previous := previous } =
      (.ok (.ok ⟨line.text, line.name.span⟩), { rest := rest, previous := line.semicolon }) := by
    rw [run_attempt, hline]
  rw [Parser.package, run_bind_ok hattempt]
  rfl

end PackageLine

lemma afterImports_of_not_isOuter (h : (s.peek c.finish).kind.isOuter = false) : afterImports c s = true := by
  obtain hpub | hpriv := TokenKind.isOuter_eq_false h
  · simp [afterImports, hpub]
  · simp [afterImports, hpriv]

lemma run_imports_stop (h : afterImports c s = true) (items) : iterate importRound items c s = (.ok items, s) := by
  refine run_iterate_none (run_recoverRound_stop ?_)
  rw [run_afterImports, h]

lemma importDecl_goesOn (hparted : Parted skips before after) (hs : Within before after (0, s.cursor))
    (hwhole : s.splitAngle = false) (hunspoilt : Unspoilt skips (importDecl c s)) :
    GoesOn before after (importDecl c s) := by
  have himport : Paced skips false whole importDecl whole := Paced.importDecl.paced rfl
  exact himport.goesOn hparted hs hwhole hunspoilt

lemma run_program (line : PackageLine) (previous) {rest imports o s₁ s₂}
    (himports : iterate importRound [] c { rest := rest, previous := line.semicolon } = (.ok imports, s₁))
    (hdeclarations : iterate declarationRound [] c s₁ = (o, s₂)) :
    Parser.program c { rest := line.tokens ++ rest, previous := previous } =
      (o.map fun declarations => { package := ⟨line.text, line.name.span⟩, imports, declarations }, s₂) := by
  rw [Parser.program, run_bind_ok (line.run_package c previous rest), recovering, run_bind_ok himports,
    recovering]
  cases o with
  | error e =>
    rw [run_bind_error hdeclarations]
    rfl
  | ok declarations =>
    rw [run_bind_ok hdeclarations]
    rfl

def reports (tokens : List Token) : List (Report GrammarProblem) :=
  (Parser.program { finish := finishOf tokens } { rest := tokens, previous := finishOf tokens }).2.problems

lemma run_alone {line : PackageLine} {d} (hhead : ∃ t ts, after = t :: ts ∧ t.kind.isOuter = false)
    (hproblems : (parse (line.tokens ++ after)).problems = [])
    (hdeclarations : (parse (line.tokens ++ after)).program.declarations = [d]) :
    ∃ s', iterate declarationRound [] { finish := finishOf (line.tokens ++ after) }
        { rest := after, previous := line.semicolon } = (.ok [d], s') ∧ s'.problems = [] := by
  obtain ⟨t, ts, rfl, hkind⟩ := hhead
  cases hrun : iterate declarationRound [] { finish := finishOf (line.tokens ++ t :: ts) }
      { rest := t :: ts, previous := line.semicolon } with
  | mk o s' =>
    have hstop : afterImports { finish := finishOf (line.tokens ++ t :: ts) }
        { rest := t :: ts, previous := line.semicolon } = true := afterImports_of_not_isOuter hkind
    have himports := run_imports_stop hstop []
    have hprogram := run_program line (finishOf (line.tokens ++ t :: ts)) himports hrun
    cases o with
    | error e =>
      simp only [parse, hprogram, Except.map] at hdeclarations
      cases hdeclarations
    | ok declarations =>
      rw [parse_eq hprogram] at hproblems hdeclarations
      obtain rfl : declarations = [d] := hdeclarations
      exact ⟨s', rfl, map_eq_nil_iff.1 hproblems⟩

lemma finishOf_append (front) {ts} (h : ts ≠ []) : finishOf (front ++ ts) = finishOf ts := by
  rw [finishOf, List.getLast?_append, List.getLast?_eq_some_getLast h]
  simp only [finishOf, List.getLast?_eq_some_getLast h, Option.some_or]

lemma program_inside {line : PackageLine} {tokens} (hparted : Parted skips before after) (hnested : Nested before)
    (hlast : ∀ t, before.getLast? = some t → t.kind = .punctuation .semicolon ∨ t.kind = .punctuation .rBrace)
    {imports o s₁}
    (himports : iterate importRound [] { finish := finishOf tokens }
      { rest := before ++ after, previous := line.semicolon } = (.ok imports, s₁))
    (hdeclarations : iterate declarationRound [] { finish := finishOf tokens } s₁ = o)
    (hspoilt : ¬ o.2.Spoilt skips) :
    ∃ items t, t.rest = after ∧ t.splitAngle = false ∧
      iterate declarationRound items { finish := finishOf tokens } t = o := by
  obtain ⟨head, tail, hafter, houter⟩ := hparted.head
  have hstart : Inside before after { rest := before ++ after, previous := line.semicolon } :=
    ⟨rfl, [], before, rfl, suffix_refl _, hnested.closes⟩
  have hgrown : s₁.Grown o.2 := hdeclarations ▸ ((iterate steady_declarationRound []).onward _ s₁).grown
  have hinside : Inside before after s₁ := by
    have hspoilt₁ : ¬ (iterate importRound [] { finish := finishOf tokens }
        { rest := before ++ after, previous := line.semicolon }).2.Spoilt skips := by
      rw [himports]
      exact fun h => hspoilt (h.grown hgrown)
    obtain ⟨items, t, ht, hend, hsame⟩ := iterate_inside hparted steady_importRound steady_importDecl
      (fun _ => Paced.importDecl.consumes (by simp)) (finishOf_kind tokens) run_afterImports
      (fun s hs hne _ hunspoilt => importDecl_goesOn hparted (hs.within hne) hs.1 hunspoilt) hstart hspoilt₁
    have hstop : afterImports { finish := finishOf tokens } t = true := by
      obtain hrest | hstop := hend
      · refine afterImports_of_not_isOuter ?_
        rw [peek_of_rest_cons (hrest.trans hafter)]
        exact houter
      · exact hstop
    rw [himports, run_imports_stop hstop] at hsame
    obtain ⟨-, rfl⟩ := Prod.ext_iff.1 hsame
    exact ht
  rw [← hdeclarations] at hspoilt ⊢
  obtain ⟨items, t, ht, hend, hsame⟩ := iterate_inside hparted steady_declarationRound steady_declaration
    (fun _ => consumes_declaration) (finishOf_kind tokens) run_atEnd
    (fun s hs hne _ hunspoilt => declaration_goesOn hparted hlast (hs.within hne) hs.1 hne hunspoilt) hinside hspoilt
  refine ⟨items, t, ?_, ht.1, hsame.symm⟩
  obtain hrest | heof := hend
  · exact hrest
  · -- The end mark is neither among the nested tokens nor the word behind them.
    obtain ⟨-, stack, ts, hrest, -, hcloses⟩ := ht
    have heof : (t.peek (finishOf tokens)).kind = .eof := of_decide_eq_true heof
    cases ts with
    | nil => exact hrest
    | cons u ts =>
      rw [peek_of_rest_cons hrest] at heof
      exact absurd heof hcloses.kind_ne_eof

lemma not_spoilt_of_reports {rest previous} (hgrown : Grown { rest := rest, previous := previous } t)
    (hshr : ∀ r ∈ t.problems, r.cause.foundShr = false)
    (hdeep : skips ∨ ∀ r ∈ t.problems, r.cause ≠ .nestingTooDeep) : ¬ t.Spoilt skips := by
  obtain ⟨more, hproblems, htoo⟩ := hgrown
  rintro (⟨r, hr, hfound⟩ | ⟨hset, hskips⟩)
  · simp [hshr r hr] at hfound
  · obtain h | h := hdeep
    · exact hskips h
    · rw [htoo, Bool.false_or, any_eq_true] at hset
      obtain ⟨r, hr, hcause⟩ := hset
      refine h r ?_ (of_decide_eq_true hcause)
      rw [hproblems]
      exact mem_append_right _ hr

/-- Behind nested tokens that end in a semicolon or a brace, a declaration is read as if it stood alone, whatever is
wrong with these tokens. Two kinds of problems are excluded: a double angle in place of something else, half of which
may be left over, and too deep nesting, unless the tokens end in a brace, where every group that is passed over has an
end. -/
theorem declarations_getLast?_of_nested {line : PackageLine} {d : Spanned Declaration}
    (hnested : Nested before)
    (hlast : ∃ t, before.getLast? = some t ∧
      (t.kind = .punctuation .semicolon ∨ t.kind = .punctuation .rBrace))
    (hhead : ∃ t, after.head? = some t ∧ (t.kind = .keyword .pubKw ∨ t.kind = .keyword .privKw))
    (hproblems : (parse (line.tokens ++ after)).problems = [])
    (hdeclarations : (parse (line.tokens ++ after)).program.declarations = [d])
    (hshr : ∀ r ∈ reports (line.tokens ++ (before ++ after)), r.cause.foundShr = false)
    (hdeep : (∃ t, before.getLast? = some t ∧ t.kind = .punctuation .rBrace) ∨
      ∀ r ∈ reports (line.tokens ++ (before ++ after)), r.cause ≠ .nestingTooDeep) :
    (parse (line.tokens ++ (before ++ after))).program.declarations.getLast? = some d := by
  have hhead' : ∃ t ts, after = t :: ts ∧ t.kind.isOuter = false := by
    obtain ⟨t, ht, hkind⟩ := hhead
    obtain ⟨ts, rfl⟩ := List.head?_eq_some_iff.1 ht
    refine ⟨t, ts, rfl, ?_⟩
    obtain hpub | hpriv := hkind
    · rw [hpub]
      rfl
    · rw [hpriv]
      rfl
  obtain ⟨t, ts, hafter, houter⟩ := hhead'
  have hne : after ≠ [] := by simp [hafter]
  obtain ⟨s', halone, hclean⟩ := run_alone ⟨t, ts, hafter, houter⟩ hproblems hdeclarations
  have hfinish : finishOf (line.tokens ++ after) = finishOf (line.tokens ++ (before ++ after)) := by
    rw [finishOf_append _ hne, ← List.append_assoc, finishOf_append _ hne]
  rw [hfinish] at halone
  obtain ⟨imports, s₁, himports⟩ : ∃ imports s₁, iterate importRound []
      { finish := finishOf (line.tokens ++ (before ++ after)) }
      { rest := before ++ after, previous := line.semicolon } = (.ok imports, s₁) :=
    iterate_recoverRound_ok run_afterImports [] _ _
  cases hrun : iterate declarationRound [] { finish := finishOf (line.tokens ++ (before ++ after)) } s₁ with
  | mk o s₂ =>
    have hprogram := run_program line (finishOf (line.tokens ++ (before ++ after))) himports hrun
    have hreports : reports (line.tokens ++ (before ++ after)) = s₂.problems := by
      rw [reports, hprogram]
    rw [hreports] at hshr hdeep
    have hgrown := (((Steady.iterate steady_importRound []).onward_run himports).trans
      ((Steady.iterate steady_declarationRound []).onward_run hrun)).grown
    have hspoilt := not_spoilt_of_reports hgrown hshr hdeep
    have hparted : Parted (∃ t, before.getLast? = some t ∧ t.kind = .punctuation .rBrace) before after :=
      ⟨⟨t, ts, hafter, houter⟩, fun h => h⟩
    have hends (u : Token) (hu : before.getLast? = some u) :
        u.kind = .punctuation .semicolon ∨ u.kind = .punctuation .rBrace := by
      obtain ⟨u', hu', hkind⟩ := hlast
      obtain rfl : u = u' := Option.some.inj (hu.symm.trans hu')
      exact hkind
    obtain ⟨items, v, hrest, hwhole, hsame⟩ := program_inside hparted hnested hends himports hrun hspoilt
    have hpeek : ParseState.peek { rest := after, previous := line.semicolon }
        (finishOf (line.tokens ++ (before ++ after))) = t := by
      rw [ParseState.peek, hafter]
      rfl
    obtain ⟨v', hv⟩ := iterate_declarations halone hclean rfl hrest.symm hwhole.symm
      (by rw [hpeek]; exact houter) hne items
    obtain rfl : o = .ok (items ++ [d]) := congrArg Prod.fst (hsame.symm.trans hv)
    rw [parse_eq hprogram]
    exact List.getLast?_concat

/-! ### Short texts -/

def packageM : PackageLine where
  word := ⟨.keyword .packageKw, "", default⟩
  name := ⟨.ident "m", "", default⟩
  semicolon := ⟨.punctuation .semicolon, "", default⟩
  text := "m"
  word_kind := rfl
  name_kind := rfl
  semicolon_kind := rfl

def constA : List Token :=
  tokensOf [.keyword .pubKw, .keyword .constKw, .ident "A", .punctuation .colon, .keyword .optionKw,
    .operator .lt, .keyword .optionKw, .operator .lt, .primitive .i32, .operator .shr, .operator .eq,
    .int 1 .decimal, .punctuation .semicolon]

/-- The tokens of `impl P { pub fn m(...) }`, without a return type and body. -/
def implP (params : List TokenKind) : List Token :=
  tokensOf (.keyword .implKw :: .ident "P" :: .punctuation .lBrace ::
    ((.keyword .pubKw :: .keyword .fnKw :: .ident "m" :: .punctuation .lParen ::
      (params ++ [.punctuation .rParen])) ++ [.punctuation .rBrace]))

/-- The tokens of `x: Option<i32>>`, with one closing angle too many. -/
def brokenParam : List TokenKind :=
  [.ident "x", .punctuation .colon, .keyword .optionKw, .operator .lt, .primitive .i32, .operator .shr]

lemma nested_plain {kinds} (h : ∀ kind ∈ kinds, kind.opens? = none ∧ kind.closes? = none ∧ kind ≠ .eof) :
    Nested (tokensOf kinds) := by
  induction kinds with
  | nil => exact .nil
  | cons kind kinds ih =>
    obtain ⟨hopen, hclose, hend⟩ := h kind mem_cons_self
    exact .plain hopen hclose hend (ih fun k hk => h k (mem_cons_of_mem _ hk))

lemma nested_group {o c b kinds} (ho : o.opens? = some b)
    (hc : c.closes? = some b) (h : Nested (tokensOf kinds)) : Nested (tokensOf (o :: (kinds ++ [c]))) := by
  have hgroup : Nested (⟨o, "", default⟩ :: (tokensOf kinds ++ ⟨c, "", default⟩ :: [])) :=
    .group ho hc h .nil
  simpa [tokensOf] using hgroup

lemma nested_implP {params} (h : ∀ kind ∈ params, kind.opens? = none ∧ kind.closes? = none ∧ kind ≠ .eof) :
    Nested (implP params) := by
  have hparams := nested_group (o := .punctuation .lParen) (c := .punctuation .rParen) rfl rfl (nested_plain h)
  exact .plain rfl rfl (by simp) <| .plain rfl rfl (by simp) <|
    nested_group rfl rfl (.plain rfl rfl (by simp) <| .plain rfl rfl (by simp) <| .plain rfl rfl (by simp) hparams)

lemma getLast?_implP (params) :
    (implP params).getLast? = some ⟨.punctuation .rBrace, "", default⟩ := by
  simp [implP, tokensOf, List.getLast?_cons]

lemma parse_constA : (parse (packageM.tokens ++ constA)).problems = [] ∧
    ∃ d, (parse (packageM.tokens ++ constA)).program.declarations = [d] ∧ d.node.name.node = "A" := by
  have hone : (parse (packageM.tokens ++ constA)).program.declarations.map (·.node.name.node) = ["A"] := by
    decide +kernel
  obtain ⟨d, hd, hname⟩ := map_eq_singleton_iff.1 hone
  exact ⟨by decide +kernel, d, hd, hname⟩

/-- Behind a method that is broken off, the constant is read as if it stood alone. -/
theorem declarations_getLast?_of_nested_implP :
    Nested (implP []) ∧ ∃ d, (parse (packageM.tokens ++ constA)).program.declarations = [d] ∧
      (parse (packageM.tokens ++ (implP [] ++ constA))).problems ≠ [] ∧
      (parse (packageM.tokens ++ (implP [] ++ constA))).program.declarations.getLast? = some d := by
  have hnested : Nested (implP []) := nested_implP (by simp)
  obtain ⟨hproblems, d, hd, -⟩ := parse_constA
  have hshr : ∀ r ∈ reports (packageM.tokens ++ (implP [] ++ constA)), r.cause.foundShr = false := by
    decide +kernel
  refine ⟨hnested, d, hd, by decide +kernel, ?_⟩
  exact declarations_getLast?_of_nested hnested ⟨_, getLast?_implP [], .inr rfl⟩ ⟨_, rfl, .inl rfl⟩ hproblems hd
    hshr (.inl ⟨_, getLast?_implP [], rfl⟩)

/-- Behind a closing angle too many, the constant is lost: half of the double angle is left over, and the one that
closes the type of the constant is read with it. -/
theorem declarations_getLast?_brokenParam :
    Nested (implP brokenParam) ∧ (parse (packageM.tokens ++ constA)).problems = [] ∧
      ∃ d, (parse (packageM.tokens ++ constA)).program.declarations = [d] ∧
        (parse (packageM.tokens ++ (implP brokenParam ++ constA))).program.declarations.getLast? ≠ some d := by
  obtain ⟨hproblems, d, hd, hname⟩ := parse_constA
  refine ⟨nested_implP (by decide), hproblems, d, hd, fun hlast => ?_⟩
  have hread : (parse (packageM.tokens ++ (implP brokenParam ++ constA))).program.declarations.getLast?.map
      (·.node.name.node) = some "P" := by decide +kernel
  rw [hlast, Option.map_some, hname] at hread
  exact absurd hread (by decide)

end SourceCheck
