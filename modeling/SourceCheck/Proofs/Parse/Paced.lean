import SourceCheck.Proofs.Parse.Pace

/-!
# Parsers that keep the pace

The pace is kept by the parsers that all others are made of. What is known before and behind one says whether half of
a double angle may be read there.
-/

open SourceCheck.Parser

namespace SourceCheck

variable {α : Type} {skips : Prop} {m : Nat} {post pre' : Assertion} {t : ParseState} {kind : TokenKind}

abbrev Assertion := ParseContext → ParseState → Prop

def whole : Assertion :=
  fun _ s => s.splitAngle = false

def halved : Assertion :=
  fun c s => s.splitAngle = true → (s.peek c.finish).kind = .operator .shr

/-- No half of a double angle is read, and outside of braces no closing brace was read last. -/
def ready (inside : Bool) : Assertion :=
  fun _ s => s.splitAngle = false ∧ (inside = false → s.previous.kind ≠ .punctuation .rBrace ∨ s.rest = [])

/-- No half of a double angle is read, and a token of this kind comes next. -/
def next (kind : TokenKind) : Assertion :=
  fun c s => s.splitAngle = false ∧ (s.peek c.finish).kind = kind

/-- Half of a double angle is read only if it comes next, and the limit is not reached. -/
def shallow : Assertion :=
  fun c s => c.depth < nestingLimit ∧ halved c s

/-- Assertions that no half of a double angle is read. -/
class SaysWhole (pre : Assertion) : Prop where
  whole {c : ParseContext} {s : ParseState} : pre c s → whole c s

/-- Half of a double angle is read only if it comes next. -/
class SaysHalved (pre : Assertion) : Prop where
  halved {c : ParseContext} {s : ParseState} : pre c s → halved c s

instance : SaysWhole whole := ⟨fun h => h⟩

instance (inside : Bool) : SaysWhole (ready inside) := ⟨fun h => h.1⟩

instance (kind : TokenKind) : SaysWhole (next kind) := ⟨fun h => h.1⟩

instance : SaysHalved halved := ⟨fun h => h⟩

instance (pre : Assertion) [SaysWhole pre] : SaysHalved pre where
  halved h hsplit := by
    have hwhole : whole _ _ := SaysWhole.whole h
    simp [whole, hsplit] at hwhole

lemma halved_of_whole {c s} (h : whole c s) : halved c s :=
  SaysHalved.halved h

lemma ready_true {c s} (h : whole c s) : ready true c s :=
  ⟨h, fun hinside => by cases hinside⟩

lemma whole_of_halved {c s} (h : halved c s) (hnext : (s.peek c.finish).kind ≠ .operator .shr) : whole c s := by
  cases hsplit : s.splitAngle with
  | false => exact hsplit
  | true => exact absurd (h hsplit) hnext

lemma ready_advance {inside c s} (h : whole c s)
    (hkind : (s.peek c.finish).kind.isRead inside = true) : ready inside c s.advance := by
  refine ⟨by simpa [whole] using h, fun _ => ?_⟩
  cases hrest : s.rest with
  | nil =>
    rw [ParseState.advance_of_rest_nil hrest]
    exact .inr hrest
  | cons t rest =>
    rw [ParseState.peek_of_rest_cons hrest, TokenKind.isRead, Bool.and_eq_true] at hkind
    have hend : t.kind ≠ .eof := fun heof => by simp [heof, TokenKind.isPlain] at hkind
    rw [ParseState.advance_of_rest_cons hrest hend]
    refine .inl fun (hbrace : t.kind = _) => ?_
    simp [hbrace, TokenKind.isPlain] at hkind

/-- A result that is spoilt, or reached by moves. The number of open braces may change. -/
def Reached {α : Type} (skips : Prop) (n m : Nat) (post : Assertion)
    (c : ParseContext) (s : ParseState) (result : ParseResult α) : Prop :=
  result.2.Spoilt skips ∨ (∃ e, result.1 = .error e ∧ e.cause.Spoils skips) ∨
    Paces skips (n, s.cursor) (m, result.2.cursor) ∧ (∀ a, result.1 = .ok a → post c result.2) ∧
      (∀ e, result.1 = .error e → whole c result.2)

lemma Reached.ok {n c s} {a : α} (hpaces : Paces skips (n, s.cursor) (m, t.cursor)) (hpost : post c t) :
    Reached skips n m post c s (.ok a, t) :=
  .inr (.inr ⟨hpaces, fun _ _ => hpost, fun _ h => by cases h⟩)

lemma Reached.error {n c s e} (hpaces : Paces skips (n, s.cursor) (m, t.cursor))
    (hwhole : whole c t) : Reached skips n m post c s ((.error e, t) : ParseResult α) :=
  .inr (.inr ⟨hpaces, fun _ h => (by cases h), fun _ _ => hwhole⟩)

lemma Reached.after {n l c s} {result : ParseResult α} (h : Reached skips m l post c t result)
    (hpaces : ∀ r, Paces skips (m, t.cursor) (l, r) → Paces skips (n, s.cursor) (l, r)) :
    Reached skips n l post c s result := by
  obtain hspoilt | hspoils | ⟨hmoves, hpost⟩ := h
  · exact .inl hspoilt
  · exact .inr (.inl hspoils)
  · exact .inr (.inr ⟨hpaces _ hmoves, hpost⟩)

lemma Reached.imp {n c c' s post'} {result : ParseResult α} (h : Reached skips n m post c s result)
    (hpost : ∀ t, post c t → post' c' t) : Reached skips n m post' c' s result := by
  obtain hspoilt | hspoils | ⟨hpaces, hok, herror⟩ := h
  · exact .inl hspoilt
  · exact .inr (.inl hspoils)
  · exact .inr (.inr ⟨hpaces, fun a ha => hpost _ (hok a ha), herror⟩)

/-- When the first fails, its open braces are forgotten. -/
lemma Reached.bind {β : Type} {n l mid c} {s : ParseState} {p} {k : α → Parser β} (hl : l ≤ m)
    (hp : Reached skips n m mid c s (p c s)) (hsteady : ∀ a, Steady (k a))
    (hk : ∀ a s', mid c s' → Reached skips m l post c s' (k a c s')) :
    Reached skips n l post c s ((p >>= k) c s) := by
  cases hs : p c s with
  | mk o s' =>
    rw [hs] at hp
    cases o with
    | error e =>
      rw [run_bind_error hs]
      obtain hspoilt | ⟨e', he, hspoils⟩ | ⟨hpaces, -, herror⟩ := hp
      · exact .inl hspoilt
      · exact .inr (.inl ⟨e', by rw [Except.error.inj he], hspoils⟩)
      · obtain ⟨k, rfl⟩ := Nat.exists_eq_add_of_le hl
        exact .error (hpaces.trans (Paces.forget l k _)) (herror e rfl)
    | ok a =>
      rw [run_bind_ok hs]
      obtain hspoilt | ⟨e', he, -⟩ | ⟨hpaces, hok, -⟩ := hp
      · exact .inl (hspoilt.grown ((hsteady a).onward c s').grown)
      · cases he
      · exact (hk a s' (hok a rfl)).after fun _ h => hpaces.trans h

/-- Parsers that keep the pace from states in `pre`, and are in `post` unless they fail. They may ask for an open
brace around them. -/
structure Paced {α : Type} (skips : Prop) (inside : Bool) (pre : Assertion) (p : Parser α)
    (post : Assertion) : Prop extends Steady p where
  reached {c : ParseContext} {s : ParseState} {n : Nat} :
    (inside = true → 0 < n) → pre c s → Reached skips n n post c s (p c s)

/-- Parsers that keep the pace where nothing is half read. -/
abbrev Paced.Keeps {α : Type} (skips : Prop) (inside : Bool) (p : Parser α) (post : Assertion) : Prop :=
  Paced skips inside (ready inside) p post

namespace Paced

variable {α β : Type} {skips : Prop} {inside : Bool} {pre mid post : Assertion}

lemma pure (a : α) (h : ∀ c s, pre c s → post c s) : Paced skips inside pre (Pure.pure a : Parser α) post where
  toSteady := .pure a
  reached _ hpre := .ok .refl (h _ _ hpre)

lemma keep {a} : Paced skips inside pre (Pure.pure a : Parser α) pre :=
  pure a fun _ _ h => h

lemma mono {post'} {p : Parser α} (h : Paced skips inside pre p post)
    (hpre : ∀ c s, pre' c s → pre c s) (hpost : ∀ c s, post c s → post' c s) :
    Paced skips inside pre' p post' where
  toSteady := h.toSteady
  reached hn hs := (h.reached hn (hpre _ _ hs)).imp (hpost _)

lemma of_pre {p : Parser α} (h : Paced skips inside pre p post)
    (hpre : ∀ c s, pre' c s → pre c s) : Paced skips inside pre' p post :=
  h.mono hpre fun _ _ h => h

lemma bind {p} {k : α → Parser β} (hp : Paced skips inside pre p mid)
    (hk : ∀ a, Paced skips inside mid (k a) post) : Paced skips inside pre (p >>= k) post where
  toSteady := hp.toSteady.bind fun a => (hk a).toSteady
  reached {_ _ n} hn hpre :=
    (hp.reached hn hpre).bind (Nat.le_refl n) (fun a => (hk a).toSteady) fun a _ hmid => (hk a).reached hn hmid

/-! ### Looking ahead -/

lemma look {p} {k : α → Parser β} (f : ParseContext → ParseState → α) (hsteady : Steady p)
    (hp : ∀ c s, p c s = (.ok (f c s), s))
    (hk : ∀ a, Paced skips inside (fun c s => pre c s ∧ f c s = a) (k a) post) :
    Paced skips inside pre (p >>= k) post where
  toSteady := hsteady.bind fun a => (hk a).toSteady
  reached {c s n} hn hpre := by
    rw [run_bind_ok (hp c s)]
    exact (hk _).reached hn ⟨hpre, rfl⟩

lemma look_any {p : Parser α} {k : α → Parser β} (f : ParseContext → ParseState → α)
    (hsteady : Steady p) (hp : ∀ c s, p c s = (.ok (f c s), s))
    (hk : ∀ a, Paced skips inside pre (k a) post) : Paced skips inside pre (p >>= k) post :=
  look f hsteady hp fun a => (hk a).of_pre fun _ _ h => h.1

lemma here {k : Span → Parser β} (hk : ∀ a, Paced skips inside pre (k a) post) :
    Paced skips inside pre (Parser.here >>= k) post :=
  look_any _ .here run_here hk

lemma peek [SaysWhole pre] {k : Token → Parser β} (hk : ∀ t, Paced skips inside (next t.kind) (k t) post) :
    Paced skips inside pre (Parser.peek >>= k) post :=
  look _ .peek run_peek fun t => (hk t).of_pre fun _ _ h => ⟨SaysWhole.whole h.1, by rw [h.2]⟩

lemma peek_any {k : Token → Parser β} (hk : ∀ t, Paced skips inside pre (k t) post) :
    Paced skips inside pre (Parser.peek >>= k) post :=
  look_any _ .peek run_peek hk

lemma peekAt {k : Token → Parser β} (n : Nat) (hk : ∀ t, Paced skips inside pre (k t) post) :
    Paced skips inside pre (Parser.peekAt n >>= k) post :=
  look_any (fun c s => s.peekAt c.finish n) (.peekAt n) (fun _ _ => rfl) hk

lemma peekKind [SaysWhole pre] {k : TokenKind → Parser β}
    (hk : ∀ kind, Paced skips inside (next kind) (k kind) post) :
    Paced skips inside pre (Parser.peekKind >>= k) post :=
  look _ .peekKind run_peekKind fun kind => (hk kind).of_pre fun _ _ h => ⟨SaysWhole.whole h.1, h.2⟩

lemma peekKind_any {k : TokenKind → Parser β} (hk : ∀ kind, Paced skips inside pre (k kind) post) :
    Paced skips inside pre (Parser.peekKind >>= k) post :=
  look_any _ .peekKind run_peekKind hk

lemma peekKind_keep {k : TokenKind → Parser β}
    (hk : ∀ kind, Paced skips inside (fun c s => pre c s ∧ (s.peek c.finish).kind = kind) (k kind) post) :
    Paced skips inside pre (Parser.peekKind >>= k) post :=
  look _ .peekKind run_peekKind hk

lemma at? [SaysWhole pre] {kind : TokenKind} {k : Bool → Parser β}
    (htrue : Paced skips inside (next kind) (k true) post) (hfalse : Paced skips inside pre (k false) post) :
    Paced skips inside pre (Parser.at? kind >>= k) post := by
  refine look _ (.at? kind) (run_at? kind) fun b => ?_
  cases b with
  | true => exact htrue.of_pre fun _ _ h => ⟨SaysWhole.whole h.1, of_decide_eq_true h.2⟩
  | false => exact hfalse.of_pre fun _ _ h => h.1

lemma at?_any {k : Bool → Parser β} (hk : ∀ b, Paced skips inside pre (k b) post) :
    Paced skips inside pre (Parser.at? kind >>= k) post :=
  look_any _ (.at? kind) (run_at? kind) hk

lemma at?_halved {k : Bool → Parser β} (hshr : kind ≠ .operator .shr)
    (htrue : Paced skips inside whole (k true) post)
    (hfalse : Paced skips inside halved (k false) post) : Paced skips inside halved (Parser.at? kind >>= k) post := by
  refine look _ (.at? kind) (run_at? kind) fun b => ?_
  cases b with
  | true => exact htrue.of_pre fun _ _ h => whole_of_halved h.1 (of_decide_eq_true h.2 ▸ hshr)
  | false => exact hfalse.of_pre fun _ _ h => h.1

lemma since (start) : Paced skips inside pre (Parser.since start) pre where
  toSteady := .since start
  reached _ hpre := .ok .refl hpre

/-! ### Reading -/

lemma advance {kind} (hkind : kind.isRead inside = true) :
    Paced skips inside (next kind) Parser.advance (ready inside) where
  toSteady := .advance
  reached {c s n} hn hpre := by
    obtain ⟨hwhole, hnext⟩ := hpre
    rw [← hnext] at hkind
    rw [run_advance]
    exact .ok (Paces.advance hn hkind) (ready_advance hwhole hkind)

lemma discard {p : Parser α} (h : Paced skips inside pre p post) : Paced skips inside pre (Functor.discard p) post :=
  h.bind fun _ => keep

lemma accept [SaysHalved pre] {kind} {k : Bool → Parser β} (hkind : kind.isTaken inside = true)
    (htrue : Keeps skips inside (k true) post) (hfalse : Paced skips inside pre (k false) post) :
    Paced skips inside pre (Parser.accept kind >>= k) post where
  toSteady := (Steady.accept kind).bind fun b => by
    cases b with
    | true => exact htrue.toSteady
    | false => exact hfalse.toSteady
  reached {c s n} hn hs := by
    by_cases hnext : (s.peek c.finish).kind = kind
    · rw [run_bind_ok (run_accept_of_eq hnext)]
      rw [← hnext] at hkind
      have hread := TokenKind.isRead_of_isTaken hkind
      have hwhole := whole_of_halved (SaysHalved.halved hs) (TokenKind.ne_shr_of_isTaken hkind)
      exact (htrue.reached hn (ready_advance hwhole hread)).after fun _ h => (Paces.advance hn hread).trans h
    · rw [run_bind_ok (run_accept_of_ne hnext)]
      exact hfalse.reached hn hs

lemma failAt [SaysWhole pre] {span cause} : Paced skips inside pre (Parser.failAt span cause : Parser α) post where
  toSteady := .failAt span cause
  reached _ hs := .error .refl (SaysWhole.whole hs)

lemma fail [SaysWhole pre] {cause} : Paced skips inside pre (Parser.fail cause : Parser α) post :=
  here fun _ => failAt

/-- Half of a double angle is told as what was found. -/
lemma expected [SaysHalved pre] {what} : Paced skips inside pre (Parser.expected what : Parser α) post where
  toSteady := .expected what
  reached {c s n} hn hs := by
    rw [run_expected]
    by_cases hnext : (s.peek c.finish).kind = .operator .shr
    · refine .inr (.inl ⟨_, rfl, .inl ?_⟩)
      simp [hnext, GrammarProblem.foundShr]
    · exact .error .refl (whole_of_halved (SaysHalved.halved hs) hnext)

lemma expect [SaysHalved pre] {what} (hkind : kind.isTaken inside = true) :
    Paced skips inside pre (Parser.expect kind what) (ready inside) := by
  have hrest : Paced skips inside pre (Parser.expected what : Parser Span) (ready inside) := expected
  refine look _ (.at? kind) (run_at? kind) fun b => ?_
  cases b with
  | true =>
    refine (advance (TokenKind.isRead_of_isTaken hkind)).of_pre fun c s h => ?_
    have hnext := of_decide_eq_true h.2
    exact ⟨whole_of_halved (SaysHalved.halved h.1) (hnext ▸ TokenKind.ne_shr_of_isTaken hkind), hnext⟩
  | false => exact hrest.of_pre fun _ _ h => h.1

lemma report {span cause} (hpre : ∀ c {s t}, s.Like t → pre c s → pre c t) :
    Paced skips inside pre (Parser.report span cause) pre where
  toSteady := .report span cause
  reached {c s n} _ hs := by
    have hlike : s.Like (s.report ⟨cause, span⟩) :=
      ⟨(s.report_rest _).symm, (s.report_previous _).symm, (s.report_splitAngle _).symm⟩
    refine .ok ?_ (hpre c hlike hs)
    change Paces skips (n, s.cursor) (n, (s.report ⟨cause, span⟩).cursor)
    rw [ParseState.report_cursor]

lemma reportHere {cause} (hpre : ∀ c {s t}, s.Like t → pre c s → pre c t) :
    Paced skips inside pre (Parser.reportHere cause) pre :=
  here fun _ => report hpre

lemma identifier [SaysWhole pre] : Paced skips inside pre Parser.identifier (ready inside) := by
  refine peekKind fun kind => ?_
  split
  · exact (advance rfl).discard.bind fun _ => keep
  · exact expected

lemma name [SaysWhole pre] : Paced skips inside pre Parser.name (ready inside) :=
  here fun _ => identifier.bind fun _ => keep

/-- A double angle is marked, and read when it closes a second time. -/
lemma closeAngle : Paced skips inside halved Parser.closeAngle halved where
  toSteady := .closeAngle
  reached {c s n} hn hs := by
    cases hsplit : s.splitAngle with
    | true =>
      rw [run_closeAngle_of_split hsplit]
      have hnext := hs hsplit
      refine .ok ?_ (halved_of_whole (by simp [whole]))
      exact Paces.advance (c := c) (s := { s with splitAngle := false }) hn (hnext ▸ rfl)
    | false =>
      by_cases hgt : (s.peek c.finish).kind = .operator .gt
      · rw [run_closeAngle_gt hsplit hgt]
        refine .ok ?_ (halved_of_whole (by simpa [whole] using hsplit))
        exact Paces.advance (c := c) hn (hgt ▸ rfl)
      · by_cases hshr : (s.peek c.finish).kind = .operator .shr
        · rw [run_closeAngle_shr hsplit hshr]
          exact .ok .refl fun _ => hshr
        · rw [run_closeAngle_error hsplit hgt hshr, run_expected]
          exact .error .refl hsplit

/-! ### Context -/

lemma withReader {g} {p : Parser α} (h : Paced skips inside pre p post) (hpre : ∀ c s, pre c s → pre (g c) s)
    (hpost : ∀ c s, post (g c) s → post c s) : Paced skips inside pre (MonadWithReader.withReader g p) post where
  toSteady := h.toSteady.withReader g
  reached {c s _} hn hs := (h.reached hn (hpre c s hs)).imp (hpost c)

lemma withStructLiterals {allow} {p : Parser α} (h : Keeps skips inside p whole) :
    Keeps skips inside (Parser.withStructLiterals allow p) whole :=
  h.withReader (fun _ _ h => h) fun _ _ h => h

/-- Where the limit is reached, a group is passed over. -/
lemma nested_of {post'} {p : Parser α} (h : Paced skips inside pre p post)
    (hpre : ∀ c s, pre' c s → pre { c with depth := c.depth + 1 } s)
    (hready : ∀ c s, pre' c s → nestingLimit ≤ c.depth → ready inside c s)
    (hpost : ∀ c s, c.depth < nestingLimit → post { c with depth := c.depth + 1 } s → post' c s) :
    Paced skips inside pre' (Parser.nested p) post' where
  toSteady := h.toSteady.nested
  reached {c s n} hn hs := by
    by_cases hdepth : nestingLimit ≤ c.depth
    · rw [run_nested_of_le hdepth]
      by_cases hskips : skips
      · obtain ⟨hwhole, hprevious⟩ := hready c s hs hdepth
        have hfar : n = 0 → s.previous.kind ≠ .punctuation .rBrace ∨ s.rest = [] := by
          intro hzero
          refine hprevious (Bool.eq_false_iff.2 fun hinside => ?_)
          have := hn hinside
          omega
        exact .error (.single (.skip hskips hfar)) hwhole
      · exact .inr (.inl ⟨_, rfl, .inr ⟨rfl, hskips⟩⟩)
    · rw [run_nested_of_lt (Nat.lt_of_not_le hdepth)]
      exact (h.reached hn (hpre c s hs)).imp fun t => hpost c t (Nat.lt_of_not_le hdepth)

lemma nested {p : Parser α} (h : Keeps skips inside p whole) : Keeps skips inside (Parser.nested p) whole :=
  h.nested_of (fun _ _ h => h) (fun _ _ h _ => h) fun _ _ _ h => h

/-! ### Repetition -/

lemma reached_rounds {step} (h : ∀ b, Paced skips inside pre (step b) pre) {c b s} {r : ParseResult β}
    (hr : Rounds step c b s r) {n} (hn : inside = true → 0 < n) (hpre : pre c s) : Reached skips n n pre c s r := by
  induction hr with
  | @error b s e s' hs =>
    obtain hspoilt | ⟨e', he, hspoils⟩ | ⟨hpaces, -, herror⟩ := hs ▸ (h b).reached hn hpre
    · exact .inl hspoilt
    · exact .inr (.inl ⟨e', by rw [Except.error.inj he], hspoils⟩)
    · exact .error hpaces (herror e rfl)
  | @last b s s' hs =>
    obtain hspoilt | ⟨e', he, -⟩ | ⟨hpaces, hok, -⟩ := hs ▸ (h b).reached hn hpre
    · exact .inl hspoilt
    · cases he
    · exact .ok hpaces (hok none rfl)
  | @stuck b s b' s' hs _ =>
    obtain hspoilt | ⟨e', he, -⟩ | ⟨hpaces, hok, -⟩ := hs ▸ (h b).reached hn hpre
    · exact .inl hspoilt
    · cases he
    · exact .ok hpaces (hok _ rfl)
  | @next b s b' s' r hs _ hr ih =>
    obtain hspoilt | ⟨e', he, -⟩ | ⟨hpaces, hok, -⟩ := hs ▸ (h b).reached hn hpre
    · exact .inl (hspoilt.grown (Steady.onward_rounds (fun b => (h b).toSteady) hr).grown)
    · cases he
    · exact (ih (hok _ rfl)).after fun _ h => hpaces.trans h

lemma iterate {step} (h : ∀ b, Paced skips inside pre (step b) pre) (b : β) :
    Paced skips inside pre (Parser.iterate step b) pre where
  toSteady := .iterate (fun b => (h b).toSteady) b
  reached {c s _} hn hpre := reached_rounds h (rounds_iterate step b c s) hn hpre

lemma commaSeparated [SaysHalved post] {item} (h : Keeps skips inside item post) (first : α) :
    Paced skips inside post (Parser.commaSeparated item first) post := by
  refine iterate (fun items => ?_) [first]
  refine accept rfl ?_ ?_
  · exact h.bind fun _ => keep
  · exact keep

lemma commaList [SaysHalved post] {item : Parser α} (h : Keeps skips inside item post) :
    Keeps skips inside (Parser.commaList item) post :=
  h.bind fun first => commaSeparated h first

lemma bracedList [SaysHalved post] {item : Parser α} (hpost : ∀ c s, ready inside c s → post c s)
    (h : Keeps skips inside item post) : Keeps skips inside (Parser.bracedList item) post := by
  refine h.bind fun first => iterate (fun items => ?_) [first]
  refine accept rfl ?_ ?_
  · refine at?_any fun b => ?_
    split
    · exact pure _ hpost
    · exact h.bind fun _ => keep
  · exact keep

/-! ### Braces -/

lemma reached_close (what) {c s} (n) (hs : halved c s) :
    Reached skips (n + 1) n whole c s (expectMark .rBrace what c s) := by
  rw [expectMark]
  by_cases hclose : (s.peek c.finish).kind = .punctuation .rBrace
  · rw [run_expect_of_eq hclose]
    have hwhole : whole c s := whole_of_halved hs (by simp [hclose])
    exact .ok (Paces.leave n hclose) (by simpa [whole] using hwhole)
  · rw [run_expect_of_ne hclose]
    have hexpected : Paced skips false halved (Parser.expected what : Parser Span) whole := expected
    exact (hexpected.reached (n := n) (by simp) hs).after fun _ h => (Paces.forget n 1 _).trans h

lemma braced [SaysHalved pre] [SaysHalved mid] {body} {k : α → Parser β}
    {opening closing} (hbody : Keeps skips true body mid) (hk : ∀ a, Paced skips inside whole (k a) post) :
    Paced skips inside pre (do
        Functor.discard (expectMark .lBrace opening)
        let a ← body
        Functor.discard (expectMark .rBrace closing)
        k a) post where
  toSteady :=
    (Steady.expect _ _).discard.bind fun _ => hbody.toSteady.bind fun a =>
      (Steady.expect _ _).discard.bind fun _ => (hk a).toSteady
  reached {c s n} hn hs := by
    have hclosing (a : α) : Steady (Functor.discard (expectMark .rBrace closing) >>= fun _ => k a) :=
      (Steady.expect _ _).discard.bind fun _ => (hk a).toSteady
    by_cases hopen : (s.peek c.finish).kind = .punctuation .lBrace
    · have hwhole : whole c s := whole_of_halved (SaysHalved.halved hs) (by simp [hopen])
      have hafter : ready true c s.advance := ready_true (by simpa [whole] using hwhole)
      have hrun : (Functor.discard (expectMark .lBrace opening) : Parser Unit) c s = (.ok (), s.advance) := by
        exact run_bind_ok (run_expect_of_eq hopen) fun _ => Pure.pure ()
      rw [run_bind_ok hrun]
      refine Reached.after (m := n + 1) ?_ fun _ h => Paces.enter hopen h
      refine Reached.bind (Nat.le_succ n) (hbody.reached (fun _ => Nat.succ_pos n) hafter) hclosing ?_
      intro a s' hs'
      refine Reached.bind (Nat.le_refl n) ?_ (fun _ => (hk a).toSteady) fun _ s'' hs'' => (hk a).reached hn hs''
      exact (reached_close closing n (SaysHalved.halved hs')).bind (Nat.le_refl n) (fun _ => .pure _)
        fun _ _ h => .ok .refl h
    · have hrun : (Functor.discard (expectMark .lBrace opening) : Parser Unit) c s =
          (Parser.expected opening : Parser Unit) c s := by
        exact run_bind_error (run_expect_of_ne hopen) fun _ => Pure.pure ()
      rw [run_bind_error (hrun.trans (run_expected _ c s)), ← run_expected]
      exact expected.reached hn hs

/-! ### Recovery -/

lemma recoverRound {item recover} (hitem : Keeps skips true item whole) (hrecover : Resumes skips recover)
    (items : List α) : Paced skips true whole (Parser.recoverRound atClose item recover items) whole where
  toSteady := .recoverRound _ (fun c _ _ h => by rw [h.peek]) run_atClose hitem.toSteady hrecover.toMoves items
  reached {c s n} hn hs := by
    by_cases hclose : (s.peek c.finish).kind = .punctuation .rBrace ∨ (s.peek c.finish).kind = .eof
    · rw [run_recoverRound_stop (run_atClose_true hclose)]
      exact .ok .refl hs
    · have hstop := run_atClose_false hclose
      have hreached := hitem.reached hn (ready_true hs)
      cases hrun : item c s with
      | mk o s' =>
        rw [hrun] at hreached
        cases o with
        | ok a =>
          rw [run_recoverRound_ok hstop hrun]
          obtain hspoilt | ⟨e, he, -⟩ | ⟨hpaces, hok, -⟩ := hreached
          · exact .inl hspoilt
          · cases he
          · exact .ok hpaces (hok a rfl)
        | error e =>
          rw [run_recoverRound_error hstop hrun]
          have hgrown := (Steady.onward_resume hrecover.toMoves s s' e).grown
          obtain hspoilt | ⟨e', he, hspoils⟩ | ⟨hpaces, -, hwhole⟩ := hreached
          · exact .inl (hspoilt.grown ((s'.grown_report e).trans hgrown))
          · obtain rfl := Except.error.inj he
            exact .inl ((s'.spoilt_report hspoils).grown hgrown)
          · refine .ok (hrecover.resume (hn rfl) hclose hpaces e) ?_
            have hafter : (recover (s'.report e)).splitAngle = false :=
              hrecover.splitAngle (by rw [ParseState.report_splitAngle]; exact hwhole e rfl)
            change (Parser.resume recover s e s').splitAngle = false
            unfold Parser.resume
            split
            · simpa using hafter
            · exact hafter

lemma recovering [SaysWhole pre] {item : Parser α} {recover} (hitem : Keeps skips true item whole)
    (hrecover : Resumes skips recover) : Paced skips true pre (Parser.recovering atClose item recover) whole :=
  (iterate (recoverRound hitem hrecover) []).of_pre fun _ _ h => SaysWhole.whole h

lemma recoveringInBlock [SaysWhole pre] {item : Parser α} {recover} (hitem : Keeps skips true item whole)
    (hrecover : Resumes skips recover) : Paced skips true pre (Parser.recoveringInBlock item recover) whole := by
  rw [Parser.recoveringInBlock, Steady.recoverRoundInBlock_eq hitem.toSteady hrecover.toMoves]
  exact recovering hitem hrecover

end Paced

end SourceCheck
