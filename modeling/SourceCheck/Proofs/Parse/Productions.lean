import SourceCheck.Proofs.Parse.Paced

/-!
# The pace of the grammar

All productions keep the pace. Only a type may end in half of a double angle.
-/

open SourceCheck.Parser

namespace SourceCheck

variable {kind : TokenKind} {what : String}

def Production.post : Production → Assertion
  | .type => shallow
  | _ => whole

/-- Whether a production is read there, inside or outside of braces. -/
def Production.stands : Production → Bool → Bool
  | .pattern, inside | .block, inside | .ifStmt, inside => inside
  | _, _ => true

/-- Parsers of the parts inside a part that keep the pace. -/
structure PacedParts (skips : Prop) (sub : Subparsers) : Prop where
  part (p : Production) (inside : Bool) :
    p.stands inside = true → Paced.Keeps skips inside (sub p) p.post

lemma Paced.anywhere {α : Type} {skips : Prop} {pre post} [SaysWhole pre] {p : Parser α}
    (h : Keeps skips true p post) : Paced skips true pre p post :=
  h.of_pre fun _ _ h => ready_true (SaysWhole.whole h)

namespace PacedParts

variable {skips : Prop} {sub : Subparsers} {inside : Bool} {pre : Assertion} (h : PacedParts skips sub)
include h

lemma type : Paced.Keeps skips inside sub.type halved :=
  (h.part .type inside rfl).mono (fun _ _ h => h) fun _ _ h => h.2

lemma expr : Paced.Keeps skips inside sub.expr whole := h.part (.expr 1) inside rfl

lemma operand : Paced.Keeps skips inside sub.operand whole := h.part .operand inside rfl

lemma pattern [SaysWhole pre] : Paced skips true pre sub.pattern whole :=
  Paced.anywhere (h.part .pattern true rfl)

lemma block [SaysWhole pre] : Paced skips true pre sub.block whole :=
  Paced.anywhere (h.part .block true rfl)

end PacedParts

namespace Paced

variable {α : Type} {skips : Prop} {inside : Bool} {pre post : Assertion} {sub : Subparsers}

lemma done [SaysWhole pre] {a} : Paced skips inside pre (Pure.pure a : Parser α) whole :=
  pure a fun _ _ h => SaysWhole.whole h

lemma doneHalved [SaysHalved pre] {a} : Paced skips inside pre (Pure.pure a : Parser α) halved :=
  pure a fun _ _ h => SaysHalved.halved h

lemma doneSince [SaysWhole pre] {start} {f : Span → α} :
    Paced skips inside pre (Parser.since start >>= fun span => Pure.pure (f span)) whole :=
  (since start).bind fun _ => done

lemma doneHalvedSince [SaysHalved pre] {start} {f : Span → α} :
    Paced skips inside pre (Parser.since start >>= fun span => Pure.pure (f span)) halved :=
  (since start).bind fun _ => doneHalved

lemma token [SaysHalved pre] {k : Unit → Parser α}
    (hkind : kind.isTaken inside = true) (hk : Keeps skips inside (k ()) post) :
    Paced skips inside pre (Functor.discard (Parser.expect kind what) >>= k) post :=
  (expect hkind).discard.bind fun _ => hk

lemma pass {k : Unit → Parser α} (hkind : kind.isRead inside = true) (hk : Keeps skips inside (k ()) post) :
    Paced skips inside (next kind) (Functor.discard Parser.advance >>= k) post :=
  (advance hkind).discard.bind fun _ => hk

lemma ready_like (c) {s t} (h : s.Like t) (hs : ready inside c s) : ready inside c t := by
  rw [ready, ← h.splitAngle, ← h.previous, ← h.rest]
  exact hs

lemma next_like (c) {s t} (h : s.Like t) (hs : next kind c s) : next kind c t := by
  rw [next, ← h.splitAngle, ← h.peek]
  exact hs

end Paced

/-- Parsers that start with a token of some kind and keep the pace behind it. -/
def Opens {α : Type} (skips : Prop) (inside : Bool) (kind : TokenKind) (p : Parser α) (post : Assertion) : Prop :=
  ∃ what k, p = (expect kind what >>= k) ∧ ∀ span, Paced.Keeps skips inside (k span) post

namespace Opens

variable {α : Type} {skips : Prop} {inside : Bool} {kind : TokenKind} {p : Parser α} {pre post : Assertion}

lemma token {k : Unit → Parser α} (hk : Paced.Keeps skips inside (k ()) post) :
    Opens skips inside kind (Functor.discard (expect kind what) >>= k) post :=
  ⟨what, fun _ => k (), discard_bind _ k, fun _ => hk⟩

lemma paced (h : Opens skips inside kind p post) [SaysHalved pre] (hkind : kind.isTaken inside = true) :
    Paced skips inside pre p post := by
  obtain ⟨what, k, rfl, hk⟩ := h
  exact (Paced.expect hkind).bind hk

end Opens

namespace Paced

variable {α : Type} {skips : Prop} {inside : Bool} {pre post : Assertion} {sub : Subparsers}

/-! ### Types -/

section
variable (h : PacedParts skips sub)
include h

lemma typeArgs [SaysWhole pre] : Paced skips inside pre (Parser.typeArgs sub) halved := by
  refine token rfl ?_
  refine (commaList h.type).bind fun args => ?_
  exact closeAngle.bind fun _ => doneHalved

lemma singleTypeArg (wrapper : String) : Keeps skips inside (Parser.singleTypeArg sub wrapper) halved := by
  refine token rfl ?_
  exact h.type.bind fun inner => closeAngle.bind fun _ => doneHalved

lemma bracketType (start : Span) : Keeps skips inside (Parser.bracketType sub start) halved := by
  refine accept rfl ?_ ?_
  · exact h.type.bind fun elem => doneHalvedSince
  · refine h.expr.withStructLiterals.bind fun size => ?_
    refine token rfl ?_
    exact h.type.bind fun elem => doneHalvedSince

lemma pointerType (start) : Keeps skips inside (Parser.pointerType sub start) halved := by
  have hmutability : Keeps skips inside Parser.pointerMutability (ready inside) := by
    refine accept rfl keep ?_
    exact accept rfl keep expected
  exact hmutability.bind fun mutability => h.type.bind fun target => doneHalvedSince

lemma tupleType (start : Span) : Keeps skips inside (Parser.tupleType sub start) halved := by
  refine accept rfl ?_ ?_
  · exact (since start).bind fun _ => failAt
  · refine (commaList h.type).bind fun elems => ?_
    refine token rfl ?_
    split
    · exact (since start).bind fun _ => failAt
    · exact doneHalvedSince

lemma resultType (start : Span) : Keeps skips inside (Parser.resultType sub start) halved := by
  refine token rfl ?_
  refine h.type.bind fun ok => ?_
  refine token rfl ?_
  exact h.type.bind fun err => closeAngle.bind fun _ => doneHalvedSince

lemma optionalTypeArgs : Keeps skips inside (Parser.optionalTypeArgs sub) halved := by
  refine at?_any fun b => ?_
  split
  · exact typeArgs h
  · exact doneHalved

lemma typeRule : Keeps skips inside (Parser.typeRule sub) halved := by
  refine here fun start => peekKind fun kind => ?_
  split
  · exact pass rfl doneHalved
  · exact pass rfl (bracketType h start)
  · exact pass rfl (pointerType h start)
  · exact pass rfl (tupleType h start)
  · exact pass rfl (resultType h start)
  · exact pass rfl ((singleTypeArg h _).bind fun inner => doneHalvedSince)
  · exact pass rfl ((singleTypeArg h _).bind fun inner => doneHalvedSince)
  · exact pass rfl ((optionalTypeArgs h).bind fun args => doneHalvedSince)
  · exact expected

end

/-! ### Annotations -/

lemma annotationName [SaysWhole pre] : Paced skips inside pre Parser.annotationName (ready inside) := by
  refine peekKind fun kind => ?_
  split
  · exact pass rfl keep
  · exact expected

lemma isRead_of_annotationValue? {value} (h : annotationValue? kind = some value) : kind.isRead inside = true := by
  unfold annotationValue? at h
  split at h
  all_goals cases h
  all_goals rfl

lemma annotationValue [SaysWhole pre] : Paced skips inside pre Parser.annotationValue whole := by
  refine peekKind fun kind => ?_
  split
  · rename_i hvalue
    exact pass (isRead_of_annotationValue? hvalue) done
  · exact expected

lemma annotationPair [SaysWhole pre] : Paced skips inside pre Parser.annotationPair whole := by
  refine identifier.bind fun key => ?_
  refine token rfl ?_
  exact annotationValue.bind fun value => done

lemma annotationArgs : Keeps skips inside Parser.annotationArgs whole := by
  refine accept rfl done ?_
  refine at?_any fun b => ?_
  split
  · exact (reportHere ready_like).bind fun _ => done
  · refine peekKind_any fun kind => peekAt 1 fun second => ?_
    split
    · exact (commaList annotationPair).bind fun _ => done
    · exact (commaList annotationValue).bind fun _ => done

lemma parenArgs [SaysWhole pre] : Paced skips inside pre Parser.parenArgs whole := by
  refine accept rfl ?_ done
  exact annotationArgs.bind fun args => token rfl done

lemma hashForm [SaysWhole pre] (start : Span) : Paced skips inside pre (Parser.hashForm start) (ready inside) := by
  refine token rfl ?_
  refine annotationName.bind fun name => parenArgs.bind fun args => ?_
  exact token rfl ((since start).bind fun _ => keep)

lemma atSignForm [SaysWhole pre] (start) : Paced skips inside pre (Parser.atSignForm start) (ready inside) :=
  annotationName.bind fun _ => (since start).bind fun _ => (report ready_like).bind fun _ =>
    keep

lemma annotationList_of [SaysWhole pre] (hpre : ∀ c s, ready inside c s → pre c s) :
    Paced skips inside pre Parser.annotationList pre := by
  refine iterate (fun found => ?_) []
  refine peekKind_keep fun kind => ?_
  have hnext (c : ParseContext) (s : ParseState) (h : pre c s ∧ (s.peek c.finish).kind = kind) :
      next kind c s := ⟨SaysWhole.whole h.1, h.2⟩
  split
  · refine ((advance rfl).bind fun start => (hashForm start).bind fun _ => ?_).of_pre hnext
    exact pure _ hpre
  · refine ((advance rfl).bind fun start => (atSignForm start).bind fun _ => ?_).of_pre hnext
    exact pure _ hpre
  · exact pure _ fun _ _ h => h.1

lemma annotationList : Keeps skips inside Parser.annotationList (ready inside) :=
  annotationList_of fun _ _ h => h

/-! ### Expressions -/

lemma isRead_of_logicalPrefix? (h : (logicalPrefix? kind).isSome = true) : kind.isRead inside = true := by
  unfold logicalPrefix? at h
  split at h
  all_goals cases h
  all_goals rfl

lemma isRead_of_isPointerPrefix (h : isPointerPrefix kind = true) : kind.isRead inside = true := by
  unfold isPointerPrefix at h
  split at h
  all_goals cases h
  all_goals rfl

lemma isRead_of_binaryOp? {op} (h : binaryOp? kind = some op) : kind.isRead inside = true := by
  unfold binaryOp? at h
  split at h
  · rfl
  · cases h

lemma acceptAny (hkind : kind.isTaken inside = true) :
    Keeps skips inside (Functor.discard (Parser.accept kind)) (ready inside) :=
  accept hkind keep keep

lemma skipLogical : Keeps skips inside Parser.skipLogical (ready inside) := by
  refine peekKind_any fun kind => ?_
  split
  · refine peek_any fun _ => (reportHere ready_like).bind fun _ => ?_
    refine iterate (fun _ => peekKind_keep fun kind => ?_) ()
    split
    · rename_i hlogical
      refine (pass (isRead_of_logicalPrefix? hlogical) ?_).of_pre fun _ _ h => ⟨h.1.1, h.2⟩
      exact keep
    · exact pure _ fun _ _ h => h.1
  · exact keep

lemma logicalOperator : Keeps skips inside Parser.logicalOperator (ready inside) := by
  refine peekKind_keep fun kind => ?_
  split
  · rename_i hlogical
    have hread : kind.isRead inside = true := isRead_of_logicalPrefix? (by simp [hlogical])
    refine (pass hread (skipLogical.bind fun _ => ?_)).of_pre fun _ _ h => ⟨h.1.1, h.2⟩
    exact keep
  · exact pure _ fun _ _ h => h.1

lemma skipPointers : Keeps skips inside Parser.skipPointers (ready inside) := by
  refine peekKind_any fun kind => ?_
  split
  · refine peek_any fun _ => (reportHere ready_like).bind fun _ => ?_
    refine iterate (fun _ => peekKind_keep fun kind => ?_) ()
    split
    · rename_i hpointer
      have hmut : Keeps skips inside (Functor.discard (Parser.acceptKeyword .mutKw)) (ready inside) := acceptAny rfl
      refine (pass (isRead_of_isPointerPrefix hpointer) (hmut.bind fun _ => ?_)).of_pre
        fun _ _ h => ⟨h.1.1, h.2⟩
      exact keep
    · exact pure _ fun _ _ h => h.1
  · exact keep

lemma pointerOperator : Keeps skips inside Parser.pointerOperator (ready inside) := by
  have hskip (op : PointerPrefix) : Paced skips inside (ready inside)
      (do Parser.skipPointers; Pure.pure (some op)) (ready inside) :=
    skipPointers.bind fun _ => keep
  have hmut : Keeps skips inside (Functor.discard (Parser.acceptKeyword .mutKw)) (ready inside) := acceptAny rfl
  refine peekKind_keep fun kind => ?_
  split
  · exact (pass rfl (hskip _)).of_pre fun _ _ h => ⟨h.1.1, h.2⟩
  · exact (pass rfl (accept rfl (hskip _) (hskip _))).of_pre fun _ _ h => ⟨h.1.1, h.2⟩
  · refine ((advance rfl).bind fun _ => (report ready_like).bind fun _ => ?_).of_pre fun _ _ h => ⟨h.1.1, h.2⟩
    exact hmut.bind fun _ => hskip _
  · exact pure _ fun _ _ h => h.1

lemma atStructLiteral {k : Bool → Parser α} (hk : ∀ b, Paced skips inside pre (k b) post) :
    Paced skips inside pre (Parser.atStructLiteral >>= k) post :=
  look_any opensLiteral .atStructLiteral run_atStructLiteral hk

lemma memberAccess (base : Expr) : Keeps skips inside (Parser.memberAccess base) whole := by
  refine peek fun token => ?_
  split
  · rename_i hkind
    exact pass (by rw [hkind]; rfl) doneSince
  · rename_i hkind
    exact pass (by rw [hkind]; rfl) doneSince
  · rename_i hkind
    split
    · exact pass (by rw [hkind]; rfl) doneSince
    · exact failAt
  · exact expected

section
variable (h : PacedParts skips sub)
include h

lemma callArgs [SaysWhole pre] : Paced skips inside pre (Parser.callArgs sub) whole := by
  refine token rfl ?_
  refine accept rfl done ?_
  refine accept rfl (token rfl done) ?_
  refine at? ?_ ?_
  · exact (advance rfl).bind fun _ => (report ready_like).bind fun _ => token rfl done
  · refine (commaList h.expr).withStructLiterals.bind fun args => ?_
    exact token rfl done

lemma fieldInit : Keeps skips inside (Parser.fieldInit sub) whole := by
  refine name.bind fun field => token rfl ?_
  exact h.expr.withStructLiterals.bind fun value => done

lemma fieldInits : Keeps skips inside (Parser.fieldInits sub) whole := by
  refine accept rfl done ?_
  refine at?_any fun b => ?_
  split
  · exact done
  · exact bracedList (fun _ _ h => SaysWhole.whole h) (fieldInit h)

lemma structLiteral [SaysWhole pre] (name) (typeArgs : List TypeExpr) :
    Paced skips inside pre (Parser.structLiteral sub name typeArgs) whole :=
  braced (fieldInits h) fun _ => doneSince

lemma associatedCall [SaysWhole pre] (typeName : Name) (typeArgs) :
    Paced skips inside pre (Parser.associatedCall sub typeName typeArgs) whole := by
  refine token rfl ?_
  refine name.bind fun function => at?_any fun b => ?_
  dsimp only
  split
  · exact peekKind_any fun _ => fail
  · exact (callArgs h).bind fun args => doneSince

lemma dottedPair (head) : Keeps skips inside (Parser.dottedPair sub head) whole := by
  refine name.bind fun member => at?_any fun b => ?_
  split
  · exact (callArgs h).bind fun args => doneSince
  · exact doneSince

lemma genericSuffix [SaysWhole pre] : Paced skips inside pre (Parser.genericSuffix sub) whole where
  toSteady := .genericSuffix (show Paced skips inside pre (Parser.typeArgs sub) halved from typeArgs h).toSteady
  reached {c s n} hn hs := by
    obtain ⟨args, s', hargs, hconfirms, hrun⟩ | ⟨-, hrun⟩ := run_genericSuffix_cases sub c s
    · have hreached := (typeArgs h).reached hn hs
      rw [hargs] at hreached
      rw [hrun]
      obtain hspoilt | ⟨e, he, -⟩ | ⟨hpaces, -, -⟩ := hreached
      · exact .inl hspoilt
      · cases he
      · have hwhole : s'.splitAngle = false := by
          simp only [confirmsTypeArgs, Bool.and_eq_true, Bool.not_eq_true'] at hconfirms
          exact hconfirms.1
        exact .ok hpaces hwhole
    · rw [hrun]
      exact .ok .refl (SaysWhole.whole hs)

lemma nameExpr (first : Name) : ∃ k, Parser.nameExpr sub first = (Functor.discard Parser.advance >>= k) ∧
    Keeps skips inside (k ()) whole := by
  refine ⟨_, rfl, peekKind fun kind => ?_⟩
  split
  · exact (associatedCall h first [])
  · refine ((genericSuffix h)).bind fun found => ?_
    split
    · refine at?_any fun b => ?_
      split
      · exact associatedCall h first _
      · exact structLiteral h first _
    · exact done
  · refine peekAt 1 fun second => ?_
    split
    · exact pass rfl (dottedPair h first)
    · exact pure _ fun _ _ h => h.1
  · refine atStructLiteral fun b => ?_
    split
    · exact (structLiteral h first [])
    · exact pure _ fun _ _ h => h.1

lemma parenExpr (start : Span) : Keeps skips inside (Parser.parenExpr sub start) whole := by
  refine accept rfl doneSince (withStructLiterals ?_)
  refine h.expr.bind fun first => accept rfl ?_ ?_
  · refine h.expr.bind fun second => (commaSeparated h.expr second).bind fun rest => ?_
    exact token rfl doneSince
  · exact token rfl doneSince

lemma arrayExpr (start : Span) : Keeps skips inside (Parser.arrayExpr sub start) whole := by
  refine accept rfl (token rfl doneSince) ?_
  refine at? ?_ (withStructLiterals ?_)
  · exact (reportHere next_like).bind fun _ => pass rfl doneSince
  · refine h.expr.bind fun first => accept rfl ?_ ?_
    · exact h.expr.bind fun count => token rfl doneSince
    · refine (commaSeparated h.expr first).bind fun elems => ?_
      exact token rfl doneSince

lemma builtinVariant (head : Name) (hkind : kind.isRead inside = true) :
    Paced skips inside (next kind) (Parser.builtinVariant sub head) whole :=
  pass hkind (token rfl (dottedPair h head))

lemma primaryRule : Keeps skips inside (Parser.primaryRule sub) whole := by
  refine here fun start => peekKind fun kind => ?_
  cases kind with
  | int | float | string | char => exact pass rfl done
  | ident text =>
    obtain ⟨k, hk, hpaced⟩ := nameExpr h ⟨text, start⟩
    dsimp only
    rw [hk]
    exact pass rfl hpaced
  | keyword k =>
    cases k with
    | trueKw | falseKw | selfKw => exact pass rfl done
    | sizeofKw =>
      refine pass rfl (token rfl ?_)
      exact h.type.bind fun type => token rfl doneSince
    | awaitKw => exact pass rfl (h.operand.bind fun handle => doneSince)
    | resultKw | optionKw => exact builtinVariant h _ rfl
    | noneKw => exact failAt
    | _ => exact expected
  | punctuation p =>
    cases p with
    | lParen => exact pass rfl (parenExpr h start)
    | lBracket => exact pass rfl (arrayExpr h start)
    | _ => exact expected
  | primitive | operator | eof => exact expected

lemma sliceEnd : Keeps skips inside (Parser.sliceEnd sub) whole := by
  refine at?_any fun b => ?_
  split
  · exact done
  · exact h.expr.bind fun stop => done

lemma bracketSuffix (base) : Keeps skips inside (Parser.bracketSuffix sub base) whole := by
  refine accept rfl ((sliceEnd h).bind fun stop => done) ?_
  refine h.expr.bind fun first => accept rfl ?_ done
  exact (sliceEnd h).bind fun stop => done

lemma suffix [SaysWhole pre] (base) : Paced skips inside pre (Parser.suffix sub base) whole := by
  refine peekKind fun kind => ?_
  split
  · exact ((callArgs h).bind fun args => doneSince)
  · exact pass rfl ((memberAccess base).bind fun access => done)
  · refine pass rfl ((bracketSuffix h base).withStructLiterals.bind fun build => ?_)
    exact token rfl doneSince
  · exact pure _ fun _ _ h => h.1

lemma operandRule : Keeps skips inside (Parser.operandRule sub) whole :=
  (primaryRule h).nested.bind fun base => iterate (suffix h) base

lemma unaryRule : Keeps skips inside (Parser.unaryRule sub) whole := by
  refine here fun start => logicalOperator.bind fun logical => pointerOperator.bind fun pointer => ?_
  refine (operandRule h).bind fun operand => ?_
  split
  · exact done
  · exact done

lemma operation [SaysWhole pre] (minPrecedence left) :
    Paced skips inside pre (Parser.operation sub minPrecedence left) whole := by
  refine peekKind fun kind => ?_
  split
  · rename_i op hop
    have hright : Keeps skips inside (sub (.expr (op.operator.precedence + 1))) whole :=
      h.part (.expr _) inside rfl
    split
    · exact pure _ fun _ _ h => h.1
    · exact pass (isRead_of_binaryOp? hop) (hright.bind fun right => done)
  · exact pure _ fun _ _ h => h.1

lemma exprRule (minPrecedence) : Keeps skips inside (Parser.exprRule sub minPrecedence) whole :=
  (unaryRule h).bind fun first => iterate (operation h minPrecedence) first

/-! ### Patterns -/

lemma patternArgs : Keeps skips true (Parser.patternArgs sub) whole := by
  refine accept rfl done ?_
  refine at?_any fun b => ?_
  split
  · exact (reportHere ready_like).bind fun _ => done
  · exact commaList h.pattern

lemma variantArgs : Keeps skips true (Parser.variantArgs sub) whole := by
  refine accept rfl ?_ done
  exact (patternArgs h).bind fun args => token rfl done

lemma variantPattern (enumName start) : Keeps skips true (Parser.variantPattern sub enumName start) whole :=
  identifier.bind fun _ => (variantArgs h).bind fun _ => doneSince

lemma namedPattern (head builtin start) : Keeps skips true (Parser.namedPattern sub head builtin start) whole := by
  unfold Parser.namedPattern
  split
  · exact done
  · refine at? ?_ ?_
    · exact (advance rfl).bind fun _ => (report ready_like).bind fun _ => variantPattern h head start
    · refine accept rfl (variantPattern h head start) ?_
      simp only [Bool.false_eq_true, ↓reduceIte]
      split
      · exact expected
      · exact done

lemma parenPattern (start) : Keeps skips true (Parser.parenPattern sub start) whole := by
  refine h.pattern.bind fun first => accept rfl ?_ ?_
  · refine h.pattern.bind fun second => ?_
    refine (commaSeparated h.pattern second).bind fun rest => ?_
    exact token rfl doneSince
  · exact token rfl done

lemma patternRule : Keeps skips true (Parser.patternRule sub) whole := by
  refine here fun start => peekKind fun kind => ?_
  cases kind with
  | int | string | char => exact pass rfl done
  | float => exact failAt
  | ident => exact pass rfl (namedPattern h _ _ start)
  | keyword k =>
    cases k with
    | trueKw | falseKw => exact pass rfl done
    | mutKw => exact pass rfl (identifier.bind fun name => doneSince)
    | resultKw | optionKw => exact pass rfl (namedPattern h _ _ start)
    | _ => exact expected
  | punctuation p =>
    cases p with
    | lParen => exact pass rfl (parenPattern h start)
    | _ => exact expected
  | primitive | operator | eof => exact expected

/-! ### Statements -/

lemma headExpr : Keeps skips true (Parser.headExpr sub) whole :=
  h.expr.withStructLiterals

lemma letStmt (start annotations) :
    Opens skips true (.keyword .letKw) (Parser.letStmt sub start annotations) whole := by
  have hrest (mutable : Bool) : Keeps skips true (do
      let bound ← Parser.name
      if !(← Parser.acceptMark .colon) then
        Parser.fail (.untypedBinding bound.node)
      let type ← sub.type
      Functor.discard (Parser.expectOperator .eq "'=' and an initial value")
      let value ← sub.expr
      Functor.discard (Parser.expectMark .semicolon "';' after let statement")
      return Stmt.letBinding (← Parser.since start) annotations mutable bound type value) whole := by
    refine name.bind fun bound => accept rfl ?_ fail
    refine h.type.bind fun type => token rfl ?_
    exact h.expr.bind fun value => token rfl doneSince
  exact .token (accept rfl (hrest true) (hrest false))

lemma returnStmt (start) : Keeps skips true (Parser.returnStmt sub start) whole := by
  refine at?_any fun b => ?_
  dsimp only
  split
  · exact fail
  · exact h.expr.bind fun value => token rfl doneSince

lemma elseBranch [SaysWhole pre] : Paced skips true pre (Parser.elseBranch sub) whole := by
  refine accept rfl ?_ done
  refine at?_any fun b => ?_
  split
  · exact (nested (h.part .ifStmt true rfl)).bind fun _ => done
  · exact h.block.bind fun _ => done

lemma ifRule : Opens skips true (.keyword .ifKw) (Parser.ifRule sub) whole := by
  refine ⟨_, _, rfl, fun start => accept rfl ?_ ?_⟩
  · refine h.pattern.bind fun pattern => token rfl ?_
    exact (headExpr h).bind fun _ => h.block.bind fun _ => (elseBranch h).bind fun _ => doneSince
  · exact (headExpr h).bind fun _ => h.block.bind fun _ => (elseBranch h).bind fun _ => doneSince

lemma forStmt (start) : Keeps skips true (Parser.forStmt sub start) whole := by
  refine name.bind fun binding => token rfl ?_
  exact (headExpr h).bind fun _ => h.block.bind fun _ => doneSince

lemma armBody : Keeps skips true (Parser.armBody sub) whole := by
  refine at?_any fun b => ?_
  split
  · have hcomma : Paced skips true whole (Functor.discard (Parser.acceptMark .comma)) (ready true) :=
      anywhere (acceptAny rfl)
    exact h.block.bind fun body => hcomma.bind fun _ => done
  · refine h.expr.bind fun value => accept rfl done ?_
    refine at?_any fun b => ?_
    split
    · exact expected
    · exact done

lemma matchArm : Keeps skips true (Parser.matchArm sub) whole := by
  refine here fun start => h.pattern.bind fun pattern => token rfl ?_
  exact (armBody h).bind fun _ => doneSince

lemma matchStmt (start) : Keeps skips true (Parser.matchStmt sub start) whole := by
  refine (headExpr h).bind fun scrutinee => ?_
  exact braced (recoveringInBlock (matchArm h) (resumes_toArm skips)) fun _ => doneSince

lemma spawnStmt (start) : Keeps skips true (Parser.spawnStmt sub start) whole :=
  h.expr.bind fun _ => token rfl doneSince

lemma spawnWithHandleStmt (start) : Keeps skips true (Parser.spawnWithHandleStmt sub start) whole := by
  refine name.bind fun handle => token rfl ?_
  exact h.expr.bind fun _ => token rfl doneSince

lemma simpleStmt (start) : Keeps skips true (Parser.simpleStmt sub start) whole := by
  refine h.expr.bind fun value => accept rfl ?_ ?_
  · exact h.expr.bind fun source => token rfl doneSince
  · exact token rfl doneSince

lemma stmtRule : Keeps skips true (Parser.stmtRule sub) whole := by
  refine here fun start => peekKind fun kind => ?_
  have hannotated : Keeps skips true (do
      let annotations ← Parser.annotationList
      if !(← Parser.atKeyword .letKw) then
        Parser.expected "'let' after statement annotations"
      Parser.letStmt sub start annotations) whole := by
    refine annotationList.bind fun annotations => at?_any fun b => ?_
    dsimp only
    split
    · exact expected
    · exact (letStmt h start annotations).paced rfl
  split
  · exact anywhere hannotated
  · exact anywhere hannotated
  · exact (letStmt h start []).paced rfl
  · exact pass rfl (returnStmt h start)
  · exact (ifRule h).paced rfl
  · exact pass rfl (forStmt h start)
  · exact pass rfl (matchStmt h start)
  · exact pass rfl (spawnStmt h start)
  · exact pass rfl (spawnWithHandleStmt h start)
  · exact pass rfl (h.block.bind fun _ => doneSince)
  · exact h.block.bind fun _ => doneSince
  · exact pass rfl (token rfl doneSince)
  · exact pass rfl (token rfl doneSince)
  · exact anywhere (simpleStmt h start)

lemma blockRule : Paced skips inside halved (Parser.blockRule sub) whole :=
  braced (recoveringInBlock (stmtRule h) (resumes_toStatement skips))
    fun _ => done

lemma rule (p) (hstands : p.stands inside = true) : Keeps skips inside (Parser.rule sub p) p.post := by
  cases p with
  | type => exact (typeRule h).nested_of (fun _ _ h => h) (fun _ _ h _ => h) fun _ _ hdepth h => ⟨hdepth, h⟩
  | pattern =>
    obtain rfl : inside = true := hstands
    exact (patternRule h).nested
  | expr minPrecedence => exact exprRule h minPrecedence
  | operand => exact operandRule h
  | block => exact ((blockRule h).of_pre fun _ _ h => SaysHalved.halved h).nested
  | ifStmt =>
    obtain rfl : inside = true := hstands
    exact (ifRule h).paced rfl

end

end Paced

/-! ### The grammar -/

/-- A parser keeps the pace if at every place it runs like one that does. -/
lemma Paced.of_rest {α : Type} {skips inside pre post p} (rules : List Token → Parser α)
    (hrun : ∀ c s, p c s = rules s.rest c s) (h : ∀ rest, Paced skips inside pre (rules rest) post) :
    Paced skips inside pre p post where
  blind c s t hlike := by
    rw [hrun, hrun, ← hlike.rest]
    exact (h _).blind c hlike
  onward c s := by
    rw [hrun]
    exact (h _).onward c s
  reached {c s n} hn hs := by
    rw [hrun]
    exact (h _).reached hn hs

/-- The induction is on the number of tokens left. -/
lemma pacedParts_guarded (skips : Prop) (n) : PacedParts skips (guarded n) := by
  induction n using Nat.strongRecOn with
  | _ n ih =>
    refine ⟨fun q inside hstands => .of_rest (fun rest => if rest.length < n then Parser.rule (guarded rest.length) q
      else fail .nestingTooDeep) (fun c s => ?_) fun rest => ?_⟩
    · split
      · rename_i hlt
        exact guarded_of_lt hlt q
      · rename_i hlt
        exact guarded_of_not_lt hlt q
    · split
      · rename_i hlt
        exact Paced.rule (ih _ hlt) q hstands
      · exact Paced.fail

lemma pacedParts_grammar (skips : Prop) : PacedParts skips grammar where
  part q inside hstands := .of_rest (fun rest => guarded (rest.length + 1) q)
    (fun _ _ => run_grammar (Nat.lt_succ_self _) q) fun _ => (pacedParts_guarded skips _).part q inside hstands

/-! ### Declarations -/

namespace Paced

variable {α : Type} {skips : Prop} {inside : Bool} {pre : Assertion}

lemma grammarType : Keeps skips inside grammar.type halved :=
  (pacedParts_grammar skips).type

lemma grammarExpr : Keeps skips inside grammar.expr whole :=
  (pacedParts_grammar skips).expr

lemma grammarBlock : Paced skips inside shallow grammar.block whole where
  toSteady := ((pacedParts_grammar skips).part .block true rfl).toSteady
  reached {c s n} hn hs := by
    have hrule : Paced skips inside shallow (Parser.nested (Parser.blockRule (guarded s.rest.length))) whole :=
      (blockRule (pacedParts_guarded skips s.rest.length)).nested_of (fun _ _ h => h.2)
        (fun _ _ h hdepth => absurd h.1 (Nat.not_lt.2 hdepth)) fun _ _ _ h => h
    rw [Subparsers.block, run_grammar (Nat.lt_succ_self s.rest.length), guarded_of_lt (Nat.lt_succ_self _)]
    exact hrule.reached hn hs

lemma visibility : Keeps skips true Parser.visibility whole := by
  refine accept rfl done (accept rfl done ?_)
  refine peekKind_any fun kind => ?_
  split
  · exact (reportHere ready_like).bind fun _ => done
  · exact expected

lemma typeParam : Keeps skips inside Parser.typeParam halved := by
  refine name.bind fun param => at? ?_ doneHalved
  refine (advance rfl).bind fun _ => (report ready_like).bind fun _ => ?_
  exact grammarType.discard.bind fun _ => doneHalved

lemma typeParams : Keeps skips inside Parser.typeParams halved := by
  refine accept rfl ?_ doneHalved
  exact (commaList typeParam).bind fun params => closeAngle.bind fun _ => doneHalved

lemma param : Keeps skips inside Parser.param halved := by
  refine here fun start => annotationList.bind fun annotations => identifier.bind fun name => ?_
  exact token rfl (grammarType.bind fun type => doneHalvedSince)

lemma paramListNext (list : ParamList) (isMethod) : Keeps skips inside (list.next isMethod) halved := by
  refine at? ?_ (param.bind fun _ => doneHalved)
  refine (advance rfl).bind fun span => ?_
  split
  · exact (report ready_like).bind fun _ => doneHalved
  · split
    · exact (report ready_like).bind fun _ => doneHalved
    · exact doneHalved

lemma paramList (isMethod : Bool) : Keeps skips inside (Parser.paramList isMethod) halved := by
  refine accept rfl doneHalved ?_
  refine at? ((reportHere next_like).bind fun _ => doneHalved) ?_
  refine at? ((reportHere next_like).bind fun _ => pass rfl doneHalved) ?_
  refine (paramListNext _ isMethod).bind fun first => iterate (fun list => ?_) first
  exact accept rfl ((paramListNext list isMethod).bind fun _ => doneHalved) doneHalved

lemma functionDecl (annotations visibility isMethod) :
    Opens skips inside (.keyword .fnKw) (Parser.functionDecl annotations visibility isMethod) whole := by
  refine .token (name.bind fun name => typeParams.bind fun typeParams => ?_)
  refine token rfl ((paramList isMethod).bind fun list => ?_)
  refine token rfl (token rfl ?_)
  refine bind ((pacedParts_grammar skips).part .type inside rfl) fun returnType => ?_
  exact grammarBlock.bind fun body => done

lemma externLibrary : Keeps skips inside Parser.externLibrary whole := by
  refine peekKind fun kind => ?_
  split
  · exact pass rfl done
  · exact pure _ fun _ _ h => h.1

lemma externDecl (annotations visibility) :
    Opens skips inside (.keyword .externKw) (Parser.externDecl annotations visibility) whole := by
  refine .token (externLibrary.bind fun library => ?_)
  refine token rfl (name.bind fun name => token rfl ?_)
  refine (paramList false).bind fun list => token rfl ?_
  refine token rfl (annotationList.bind fun returnAnnotations => ?_)
  refine grammarType.bind fun returnType => at?_halved (by simp) fail ?_
  exact token rfl done

lemma members {member : Parser α} (h : Keeps skips inside member halved) :
    Keeps skips inside (Parser.members what member) halved := by
  refine accept rfl doneHalved ?_
  refine at?_any fun b => ?_
  split
  · exact (reportHere ready_like).bind fun _ => doneHalved
  · exact bracedList (fun _ _ h => SaysHalved.halved h) h

lemma fieldVisibility : Keeps skips true Parser.fieldVisibility whole :=
  accept rfl done (accept rfl done done)

lemma fieldDecl : Keeps skips true Parser.fieldDecl halved := by
  refine here fun start => annotationList.bind fun annotations => fieldVisibility.bind fun visibility => ?_
  refine identifier.bind fun name => token rfl ?_
  exact grammarType.bind fun type => doneHalvedSince

lemma structDecl (annotations : List Annotation) (visibility) :
    Opens skips inside (.keyword .structKw) (Parser.structDecl annotations visibility) whole := by
  refine .token (name.bind fun name => typeParams.bind fun typeParams => ?_)
  exact braced (members fieldDecl) fun fields => done

lemma payloadTypes (variant) : Keeps skips inside (Parser.payloadTypes variant) halved := by
  refine at?_any fun b => ?_
  split
  · exact (reportHere ready_like).bind fun _ => doneHalved
  · exact commaList grammarType

lemma payload (variant) : Keeps skips inside (Parser.payload variant) whole := by
  refine accept rfl ((payloadTypes variant).bind fun types => ?_) done
  exact token rfl done

lemma discriminant [SaysWhole pre] : Paced skips inside pre Parser.discriminant whole :=
  accept rfl (grammarExpr.bind fun _ => done) done

lemma variantDecl : Keeps skips inside Parser.variantDecl whole :=
  here fun _ => identifier.bind fun name => (payload name).bind fun _ => discriminant.bind fun _ => doneSince

lemma enumDecl (annotations : List Annotation) (visibility) :
    Opens skips inside (.keyword .enumKw) (Parser.enumDecl annotations visibility) whole := by
  refine .token (name.bind fun name => typeParams.bind fun typeParams => ?_)
  refine braced (members ?_) fun variants => done
  exact variantDecl.mono (fun _ _ h => h) fun _ _ h => halved_of_whole h

lemma constDecl (annotations visibility) :
    Opens skips inside (.keyword .constKw) (Parser.constDecl annotations visibility) whole := by
  refine .token (name.bind fun name => token rfl ?_)
  refine grammarType.bind fun type => token rfl ?_
  exact grammarExpr.bind fun value => token rfl done

lemma method : Keeps skips true Parser.method whole := by
  refine here fun start => annotationList.bind fun annotations => visibility.bind fun visibility => ?_
  refine at?_any fun b => ?_
  dsimp only
  split
  · exact expected
  · exact ((functionDecl annotations visibility true).paced rfl).bind fun decl => doneSince

lemma implBlock (annotations) : Opens skips inside (.keyword .implKw) (Parser.implBlock annotations) whole := by
  refine .token (name.bind fun target => ?_)
  exact braced (recovering method (resumes_toMethod skips)) fun methods => done

lemma itemDecl [SaysWhole pre] (annotations visibility) :
    Paced skips inside pre (Parser.itemDecl annotations visibility) whole := by
  refine peekKind_any fun kind => ?_
  split
  · exact ((functionDecl annotations visibility false).paced rfl).bind fun _ => done
  · exact ((structDecl annotations visibility).paced rfl).bind fun _ => done
  · exact ((enumDecl annotations visibility).paced rfl).bind fun _ => done
  · exact ((externDecl annotations visibility).paced rfl).bind fun _ => done
  · exact ((constDecl annotations visibility).paced rfl).bind fun _ => done
  · exact expected

lemma stringLiteral [SaysWhole pre] : Paced skips inside pre Parser.stringLiteral (ready inside) := by
  refine peekKind fun kind => ?_
  split
  · exact pass rfl keep
  · exact expected

lemma importName [SaysWhole pre] : Paced skips inside pre Parser.importName whole :=
  accept rfl (name.bind fun _ => done) done

lemma importDecl : Opens skips inside (.keyword .importKw) Parser.importDecl whole := by
  refine ⟨_, _, rfl, fun start => ?_⟩
  exact stringLiteral.bind fun path => importName.bind fun localName => token rfl doneSince

end Paced

end SourceCheck
