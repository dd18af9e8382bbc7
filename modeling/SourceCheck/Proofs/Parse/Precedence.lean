import SourceCheck.Proofs.Parse.Progress

/-!
# Precedence

Operands with binary operators between them are read as one tree, grouped by precedence and to the left. An angle
behind a name is tried as the start of type arguments first.
-/

open SourceCheck.Parser

namespace SourceCheck

open List

/-- The expression that a token is by itself. -/
inductive Token.Atom (t : Token) : Expr → Prop where
  | ident {name} :
    t.kind = .ident name →
    t.Atom (.ident t.span name)
  | int {value base} :
    t.kind = .int value base →
    t.Atom (.literal t.span (.int value))
  | float {value} :
    t.kind = .float value →
    t.Atom (.literal t.span (.float value))
  | string {value form} :
    t.kind = .string value form →
    t.Atom (.literal t.span (.string value))
  | char {value} :
    t.kind = .char value →
    t.Atom (.literal t.span (.char value))
  | trueKw :
    t.kind = .keyword .trueKw →
    t.Atom (.literal t.span (.bool true))
  | falseKw :
    t.kind = .keyword .falseKw →
    t.Atom (.literal t.span (.bool false))

mutual

/-- Names, literals and chains in parentheses, at most `depth` deep. -/
inductive ChainOperand : Nat → List Token → Prop where
  | atom {depth t e} :
    t.Atom e →
    ChainOperand depth [t]
  | unit {depth opening closing} :
    opening.kind = .punctuation .lParen →
    closing.kind = .punctuation .rParen →
    ChainOperand depth [opening, closing]
  | paren {depth opening ts closing} :
    opening.kind = .punctuation .lParen →
    Chain depth ts →
    closing.kind = .punctuation .rParen →
    ChainOperand (depth + 1) (opening :: ts ++ [closing])

/-- Operands with binary operators between them. -/
inductive Chain : Nat → List Token → Prop where
  | last {depth ts} :
    ChainOperand depth ts →
    Chain depth ts
  | more {depth ts t op us} :
    ChainOperand depth ts →
    binaryOp? t.kind = some op →
    Chain depth us →
    Chain depth (ts ++ t :: us)

end

/-- The operator of an expression, if binary, has at least this precedence. -/
def Expr.BindsFrom (precedence : Nat) : Expr → Prop
  | .binary _ _ op _ => precedence ≤ op.operator.precedence
  | _ => True

/-- The tokens are a tree read from left to right. An operator to the left of another below it binds at least as
tight, and one to the right tighter. -/
inductive Groups : List Token → Expr → Prop where
  | atom {t e} :
    t.Atom e →
    Groups [t] e
  | unit {opening closing span} :
    opening.kind = .punctuation .lParen →
    closing.kind = .punctuation .rParen →
    Groups [opening, closing] (.literal span .unit)
  | paren {opening ts closing span e} :
    opening.kind = .punctuation .lParen →
    Groups ts e →
    closing.kind = .punctuation .rParen →
    Groups (opening :: ts ++ [closing]) (.paren span e)
  | binary {ts t us span l op r} :
    Groups ts l →
    binaryOp? t.kind = some op →
    Groups us r →
    l.BindsFrom op.operator.precedence →
    r.BindsFrom (op.operator.precedence + 1) →
    Groups (ts ++ t :: us) (.binary span l op r)

/-! ### What follows an operand -/

variable {c : ParseContext} {s : ParseState} {t : Token} {rest : List Token} {n : Nat} {e : Expr}

/-- Kinds of tokens behind an operand that do not belong to it. -/
def TokenKind.EndsOperand (kind : TokenKind) : Prop :=
  (∃ op, binaryOp? kind = some op) ∨ kind = .punctuation .rParen ∨ kind = .eof

/-- Tokens that do not show that type arguments stand before them. -/
def TokenKind.isLoose : TokenKind → Bool
  | .punctuation .colonColon | .punctuation .lBrace => false
  | _ => true

/-- Tokens that are no operators before an operand and close nothing. -/
structure TokenKind.StartsOperand (kind : TokenKind) : Prop where
  logical : logicalPrefix? kind = none
  pointer : isPointerPrefix kind = false
  opens : kind ≠ .punctuation .rParen
  isLoose : kind.isLoose = true

lemma Token.Atom.startsOperand (h : t.Atom e) : t.kind.StartsOperand := by
  cases h
  all_goals
    rename_i hkind
    rw [hkind]
    exact ⟨rfl, rfl, by simp, rfl⟩

lemma isLoose_of_binaryOp? {kind op} (h : binaryOp? kind = some op) : kind.isLoose = true := by
  unfold binaryOp? at h
  split at h
  · rfl
  · cases h

/-- Type arguments are tried and given up where no token shows any. -/
lemma run_genericSuffix_loose (hfinish : c.finish.kind = .eof) (h : ∀ t ∈ s.rest, t.kind.isLoose = true) :
    genericSuffix (guarded n) c s = (.ok none, s) := by
  refine run_genericSuffix_none fun args s' hargs => ?_
  have hsteady : Steady (typeArgs (guarded n)) := (Paced.typeArgs (pacedParts_guarded True n)).steady
  have hsuffix := (hsteady.onward_run hargs).suffix
  have hloose : (s'.peek c.finish).kind.isLoose = true := by
    cases hrest : s'.rest with
    | nil => simp [ParseState.peek, hrest, hfinish, TokenKind.isLoose]
    | cons t rest =>
      rw [ParseState.peek_of_rest_cons hrest]
      exact h t (hsuffix.mem (by simp [hrest]))
  have hcolon : (s'.peek c.finish).kind ≠ .punctuation .colonColon := fun hkind => by
    simp [hkind, TokenKind.isLoose] at hloose
  have hbrace : (s'.peek c.finish).kind ≠ .punctuation .lBrace := fun hkind => by
    simp [hkind, TokenKind.isLoose] at hloose
  simp [confirmsTypeArgs, opensLiteral, hcolon, hbrace]

lemma run_pass_cons {β : Type} {k : Unit → Parser β} (hrest : s.rest = t :: rest) (hend : t.kind ≠ .eof) :
    (discard advance >>= k) c s = k () c { s with rest, previous := t } := by
  rw [discard_bind, run_bind_ok (run_advance_cons hrest hend)]

attribute [local simp] TokenKind.EndsOperand

lemma run_nameExpr_of_ends {first : Name} (hrest : s.rest = t :: rest) (hend : t.kind ≠ .eof)
    (hfinish : c.finish.kind = .eof) (hloose : ∀ t ∈ rest, t.kind.isLoose = true)
    (hnext : ((rest.head?.getD c.finish).kind).EndsOperand) :
    nameExpr (guarded n) first c s = (.ok (.ident first.span first.node), { s with rest, previous := t }) := by
  rw [nameExpr, run_pass_cons hrest hend, run_bind_ok (run_peekKind c _)]
  change (rest.head?.getD c.finish).kind.EndsOperand at hnext
  simp only [ParseState.peek]
  generalize hkind : (rest.head?.getD c.finish).kind = kind at hnext ⊢
  split
  · simp [binaryOp?] at hnext
  · rw [run_bind_ok (run_genericSuffix_loose hfinish hloose)]
    rfl
  · simp [binaryOp?] at hnext
  · have hopens : opensLiteral c { s with rest, previous := t } = false := by
      have hbrace : kind ≠ .punctuation .lBrace := by
        rintro rfl
        simp [binaryOp?] at hnext
      simp [opensLiteral, ParseState.peek, hkind, hbrace]
    rw [run_bind_ok (run_atStructLiteral c _), hopens]
    rfl

/-! ### Operands -/

mutual

lemma ChainOperand.isLoose {depth ts} : ChainOperand depth ts → ∀ t ∈ ts, t.kind.isLoose = true
  | .atom hatom => by simpa using hatom.startsOperand.isLoose
  | .unit hopening hclosing => by simp [hopening, hclosing, TokenKind.isLoose]
  | .paren hopening h hclosing => by
    have hinner := h.isLoose
    simp only [cons_append, mem_cons, mem_append, not_mem_nil, or_false]
    rintro t (rfl | ht | rfl)
    · rw [hopening]
      rfl
    · exact hinner t ht
    · rw [hclosing]
      rfl

lemma Chain.isLoose {depth ts} : Chain depth ts → ∀ t ∈ ts, t.kind.isLoose = true
  | .last h => h.isLoose
  | .more h hop hrest => by
    have hleft := h.isLoose
    have hright := hrest.isLoose
    simp only [mem_append, mem_cons]
    rintro t (ht | rfl | ht)
    · exact hleft t ht
    · exact isLoose_of_binaryOp? hop
    · exact hright t ht

end

lemma ChainOperand.head {depth ts} (h : ChainOperand depth ts) : ∃ t us, ts = t :: us ∧ t.kind.StartsOperand := by
  cases h with
  | atom hatom => exact ⟨_, _, rfl, hatom.startsOperand⟩
  | unit hopening _ | paren hopening _ _ => exact ⟨_, _, rfl, hopening ▸ ⟨rfl, rfl, by simp, rfl⟩⟩

lemma Chain.head {depth ts} (h : Chain depth ts) : ∃ t us, ts = t :: us ∧ t.kind.StartsOperand := by
  cases h with
  | last h => exact h.head
  | more h _ _ =>
    obtain ⟨t, us, rfl, hstart⟩ := h.head
    exact ⟨t, _, rfl, hstart⟩

lemma run_primaryRule_atom (hrest : s.rest = t :: rest) (hatom : t.Atom e) (hfinish : c.finish.kind = .eof)
    (hloose : ∀ t ∈ rest, t.kind.isLoose = true) (hnext : (rest.head?.getD c.finish).kind.EndsOperand) :
    primaryRule (guarded n) c s = (.ok e, { s with rest, previous := t }) := by
  rw [primaryRule, run_bind_ok (run_here c s), run_bind_ok (run_peekKind c s), ParseState.peek_of_rest_cons hrest]
  cases hatom
  case ident hkind =>
    rw [hkind]
    exact run_nameExpr_of_ends hrest (by simp [hkind]) hfinish hloose hnext
  all_goals
    rename_i hkind
    rw [hkind]
    exact run_pass_cons hrest (by simp [hkind])

lemma run_parenExpr (start) {closing s'} (hne : (s.peek c.finish).kind ≠ .punctuation .rParen)
    (hinner : (guarded n).expr { c with structLiterals := true } s = (.ok e, s')) (hrest : s'.rest = closing :: rest)
    (hclosing : closing.kind = .punctuation .rParen) :
    ∃ span, parenExpr (guarded n) start c s = (.ok (.paren span e), { s' with rest, previous := closing }) := by
  have hcomma : acceptMark .comma { c with structLiterals := true } s' = (.ok false, s') :=
    run_accept_of_ne (by simp [ParseState.peek_of_rest_cons hrest, hclosing])
  have hexpect : discard (expectMark .rParen "')'") { c with structLiterals := true } s' =
      (.ok (), { s' with rest, previous := closing }) :=
    run_bind_ok (run_expect_cons hrest hclosing (by simp)) fun _ => pure ()
  rw [parenExpr, acceptMark, run_bind_ok (run_accept_of_ne hne), if_neg Bool.false_ne_true]
  change ∃ span, ((guarded n).expr >>= _ : Parser Expr) { c with structLiterals := true } s = _
  rw [run_bind_ok hinner, run_bind_ok hcomma, if_neg Bool.false_ne_true, run_bind_ok hexpect]
  exact ⟨_, rfl⟩

lemma run_primaryRule_paren (hrest : s.rest = t :: rest) (hkind : t.kind = .punctuation .lParen) :
    primaryRule (guarded n) c s = parenExpr (guarded n) t.span c { s with rest, previous := t } := by
  rw [primaryRule, run_bind_ok (run_here c s), run_bind_ok (run_peekKind c s), ParseState.peek_of_rest_cons hrest,
    hkind]
  exact run_pass_cons hrest (by simp [hkind])

lemma run_operandRule_of_ends {sub s'} (hdepth : c.depth < nestingLimit)
    (h : primaryRule sub { c with depth := c.depth + 1 } s = (.ok e, s'))
    (hnext : (s'.peek c.finish).kind.EndsOperand) :
    operandRule sub c s = (.ok e, s') := by
  have hsuffix : suffix sub e c s' = (.ok none, s') := by
    rw [suffix, run_bind_ok (run_peekKind c s')]
    generalize (s'.peek c.finish).kind = kind at hnext
    split
    case h_4 => rfl
    all_goals simp [binaryOp?] at hnext
  rw [operandRule, run_bind_ok ((run_nested_of_lt hdepth).trans h)]
  exact run_iterate_none hsuffix

lemma run_unaryRule_of_starts {sub s'} (hstart : (s.peek c.finish).kind.StartsOperand)
    (h : operandRule sub c s = (.ok e, s')) : unaryRule sub c s = (.ok e, s') := by
  have hlogical : logicalOperator c s = (.ok none, s) := by
    rw [logicalOperator, run_bind_ok (run_peekKind c s), hstart.logical]
    rfl
  have hpointer : pointerOperator c s = (.ok none, s) := by
    rw [pointerOperator, run_bind_ok (run_peekKind c s)]
    have hnone := hstart.pointer
    generalize (s.peek c.finish).kind = kind at hnone
    split
    case h_4 => rfl
    all_goals cases hnone
  rw [unaryRule, run_bind_ok (run_here c s), run_bind_ok hlogical, run_bind_ok hpointer, run_bind_ok h]
  rfl

/-! ### Climbing -/

/-- The rest of a chain behind an operand: nothing, or an operator that binds less tight than `bound`. -/
inductive Tail (depth bound : Nat) : List Token → Prop where
  | nil :
    Tail depth bound []
  | cons {t op us} :
    binaryOp? t.kind = some op →
    op.operator.precedence < bound →
    Chain depth us →
    Tail depth bound (t :: us)

/-- Where a chain ends. -/
structure Stops (finish : Token) (after : List Token) : Prop where
  ended : finish.kind = .eof
  isLoose : ∀ t ∈ after, t.kind.isLoose = true
  next : (after.head?.getD finish).kind = .punctuation .rParen ∨ (after.head?.getD finish).kind = .eof

lemma Stops.binaryOp? {finish after} (h : Stops finish after) :
    Parser.binaryOp? (after.head?.getD finish).kind = none := by
  obtain hnext | hnext := h.next
  · rw [hnext]
    rfl
  · rw [hnext]
    rfl

lemma Tail.ends {depth bound ts finish after} (h : Tail depth bound ts) (hstops : Stops finish after) :
    ((ts ++ after).head?.getD finish).kind.EndsOperand := by
  cases h with
  | nil => exact .inr hstops.next
  | cons hop _ _ => exact .inl ⟨_, hop⟩

lemma Tail.isLoose {depth bound ts finish after} (h : Tail depth bound ts) (hstops : Stops finish after) :
    ∀ t ∈ ts ++ after, t.kind.isLoose = true := by
  refine forall_mem_append.2 ⟨?_, hstops.isLoose⟩
  cases h with
  | nil => simp
  | cons hop _ h => exact forall_mem_cons.2 ⟨isLoose_of_binaryOp? hop, h.isLoose⟩

lemma Tail.eq_nil {depth ts} (h : Tail depth 1 ts) : ts = [] := by
  cases h with
  | nil => rfl
  | @cons _ op _ _ hlow _ => cases op <;> simp [BinaryOp.operator, Operator.precedence] at hlow

/-- A parser reads a part of `ts`, which with the tokens before it is a tree whose operators bind from `m`. The
rest starts with one that does not. -/
def Climbs (m depth : Nat) (p : Parser Expr) (c : ParseContext) (s : ParseState)
    (before ts after : List Token) : Prop :=
  ∃ used left e previous, ts = used ++ left ∧ Groups (before ++ used) e ∧ e.BindsFrom m ∧ Tail depth m left ∧
    p c s = (.ok e, { s with rest := left ++ after, previous })

/-- Expressions from `m` on read a chain. -/
def ReadsFrom (m depth : Nat) (ts : List Token) : Prop :=
  ∀ {c s after n}, c.depth + depth < nestingLimit → Stops c.finish after → s.rest = ts ++ after →
    s.rest.length < n →
    Climbs m depth (guarded n (.expr m)) c s [] ts after

/-- Every operator stands behind a tree that binds at least as tight. -/
lemma run_operations {m depth size after}
    (hchains : ∀ ts, Chain depth ts → ts.length < size → ∀ m, ReadsFrom m depth ts)
    (hdepth : c.depth + depth < nestingLimit) (hstops : Stops c.finish after) {left bound used}
    (htail : Tail depth bound left) (hsize : left.length ≤ size) (hrest : s.rest = left ++ after)
    (hlength : s.rest.length ≤ n) (hgroups : Groups used e) (hbinds : e.BindsFrom m)
    (hnext : ∀ t op us, left = t :: us → binaryOp? t.kind = some op → e.BindsFrom op.operator.precedence) :
    Climbs m depth (iterate (operation (guarded n) m) e) c s used left after := by
  induction hlen : left.length using Nat.strongRecOn generalizing left bound used e s with
  | _ k ih =>
    have hstop (hsome : operation (guarded n) m e c s = (.ok none, s)) (hleft : Tail depth m left) :
        Climbs m depth (iterate (operation (guarded n) m) e) c s used left after := by
      refine ⟨[], left, e, s.previous, rfl, by simpa using hgroups, hbinds, hleft, ?_⟩
      rw [run_iterate_none hsome, ← hrest]
    cases htail with
    | nil =>
      refine hstop ?_ .nil
      have hpeek : s.peek c.finish = after.head?.getD c.finish := by rw [ParseState.peek, hrest, nil_append]
      rw [operation, run_bind_ok (run_peekKind c s), hpeek, hstops.binaryOp?]
      rfl
    | @cons t op us hop hbound hchain =>
      have hcons : s.rest = t :: (us ++ after) := hrest
      have hpeek : s.peek c.finish = t := ParseState.peek_of_rest_cons hcons c.finish
      by_cases hlow : op.operator.precedence < m
      · refine hstop ?_ (.cons hop hlow hchain)
        rw [operation, run_bind_ok (run_peekKind c s), hpeek, hop]
        dsimp only
        rw [if_pos hlow]
        rfl
      · have hend : t.kind ≠ .eof := by
          intro heof
          rw [heof] at hop
          cases hop
        have hshort : us.length < size := Nat.lt_of_lt_of_le (Nat.lt_succ_self _) hsize
        obtain ⟨used₁, left₁, r, previous, rfl, hgroups₁, hbinds₁, htail₁, hright⟩ :=
          hchains us hchain hshort (op.operator.precedence + 1) (c := c)
            (s := { s with rest := us ++ after, previous := t })
            (n := n) hdepth hstops rfl (Nat.lt_of_lt_of_le (by simp [hrest]) hlength)
        have hround : operation (guarded n) m e c s =
            (.ok (some (.binary (e.span.merge r.span) e op r)), { s with rest := left₁ ++ after, previous }) := by
          rw [operation, run_bind_ok (run_peekKind c s), hpeek, hop]
          dsimp only
          rw [if_neg hlow, run_pass_cons hcons hend, run_bind_ok hright]
          rfl
        have hlt : (left₁ ++ after).length < s.rest.length := by
          simp only [hrest, cons_append, length_cons, length_append]
          omega
        have hnext₁ (t' : Token) (op' : BinaryOp) (us' : List Token) (hleft : left₁ = t' :: us')
            (hop' : binaryOp? t'.kind = some op') :
            (Expr.binary (e.span.merge r.span) e op r).BindsFrom op'.operator.precedence := by
          subst hleft
          cases htail₁ with
          | cons hop₁ hbound₁ _ =>
            cases hop₁.symm.trans hop'
            exact Nat.le_of_lt_succ hbound₁
        have hshorter : left₁.length < k := by
          simp only [← hlen, length_cons, length_append]
          omega
        obtain ⟨used', left', e', previous', rfl, hgroups', hbinds', htail', hrun⟩ :=
          ih left₁.length hshorter (s := { s with rest := left₁ ++ after, previous }) htail₁
            (by omega) rfl (Nat.le_trans (Nat.le_of_lt hlt) hlength)
            (.binary hgroups hop hgroups₁ (hnext t op _ rfl hop) hbinds₁) (Nat.not_lt.1 hlow) hnext₁ rfl
        refine ⟨t :: used₁ ++ used', left', e', previous', by simp, by simpa using hgroups', hbinds', htail', ?_⟩
        rw [run_iterate_some hround hlt, hrun]

lemma Chain.split {depth ts} (h : Chain depth ts) :
    ∃ first left bound, ts = first ++ left ∧ ChainOperand depth first ∧
    Tail depth bound left := by
  cases h with
  | last h => exact ⟨_, [], 0, by simp, h, .nil⟩
  | more h hop hrest => exact ⟨_, _, _, rfl, h, .cons hop (Nat.lt_succ_self _) hrest⟩

lemma run_operandRule {depth size first left bound after}
    (hchains : ∀ depth ts, Chain depth ts → ts.length < size → ReadsFrom 1 depth ts)
    (h : ChainOperand depth first) (hsize : first.length ≤ size) (hdepth : c.depth + depth < nestingLimit)
    (hstops : Stops c.finish after) (htail : Tail depth bound left) (hrest : s.rest = first ++ (left ++ after))
    (hlength : s.rest.length ≤ n) : ∃ e previous, Groups first e ∧ (∀ m, e.BindsFrom m) ∧
      operandRule (guarded n) c s = (.ok e, { s with rest := left ++ after, previous }) := by
  have hlimit : c.depth < nestingLimit := Nat.lt_of_le_of_lt (Nat.le_add_right _ _) hdepth
  cases h with
  | @atom _ t e hatom =>
    refine ⟨e, t, .atom hatom, fun m => ?_, run_operandRule_of_ends hlimit ?_ (htail.ends hstops)⟩
    · cases hatom <;> trivial
    · exact run_primaryRule_atom hrest hatom hstops.ended (htail.isLoose hstops) (htail.ends hstops)
  | @unit _ opening closing hopening hclosing =>
    obtain ⟨span, hunit⟩ : ∃ span, primaryRule (guarded n) { c with depth := c.depth + 1 } s =
        (.ok (.literal span .unit), { s with rest := left ++ after, previous := closing }) := by
      rw [run_primaryRule_paren hrest hopening, parenExpr, acceptMark,
        run_bind_ok (run_accept_cons rfl hclosing (by simp)), if_pos rfl]
      exact ⟨_, rfl⟩
    exact ⟨_, closing, .unit hopening hclosing, fun _ => trivial,
      run_operandRule_of_ends hlimit hunit (htail.ends hstops)⟩
  | @paren depth opening ts closing hopening hchain hclosing =>
    obtain ⟨t, us, rfl, hstart⟩ := hchain.head
    have hinner : Stops c.finish (closing :: (left ++ after)) :=
      ⟨hstops.ended, forall_mem_cons.2 ⟨by rw [hclosing]; rfl, htail.isLoose hstops⟩, .inl hclosing⟩
    have hcons : s.rest = opening :: (t :: us ++ closing :: (left ++ after)) := by simpa using hrest
    have hlt : (t :: us ++ closing :: (left ++ after)).length < n := by
      rw [hcons] at hlength
      exact hlength
    obtain ⟨used, left', e, previous, hused, hgroups, -, htail', hrun⟩ :=
      hchains depth _ hchain (by simp at hsize ⊢; omega)
        (c := { c with depth := c.depth + 1, structLiterals := true })
        (s := { s with rest := t :: us ++ closing :: (left ++ after), previous := opening })
        (by simp only; omega) hinner rfl hlt
    obtain rfl := htail'.eq_nil
    obtain rfl : t :: us = used := by simpa using hused
    obtain ⟨span, hparen⟩ := run_parenExpr opening.span (c := { c with depth := c.depth + 1 })
      (s := { s with rest := t :: us ++ closing :: (left ++ after), previous := opening }) hstart.opens hrun
        rfl hclosing
    refine ⟨.paren span e, closing, .paren hopening hgroups hclosing, fun m => trivial, ?_⟩
    exact run_operandRule_of_ends hlimit ((run_primaryRule_paren hcons hopening).trans hparen) (htail.ends hstops)

/-- Chains are read by climbing. The induction is on the number of tokens. -/
lemma Chain.readsFrom {depth ts} (h : Chain depth ts) (m) : ReadsFrom m depth ts := by
  induction hlen : ts.length using Nat.strongRecOn generalizing depth ts m with
  | _ size ih =>
    intro c s after n hdepth hstops hrest hn
    obtain ⟨t, us, hhead, hstart⟩ := h.head
    obtain ⟨first, left, bound, rfl, hfirst, htail⟩ := h.split
    have hlength : (first ++ left).length = size := hlen
    have hpeek : s.peek c.finish = t := ParseState.peek_of_rest_cons (hhead ▸ hrest) c.finish
    rw [append_assoc] at hrest
    obtain ⟨e, previous, hgroups, hbinds, hoperand⟩ := run_operandRule (n := s.rest.length)
      (fun depth ts h hlt => ih ts.length (hlength ▸ hlt) h 1 rfl) hfirst (by simp) hdepth hstops htail hrest
        (Nat.le_refl _)
    obtain ⟨used', left', e', previous', rfl, hgroups', hbinds', htail', hrun⟩ :=
      run_operations (s := { s with rest := left ++ after, previous }) (n := s.rest.length) (m := m)
        (fun ts h hlt m => ih ts.length (hlength ▸ hlt) h m rfl) hdepth hstops htail (by simp) rfl
          (by simp [hrest]) hgroups
        (hbinds m) fun _ op _ _ _ => hbinds _
    refine ⟨first ++ used', left', e', previous', by simp, hgroups', hbinds', htail', ?_⟩
    rw [guarded_of_lt hn]
    exact (run_bind_ok (run_unaryRule_of_starts (hpeek ▸ hstart) hoperand) _).trans hrun

end SourceCheck
