import Mathlib.Algebra.Group.Nat.Defs
import SourceCheck.Proofs.Parse.Precedence

/-!
# Heights

The nesting limit bounds the heights of types and patterns, but not of expressions: operators are read in a loop,
which makes a tree higher without nesting.
-/

open SourceCheck.Parser

namespace SourceCheck

open List

/-- The size of an array is no part. -/
def TypeExpr.parts : TypeExpr → List TypeExpr
  | .primitive .. => []
  | .slice _ t | .array _ t _ | .pointer _ _ t | .option _ t | .taskHandle _ t => [t]
  | .result _ ok err => [ok, err]
  | .tuple _ ts | .named _ _ ts => ts

def Pattern.parts : Pattern → List Pattern
  | .variant _ _ _ ps | .tuple _ ps => ps
  | _ => []

def FieldInit.value : FieldInit → Expr
  | .mk _ value => value

def Expr.parts : Expr → List Expr
  | .unary _ _ _ e | .field _ e _ | .tupleIndex _ e _ | .paren _ e | .await _ e => [e]
  | .binary _ a _ b | .index _ a b | .arrayRepeat _ a b => [a, b]
  | .call _ callee args => callee :: args
  | .assocCall _ _ _ _ es | .dottedCall _ _ _ es | .tuple _ es | .array _ es => es
  | .slice _ base start stop => base :: (start.toList ++ stop.toList)
  | .structLit _ _ _ fields => fields.map (·.value)
  | _ => []

/-- Trees of at most this height. -/
inductive AtMost {α : Type} (parts : α → List α) : Nat → α → Prop where
  | node {n a} :
    (∀ b ∈ parts a, AtMost parts n b) →
    AtMost parts (n + 1) a

/-- Parsers whose results at this depth are as `P` says. -/
def Gives {α : Type} (d : Nat) (P : α → Prop) (p : Parser α) : Prop :=
  ∀ c s a s', c.depth = d → p c s = (.ok a, s') → P a

namespace Gives

variable {α β : Type} {d : Nat} {P : α → Prop} {Q : β → Prop} {p : Parser α} {k : α → Parser β}

lemma pure {b} (h : Q b) : Gives d Q (Pure.pure b) := by
  intro c s a s' _ hrun
  cases hrun
  exact h

lemma bind (h : Gives d P p) (hk : ∀ a, P a → Gives d Q (k a)) : Gives d Q (p >>= k) := by
  intro c s b s' hd hrun
  obtain ⟨a, s₁, ha, hrun⟩ := run_bind_eq_ok hrun
  exact hk a (h c s a s₁ hd ha) c s₁ b s' hd hrun

lemma skip (hk : ∀ a, Gives d Q (k a)) : Gives d Q (p >>= k) :=
  bind (P := fun _ => True) (fun _ _ _ _ _ _ => trivial) fun a _ => hk a

lemma failAt {span cause} : Gives d Q (Parser.failAt span cause) := by
  intro c s a s' _ hrun
  cases hrun

lemma expected {what} : Gives d Q (Parser.expected what) := by
  intro c s a s' _ hrun
  cases hrun

lemma iterate {step} (h : ∀ b, Q b → Gives d (∀ b' ∈ ·, Q b') (step b)) {b} (hb : Q b) :
    Gives d Q (Parser.iterate step b) := by
  intro c s l s' hd hrun
  have hrounds := rounds_iterate step b c s
  rw [hrun] at hrounds
  clear hrun
  generalize hr : ((.ok l, s') : ParseResult β) = r at hrounds
  induction hrounds with
  | error => cases hr
  | last =>
    cases hr
    exact hb
  | stuck hround =>
    cases hr
    exact h _ hb c _ _ _ hd hround l rfl
  | next hround _ _ ih => exact ih (h _ hb c _ _ _ hd hround _ rfl) hr

lemma commaSeparated (h : Gives d P p) {first} (hfirst : P first) :
    Gives d (∀ a ∈ ·, P a) (Parser.commaSeparated p first) := by
  refine iterate (fun items hitems => .skip fun b => ?_) (by simpa using hfirst)
  split
  · refine h.bind fun a ha => .pure ?_
    rintro _ ⟨⟩
    simpa [or_imp, forall_and] using ⟨hitems, ha⟩
  · exact .pure (by simp)

lemma commaList (h : Gives d P p) : Gives d (∀ a ∈ ·, P a) (Parser.commaList p) :=
  h.bind fun _ ha => h.commaSeparated ha

lemma nested (h : d < nestingLimit → Gives (d + 1) P p) : Gives d P (Parser.nested p) := by
  intro c s a s' hd hrun
  by_cases hlimit : nestingLimit ≤ c.depth
  · rw [run_nested_of_le hlimit] at hrun
    cases hrun
  · rw [run_nested_of_lt (Nat.not_le.1 hlimit)] at hrun
    exact h (hd ▸ Nat.not_le.1 hlimit) _ s a s' (congrArg (· + 1) hd) hrun

/-- Where every rise by one makes trees higher by at most one, the limit bounds their height. The induction is on the
number of tokens. -/
lemma grammar {q : Production} {parts : q.Output → List q.Output} {body : Subparsers → Parser q.Output}
    (hq : ∀ sub, rule sub q = Parser.nested (body sub))
    (h : ∀ sub d n, Gives d (AtMost parts n) (sub q) → Gives d (AtMost parts (n + 1)) (body sub)) (d) :
    Gives d (AtMost parts (nestingLimit - d)) (Parser.grammar q) := by
  have hguarded (n : Nat) : ∀ d, Gives d (AtMost parts (nestingLimit - d)) (guarded n q) := by
    induction n using Nat.strongRecOn with
    | _ n ih =>
      intro d c s a s' hd hrun
      by_cases hlt : s.rest.length < n
      · rw [guarded_of_lt hlt, hq] at hrun
        refine nested (fun hlimit => ?_) c s a s' hd hrun
        have hbody := h _ (d + 1) _ (ih _ hlt (d + 1))
        rwa [show nestingLimit - (d + 1) + 1 = nestingLimit - d by omega] at hbody
      · rw [guarded_of_not_lt hlt] at hrun
        cases hrun
  intro c s a s' hd hrun
  exact hguarded _ d c s a s' hd ((run_grammar (Nat.lt_succ_self _) q).symm.trans hrun)

end Gives

/-! ### Types and patterns -/

section

variable {sub : Subparsers} {d n : Nat}

attribute [local simp] TypeExpr.parts

lemma gives_typeRule (h : Gives d (AtMost TypeExpr.parts n) sub.type) :
    Gives d (AtMost TypeExpr.parts (n + 1)) (typeRule sub) := by
  have hsince {start : Span} {f : Span → TypeExpr}
    (hf : ∀ span, ∀ t ∈ (f span).parts, AtMost TypeExpr.parts n t) :
      Gives d (AtMost TypeExpr.parts (n + 1)) (since start >>= fun span => pure (f span)) :=
    .skip fun span => .pure (.node (hf span))
  have hsingle (wrapper : String) : Gives d (AtMost TypeExpr.parts n) (singleTypeArg sub wrapper) :=
    .skip fun _ => h.bind fun _ ht => .skip fun _ => .pure ht
  have hargs : Gives d (∀ t ∈ ·, AtMost TypeExpr.parts n t) (optionalTypeArgs sub) := by
    refine .skip fun b => ?_
    split
    · exact .skip fun _ => h.commaList.bind fun _ hts => .skip fun _ => .pure hts
    · exact .pure (by simp)
  refine .skip fun start => .skip fun kind => ?_
  split
  · exact .skip fun _ => .pure (.node (by simp))
  · refine .skip fun _ => .skip fun b => ?_
    split
    · exact h.bind fun _ ht => hsince fun _ => by simpa using ht
    · exact .skip fun _ => .skip fun _ => h.bind fun _ ht => hsince fun _ => by simpa using ht
  · exact .skip fun _ => .skip fun _ => h.bind fun _ ht => hsince fun _ => by simpa using ht
  · refine .skip fun _ => .skip fun b => ?_
    dsimp only
    split
    on_goal 1 => refine .skip fun _ => .skip fun _ => ?_
    all_goals
      refine h.commaList.bind fun _ hts => .skip fun _ => ?_
      split
      · exact .skip fun _ => .skip fun _ => hsince fun _ => hts
      · exact hsince fun _ => hts
  · refine .skip fun _ => .skip fun _ => h.bind fun _ hok => .skip fun _ => h.bind fun _ herr => .skip fun _ => ?_
    exact hsince fun _ => by simpa using ⟨hok, herr⟩
  · exact .skip fun _ => (hsingle _).bind fun _ ht => hsince fun _ => by simpa using ht
  · exact .skip fun _ => (hsingle _).bind fun _ ht => hsince fun _ => by simpa using ht
  · exact .skip fun _ => hargs.bind fun _ hts => hsince fun _ => hts
  · exact .expected

lemma AtMost.succ {α : Type} {parts : α → List α} {a} (h : AtMost parts n a) : AtMost parts (n + 1) a := by
  induction h with
  | node _ ih => exact .node ih

lemma gives_variantPattern (h : Gives d (AtMost Pattern.parts n) sub.pattern) (enum start) :
    Gives d (AtMost Pattern.parts (n + 1)) (variantPattern sub enum start) := by
  have hargs : Gives d (∀ p ∈ ·, AtMost Pattern.parts n p) (patternArgs sub) := by
    refine .skip fun b => ?_
    split
    · exact .pure (by simp)
    · refine .skip fun b => ?_
      split
      · exact .skip fun _ => .pure (by simp)
      · exact h.commaList
  refine .skip fun _ => .bind (P := (∀ p ∈ ·, AtMost Pattern.parts n p)) (.skip fun b => ?_) fun _ hps =>
    .skip fun _ => .pure (.node hps)
  split
  · exact hargs.bind fun _ hps => .skip fun _ => .pure hps
  · exact .pure (by simp)

lemma gives_patternRule (h : Gives d (AtMost Pattern.parts n) sub.pattern) :
    Gives d (AtMost Pattern.parts (n + 1)) (patternRule sub) := by
  have hleaf {p : Pattern} (hp : p.parts = []) : AtMost Pattern.parts (n + 1) p := .node (by simp [hp])
  have hnamed (head builtin start) :
    Gives d (AtMost Pattern.parts (n + 1)) (Parser.namedPattern sub head builtin start) := by
    unfold Parser.namedPattern
    split
    · exact .pure (hleaf rfl)
    · refine .skip fun b => ?_
      split
      · exact .skip fun _ => .skip fun _ => gives_variantPattern h _ _
      · refine .skip fun b => ?_
        split
        · exact gives_variantPattern h _ _
        · split
          · exact .bind .expected fun _ (_ : True) => .pure (hleaf rfl)
          · exact .pure (hleaf rfl)
  refine .skip fun start => .skip fun kind => ?_
  cases kind with
  | int | string | char => exact .skip fun _ => .pure (hleaf rfl)
  | float => exact .failAt
  | ident => exact .skip fun _ => hnamed _ _ _
  | keyword k =>
    cases k with
    | trueKw | falseKw => exact .skip fun _ => .pure (hleaf rfl)
    | mutKw => exact .skip fun _ => .skip fun _ => .skip fun _ => .pure (hleaf rfl)
    | resultKw | optionKw => exact .skip fun _ => hnamed _ _ _
    | _ => exact .expected
  | punctuation p =>
    cases p with
    | lParen =>
      refine .skip fun _ => h.bind fun first hfirst => .skip fun b => ?_
      split
      · refine h.bind fun _ hsecond => (h.commaSeparated hsecond).bind fun _ hrest => .skip fun _ => ?_
        exact .skip fun _ => .pure (.node (forall_mem_cons.2 ⟨hfirst, hrest⟩))
      · exact .skip fun _ => .pure hfirst.succ
    | _ => exact .expected
  | primitive | operator | eof => exact .expected

end

/-- The nesting limit bounds the heights of the types and patterns that are read. -/
theorem heights_le_nestingLimit (c : ParseContext) (s : ParseState) :
    (∀ type s', grammar.type c s = (.ok type, s') → AtMost TypeExpr.parts (nestingLimit - c.depth) type) ∧
      ∀ p s', grammar.pattern c s = (.ok p, s') → AtMost Pattern.parts (nestingLimit - c.depth) p :=
  ⟨fun type s' => Gives.grammar (q := .type) (fun _ => rfl) (fun _ _ _ => gives_typeRule) _ c s type s' rfl,
    fun p s' => Gives.grammar (q := .pattern) (fun _ => rfl) (fun _ _ _ => gives_patternRule) _ c s p s' rfl⟩

/-! ### Expressions -/

lemma Groups.length_lt {ts e n} (h : Groups ts e) (hn : AtMost Expr.parts n e) : ts.length < 2 ^ (n + 1) := by
  induction h generalizing n with
  | atom | unit =>
    obtain ⟨-⟩ := hn
    exact Nat.lt_of_lt_of_le (by simp) (Nat.pow_le_pow_right Nat.two_pos (Nat.le_add_left 2 _))
  | paren _ _ _ ih =>
    obtain ⟨hparts⟩ := hn
    have hinner := hparts _ mem_cons_self
    have hlt := ih hinner
    obtain ⟨-⟩ := hinner
    simp only [cons_append, length_cons, length_append, length_nil, Nat.pow_succ] at hlt ⊢
    omega
  | binary _ _ _ _ _ ihl ihr =>
    obtain ⟨hparts⟩ := hn
    have hl := ihl (hparts _ mem_cons_self)
    have hr := ihr (hparts _ (by simp [Expr.parts]))
    simp only [length_append, length_cons, Nat.pow_succ]
    omega

/-- The tokens of `1 + … + 1` with this number of operators. -/
def sumOfOnes : Nat → List Token
  | 0 => tokensOf [.int 1 .decimal]
  | n + 1 => tokensOf [.int 1 .decimal, .operator .plus] ++ sumOfOnes n

lemma chain_sumOfOnes (n) : Chain 0 (sumOfOnes n) := by
  induction n with
  | zero => exact .last (.atom (.int rfl))
  | succ n ih => exact .more (.atom (.int rfl)) rfl ih

lemma lt_length_sumOfOnes (n) : n < (sumOfOnes n).length := by
  induction n with
  | zero => decide
  | succ n ih =>
    simp only [sumOfOnes, length_append]
    have htwo : (tokensOf [.int 1 .decimal, .operator .plus]).length = 2 := rfl
    omega

/-- No number bounds the heights of expressions read without a problem. -/
lemma exists_expr_higher (n) : ∃ tokens e previous, ¬ AtMost Expr.parts n e ∧
    grammar.expr { finish := default } { rest := tokens, previous := default } = (.ok e, { rest := [], previous }) := by
  obtain ⟨used, left, e, previous, hused, hgroups, -, htail, hrun⟩ :=
    (chain_sumOfOnes (2 ^ (n + 1))).readsFrom 1 (c := { finish := default })
    (s := { rest := sumOfOnes (2 ^ (n + 1)), previous := default })
      (by decide) ⟨rfl, by simp, .inr rfl⟩ (append_nil _).symm (Nat.lt_succ_self _)
  obtain rfl := htail.eq_nil
  refine ⟨_, e, previous, fun hn => ?_, (run_grammar (Nat.lt_succ_self _) _).trans hrun⟩
  have hlt := hgroups.length_lt hn
  have hlength := lt_length_sumOfOnes (2 ^ (n + 1))
  rw [hused] at hlength
  simp only [nil_append, append_nil] at hlt hlength
  omega

theorem heights_of_exprs_unbounded : ¬ ∃ bound, ∀ tokens e previous,
    grammar.expr { finish := default } { rest := tokens, previous := default } = (.ok e, { rest := [], previous }) →
      AtMost Expr.parts bound e := by
  rintro ⟨bound, hbound⟩
  obtain ⟨tokens, e, previous, hhigher, hrun⟩ := exists_expr_higher bound
  exact hhigher (hbound tokens e previous hrun)

end SourceCheck
