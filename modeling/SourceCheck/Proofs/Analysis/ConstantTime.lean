import Mathlib.Data.List.Permutation
import Mathlib.Tactic.Lemma
import SourceCheck.Analysis.Module

/-!
# Code in constant time

Code in constant time may not branch or loop, and may divide by and index with numerals only. A place in a body is a
path: the number of a part, of a part of that part, and so on.
-/

namespace SourceCheck

open List

/-! ### Places -/

def FieldInit.part : FieldInit → Node
  | .mk _ value => .expr value

def Expr.children : Expr → List Node
  | .literal .. | .ident .. | .selfRef _ | .dotted .. => []
  | .binary _ a _ b | .index _ a b | .arrayRepeat _ a b => [.expr a, .expr b]
  | .unary _ _ _ a | .field _ a _ | .tupleIndex _ a _ | .paren _ a | .await _ a => [.expr a]
  | .call _ callee args => .expr callee :: args.map .expr
  | .assocCall _ _ types _ args => types.map .type ++ args.map .expr
  | .dottedCall _ _ _ args => args.map .expr
  | .slice _ base start stop => .expr base :: (start.toList ++ stop.toList).map .expr
  | .structLit _ _ types fields => types.map .type ++ fields.map FieldInit.part
  | .tuple _ elems | .array _ elems => elems.map .expr
  | .sizeof _ type => [.type type]

def TypeExpr.children : TypeExpr → List Node
  | .primitive .. => []
  | .slice _ a | .pointer _ _ a | .option _ a | .taskHandle _ a => [.type a]
  | .array _ elem size => [.type elem, .expr size]
  | .result _ ok err => [.type ok, .type err]
  | .tuple _ elems | .named _ _ elems => elems.map .type

/-- What is directly inside. Nothing inside a branch or loop counts. -/
def Stmt.children : Stmt → List Node
  | .letBinding _ annotations _ _ type value => annotations.map .directive ++ [.type type, .expr value]
  | .assign _ target value => [.expr target, .expr value]
  | .returnValue _ e | .spawn _ e | .spawnWithHandle _ _ e | .expr _ e => [.expr e]
  | .unsafeBlock _ body | .block _ body => body.map .stmt
  | .ifThen .. | .ifLet .. | .forIn .. | .matchOn .. | .breakLoop _ | .continueLoop _ => []

def Node.children : Node → List Node
  | .stmt s => s.children
  | .expr e => e.children
  | .type t => t.children
  | .declaration _ | .function _ | .directive _ | .pattern _ => []

/-- The part at a place inside a part, or that part itself. -/
def Node.at? (n : Node) : List Nat → Option Node
  | [] => some n
  | i :: path => n.children[i]?.bind (·.at? path)

/-- The part at a place inside a sequence of parts. -/
def partAt? (parts : List Node) : List Nat → Option Node
  | [] => none
  | i :: path => parts[i]?.bind (·.at? path)

/-! ### Constructs -/

/-- A numeral, possibly in parentheses. -/
inductive Expr.Numeral : Expr → Prop where
  | int {span n} : Numeral (.literal span (.int n))
  | float {span x} : Numeral (.literal span (.float x))
  | paren {span e} : Numeral e → Numeral (.paren span e)

/-- The constructs that take a time that depends on values. -/
inductive Node.Varies : Node → VariableTime → Span → Prop where
  | ifThen {span e body otherwise} : Varies (.stmt (.ifThen span e body otherwise)) .ifThen span
  | ifLet {span p e body otherwise} : Varies (.stmt (.ifLet span p e body otherwise)) .ifLet span
  | matchOn {span e arms} : Varies (.stmt (.matchOn span e arms)) .matchOn span
  | forIn {span name e body} : Varies (.stmt (.forIn span name e body)) .forIn span
  | division {span a b} : ¬ b.Numeral → Varies (.expr (.binary span a .div b)) .division span
  | modulo {span a b} : ¬ b.Numeral → Varies (.expr (.binary span a .mod b)) .modulo span
  | index {span a i} : ¬ i.Numeral → Varies (.expr (.index span a i)) .index span

lemma Expr.isNumeral_iff {e : Expr} : e.isNumeral = true ↔ e.Numeral := by
  constructor
  · intro h
    fun_induction Expr.isNumeral e with
    | case1 => exact .int
    | case2 => exact .float
    | case3 _ _ ih => exact .paren (ih h)
    | case4 => cases h
  · intro h
    induction h with
    | int | float => rfl
    | paren _ ih => exact ih

lemma Node.variableTime?_eq_some_iff {n : Node} {r} :
    n.variableTime? = some r ↔ ∃ c span, n.Varies c span ∧ r = ⟨.variableTime c, span⟩ := by
  constructor
  · intro h
    cases n with
    | stmt s =>
      cases s with
      | ifThen => exact ⟨_, _, .ifThen, (Option.some.inj h).symm⟩
      | ifLet => exact ⟨_, _, .ifLet, (Option.some.inj h).symm⟩
      | matchOn => exact ⟨_, _, .matchOn, (Option.some.inj h).symm⟩
      | forIn => exact ⟨_, _, .forIn, (Option.some.inj h).symm⟩
      | _ => cases h
    | expr e =>
      obtain ⟨c, hc, rfl⟩ := Option.map_eq_some_iff.1 h
      unfold Expr.variableTime? at hc
      refine ⟨c, e.span, ?_, rfl⟩
      split at hc
      · split at hc <;> cases hc
        exact .division (mt Expr.isNumeral_iff.2 ‹_›)
      · split at hc <;> cases hc
        exact .modulo (mt Expr.isNumeral_iff.2 ‹_›)
      · split at hc <;> cases hc
        exact .index (mt Expr.isNumeral_iff.2 ‹_›)
      · cases hc
    | _ => cases h
  · rintro ⟨c, span, hvaries, rfl⟩
    cases hvaries with
    | division h | modulo h | index h =>
      simp [Node.variableTime?, Expr.variableTime?, Expr.isNumeral_iff, h, Expr.span]
    | _ => rfl

/-! ### The walk -/

def Node.walk (n : Node) : List Node :=
  match n with
  | .stmt s => s.nodes (·.variableTime?.isNone)
  | .expr e => e.nodes
  | .type t => t.nodes
  | n => [n]

lemma Expr.listNodes_eq (es) : Expr.listNodes es = es.flatMap Expr.nodes := by
  induction es with
  | nil => rfl
  | cons e es ih => rw [Expr.listNodes, ih, flatMap_cons]

lemma TypeExpr.listNodes_eq (ts) : TypeExpr.listNodes ts = ts.flatMap TypeExpr.nodes := by
  induction ts with
  | nil => rfl
  | cons t ts ih => rw [TypeExpr.listNodes, ih, flatMap_cons]

lemma FieldInit.listNodes_eq (fs) : FieldInit.listNodes fs = fs.flatMap FieldInit.nodes := by
  induction fs with
  | nil => rfl
  | cons f fs ih => rw [FieldInit.listNodes, ih, flatMap_cons]

lemma Stmt.listNodes_eq (descend) (ss : List Stmt) : Stmt.listNodes descend ss = ss.flatMap (Stmt.nodes descend) := by
  induction ss with
  | nil => rfl
  | cons s ss ih => rw [Stmt.listNodes, ih, flatMap_cons, Stmt.nodes]

lemma Node.walk_eq (n : Node) : n.walk = n :: n.children.flatMap Node.walk := by
  cases n with
  | expr e =>
    cases e with
    | slice _ _ start stop =>
      cases start <;> cases stop <;> simp [walk, children, Expr.children, Expr.nodes, Expr.optionNodes]
    | structLit _ _ types fields =>
      have hfields : FieldInit.listNodes fields = (fields.map FieldInit.part).flatMap walk := by
        rw [FieldInit.listNodes_eq, flatMap_map]
        congr 1
        funext f
        cases f
        rfl
      simp [children, Expr.children, Expr.nodes, TypeExpr.listNodes_eq, ← hfields, flatMap_map, walk]
    | _ => simp [walk, children, Expr.children, Expr.nodes, Expr.listNodes_eq, TypeExpr.listNodes_eq, flatMap_map]
  | type t => cases t <;> simp [walk, children, TypeExpr.children, TypeExpr.nodes, TypeExpr.listNodes_eq, flatMap_map]
  | stmt s =>
    cases s with
    | ifThen | ifLet | matchOn | forIn => rfl
    | unsafeBlock _ body | block _ body =>
      refine congrArg _ ((if_pos rfl).trans ?_)
      rw [Stmt.innerNodes, Stmt.listNodes_eq, children, Stmt.children, flatMap_map]
      rfl
    | letBinding _ annotations =>
      refine congrArg _ ((if_pos rfl).trans ?_)
      have hdirectives : (annotations.map .directive).flatMap walk = annotations.map .directive := by
        rw [flatMap_map, map_eq_flatMap]
        rfl
      simp [children, Stmt.children, Stmt.innerNodes, hdirectives, walk]
    | _ =>
      refine congrArg _ ((if_pos rfl).trans ?_)
      simp [walk, children, Stmt.children, Stmt.innerNodes]
  | _ => rfl

/-! ### Every place once -/

/-- Different places, all those with something, that lead to given parts. -/
def Enumerates (find : List Nat → Option Node) (nodes : List Node) : Prop :=
  ∃ places : List (List Nat), places.Nodup ∧ (∀ path, path ∈ places ↔ (find path).isSome) ∧
    nodes = places.filterMap find

lemma enumerates_partAt? {parts : List Node} (h : ∀ n ∈ parts, Enumerates n.at? n.walk) :
    Enumerates (partAt? parts) (parts.flatMap Node.walk) := by
  induction parts with
  | nil => exact ⟨[], nodup_nil, by rintro (_ | _) <;> simp [partAt?], rfl⟩
  | cons n parts ih =>
    obtain ⟨ps, hps, hmem, hwalk⟩ := h n (by simp)
    obtain ⟨qs, hqs, hmem', hwalk'⟩ := ih fun m hm => h m (by simp [hm])
    -- The places in the other parts move up by one.
    have hlater (q) : partAt? (n :: parts) (q.modifyHead (· + 1)) = partAt? parts q := by cases q <;> rfl
    refine ⟨ps.map (0 :: ·) ++ qs.map (modifyHead (· + 1)), ?_, fun path => ?_, ?_⟩
    · refine Nodup.append (hps.map fun p q hpq => (cons.inj hpq).2) (hqs.map fun p q hpq => ?_) ?_
      · cases p <;> cases q <;> simp_all
      · intro path hp hq
        obtain ⟨p, -, rfl⟩ := mem_map.1 hp
        obtain ⟨q, -, hq⟩ := mem_map.1 hq
        cases q <;> simp at hq
    · rw [mem_append, mem_map, mem_map]
      constructor
      · rintro (⟨p, hp, rfl⟩ | ⟨q, hq, rfl⟩)
        · exact (hmem p).1 hp
        · exact hlater q ▸ (hmem' q).1 hq
      · intro hpath
        match path with
        | [] => cases hpath
        | 0 :: p => exact .inl ⟨p, (hmem p).2 hpath, rfl⟩
        | (i + 1) :: p => exact .inr ⟨i :: p, (hmem' (i :: p)).2 hpath, rfl⟩
    · rw [filterMap_append, filterMap_map, filterMap_map, flatMap_cons, hwalk, hwalk']
      exact congrArg _ (congrArg (filterMap · qs) (funext fun q => (hlater q).symm))

lemma Node.enumerates_at? (n : Node) : Enumerates n.at? n.walk := by
  induction hsize : n.walk.length using Nat.strongRecOn generalizing n with
  | ind size ih =>
    have hlt {m} (hm : m ∈ n.children) : m.walk.length < size := by
      rw [← hsize, n.walk_eq, length_cons, flatMap]
      exact Nat.lt_succ_of_le (sublist_flatten_of_mem (mem_map_of_mem hm)).length_le
    obtain ⟨qs, hqs, hmem, hwalk⟩ := enumerates_partAt? fun m hm => ih m.walk.length (hlt hm) m rfl
    have hne {q} (hq : q ∈ qs) : n.at? q = partAt? n.children q := by
      cases q with
      | nil => simp [hmem, partAt?] at hq
      | cons i q => rfl
    refine ⟨[] :: qs, nodup_cons.2 ⟨by simp [hmem, partAt?], hqs⟩, fun path => ?_, ?_⟩
    · cases path with
      | nil => simp [Node.at?]
      | cons i path => exact (mem_cons.trans (or_iff_right (by simp))).trans (hmem (i :: path))
    · rw [Node.walk_eq, hwalk, filterMap_cons_some (f := n.at?) rfl, filterMap_congr fun q hq => (hne hq).symm]

lemma Stmt.listNodes_eq_walk (body : List Stmt) :
    Stmt.listNodes (·.variableTime?.isNone) body = (body.map Node.stmt).flatMap Node.walk := by
  rw [Stmt.listNodes_eq, flatMap_map]
  rfl

lemma forall₂_filter_filterMap {α β : Type} (f : α → Option β) (l : List α) :
    Forall₂ (fun a b => f a = some b) (l.filter fun a => (f a).isSome) (l.filterMap f) := by
  induction l with
  | nil => exact .nil
  | cons a l ih =>
    cases ha : f a with
    | none | some b => simpa [ha] using ih

/-! ### Reports -/

lemma Check.run_reports (reports : List (Report SemanticProblem)) (σ : Setting) (f : Findings) :
    (reports.forM fun r => Check.report r.cause r.span) σ f =
      ((), { f with problems := reports.reverse ++ f.problems }) := by
  induction reports generalizing f with
  | nil => rfl
  | cons r reports ih =>
    have hcons : ((r :: reports).forM fun r => Check.report r.cause r.span) σ f =
      (reports.forM fun r => Check.report r.cause r.span) σ { f with problems := r :: f.problems } := rfl
    rw [hcons, ih, reverse_cons, append_assoc, singleton_append]

/-- Constant time is checked exactly. A body gets one report for each place with a branch or loop, a division or
modulo by, or an index with, something other than a numeral, at its span. Places inside a branch or loop are left out,
and nothing else is reported. -/
theorem checkConstantTime_exact {list : List Annotation} (h : hasDirective .constantTime list = true)
    (body : List Stmt) (σ : Setting) (f : Findings) :
    ∃ (places : List (List Nat)) (reports : List (Report SemanticProblem)), places.Nodup ∧
      (∀ path, path ∈ places ↔ ∃ n c span, partAt? (body.map .stmt) path = some n ∧ n.Varies c span) ∧
      List.Forall₂ (fun path r => ∃ n c span, partAt? (body.map .stmt) path = some n ∧ n.Varies c span ∧
        r = ⟨.variableTime c, span⟩) places reports ∧
      checkConstantTime list body σ f = ((), { f with problems := reports.reverse ++ f.problems }) := by
  obtain ⟨places, hnodup, hmem, hwalk⟩ : Enumerates (partAt? (body.map .stmt)) _ :=
    enumerates_partAt? fun n _ => n.enumerates_at?
  let found (path : List Nat) : Option (Report SemanticProblem) :=
    (partAt? (body.map .stmt) path).bind Node.variableTime?
  have hfound {path r} :
    found path = some r ↔ ∃ n c span, partAt? (body.map .stmt) path = some n ∧ n.Varies c span ∧
      r = ⟨.variableTime c, span⟩ := by
    simp only [found, Option.bind_eq_some_iff, Node.variableTime?_eq_some_iff]
    grind
  have hreports : variableTimeProblems body = places.filterMap found := by
    rw [variableTimeProblems, Stmt.listNodes_eq_walk, hwalk, List.filterMap_filterMap]
  refine ⟨places.filter fun path => (found path).isSome, variableTimeProblems body, hnodup.filter _,
    fun path => ?_, ?_, ?_⟩
  · rw [List.mem_filter, hmem]
    constructor
    · rintro ⟨-, hsome⟩
      obtain ⟨r, hr⟩ := Option.isSome_iff_exists.1 hsome
      obtain ⟨n, c, span, hn, hvaries, -⟩ := hfound.1 hr
      exact ⟨n, c, span, hn, hvaries⟩
    · rintro ⟨n, c, span, hn, hvaries⟩
      exact ⟨by simp [hn], Option.isSome_iff_exists.2 ⟨_, hfound.2 ⟨n, c, span, hn, hvaries, rfl⟩⟩⟩
  · rw [hreports]
    exact (forall₂_filter_filterMap found places).imp fun _ _ => hfound.1
  · rw [checkConstantTime, if_pos h, Check.run_reports]

/-- An index in a block, and a branch behind it. -/
def timedBody : List Stmt :=
  [.block default [.expr default (.index { start := 1, stop := 3 } (.ident default "a") (.ident default "i"))],
    .ifThen { start := 5, stop := 9 } (.ident default "b") [] .absent]

def timedAnnotations : List Annotation :=
  [⟨"constant_time", .empty, default⟩]

/-- Both are reported. -/
theorem checkConstantTime_exact_timedBody : hasDirective .constantTime timedAnnotations = true ∧
    ∃ (places : List (List Nat)) (reports : List (Report SemanticProblem)), [0, 0, 0] ∈ places ∧
      [1] ∈ places ∧
      places.length = reports.length ∧
      checkConstantTime timedAnnotations timedBody ⟨"t", 0, [], false, [], none⟩ {} =
        ((), { problems := reports.reverse ++ [] }) := by
  have h : hasDirective .constantTime timedAnnotations = true := by decide
  obtain ⟨places, reports, -, hmem, hreports, hrun⟩ :=
    checkConstantTime_exact h timedBody ⟨"t", 0, [], false, [], none⟩ {}
  refine ⟨h, places, reports, (hmem _).2 ⟨_, _, _, rfl, .index ?_⟩, (hmem _).2 ⟨_, _, _, rfl, .ifThen⟩,
    hreports.length_eq, hrun⟩
  rintro ⟨⟩

end SourceCheck
