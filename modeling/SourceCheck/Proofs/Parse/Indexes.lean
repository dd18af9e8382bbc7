import Mathlib.Algebra.Group.Nat.Defs
import SourceCheck.Analysis.Module
import SourceCheck.Proofs.Parse.Precedence

/-!
# Tuple indexes

Behind an operand and a point stands one index, an integer, or two with a point between them, which are one token. Of a
single index only the remainder by the size of a machine word is kept; two are read exactly or not at all.
-/

open SourceCheck.Parser

namespace SourceCheck

variable {base : Expr} {c : ParseContext} {s : ParseState} {t : Token} {rest : List Token} {cs ds : List Char}

lemma tupleIndex?_digits (hne : cs ≠ []) (hcs : ∀ d ∈ cs, d.isDigit = true) :
    tupleIndex? cs = if digitsValue 10 cs < 2 ^ 64 then some (digitsValue 10 cs) else none := by
  have hvalue : cs.foldl (fun n d => n * 10 + (d.toNat - '0'.toNat)) 0 = digitsValue 10 cs := by
    refine List.foldl_ext _ _ _ fun k d hd => ?_
    rw [digitValue, if_pos (hcs d hd)]
  rw [tupleIndex?, if_pos (by simpa [hne] using hcs)]
  simp only [hvalue]
  rfl

lemma tupleIndexes?_pair (hne : cs ≠ []) (hne' : ds ≠ []) (h : ∀ d ∈ cs ++ ds, d.isDigit = true) :
    tupleIndexes? (String.ofList (cs ++ '.' :: ds)) =
      if digitsValue 10 cs < 2 ^ 64 ∧ digitsValue 10 ds < 2 ^ 64 then some (digitsValue 10 cs, digitsValue 10 ds)
      else none := by
  obtain ⟨hcs, hds⟩ := List.forall_mem_append.1 h
  have hpoint : ∀ d ∈ cs, decide (d ≠ '.') = true := by
    intro d hd
    have hdigit := hcs d hd
    rw [decide_eq_true_eq]
    rintro rfl
    exact absurd hdigit (by decide)
  rw [tupleIndexes?, String.toList_ofList, List.takeWhile_append_of_pos hpoint, List.dropWhile_append_of_pos hpoint]
  simp [tupleIndex?_digits hne hcs, tupleIndex?_digits hne' hds]
  split_ifs <;> simp_all

lemma run_memberAccess_int (base : Expr) {n} (hrest : s.rest = t :: rest) (hkind : t.kind = .int n .decimal) :
    ∃ span, memberAccess base c s = (.ok (.tupleIndex span base (n % 2 ^ 64)), { s with rest, previous := t }) := by
  rw [memberAccess, run_bind_ok (run_peek c s), ParseState.peek_of_rest_cons hrest, hkind]
  dsimp only
  rw [run_pass_cons hrest (by simp [hkind])]
  exact ⟨_, rfl⟩

lemma run_memberAccess_float (base : Expr) {value first second} (hrest : s.rest = t :: rest)
    (hkind : t.kind = .float value) (hindexes : tupleIndexes? t.lexeme = some (first, second)) :
    ∃ span, memberAccess base c s = (.ok (.tupleIndex span
      (.tupleIndex (base.span.merge { start := t.span.start, stop := t.span.start + 1 }) base first) second),
        { s with rest, previous := t }) := by
  rw [memberAccess, run_bind_ok (run_peek c s), ParseState.peek_of_rest_cons hrest, hkind]
  dsimp only
  rw [hindexes]
  dsimp only
  rw [run_pass_cons hrest (by simp [hkind])]
  exact ⟨_, rfl⟩

lemma run_memberAccess_error {value} (hrest : s.rest = t :: rest) (hkind : t.kind = .float value)
    (hindexes : tupleIndexes? t.lexeme = none) :
    memberAccess base c s = (.error ⟨.badTupleIndex t.lexeme, t.span⟩, s) := by
  rw [memberAccess, run_bind_ok (run_peek c s), ParseState.peek_of_rest_cons hrest, hkind]
  dsimp only
  rw [hindexes]
  rfl

/-- The tree is the element of this index of the base, and the analyzer gives it that element's type, or reports a
tuple with no such element. -/
structure Selects (base : Expr) (index : Nat) (e : Expr) : Prop where
  tree : ∃ span, e = .tupleIndex span base index
  type {setting f f' ts} (expected) : checkExpr base none setting f = (.tuple ts, f') →
    (checkExpr e expected setting f).1 = ts[index]?.getD .unknown ∧
      (ts.length ≤ index → (checkExpr e expected setting f).2.problems.length = f'.problems.length + 1)

lemma selects_tupleIndex (span) (base : Expr) (index : Nat) : Selects base index (.tupleIndex span base index) := by
  refine ⟨⟨span, rfl⟩, fun {setting f f' ts} expected hbase => ?_⟩
  rw [checkExpr]
  simp only [recorded, checkTupleIndex, bind, ReaderT.bind, StateT.bind, hbase]
  cases h : ts[index]? with
  | none => exact ⟨rfl, fun _ => rfl⟩
  | some t => exact ⟨rfl, fun hlength => by simp [List.getElem?_eq_none hlength] at h⟩

/-- One index is kept up to a multiple of the word. Two with a point between them are exact, or refused. -/
theorem tuple_indexes_read (base c) (hrest : s.rest = t :: rest) :
    (∀ n, t.kind = .int n .decimal →
      ∃ e s', memberAccess base c s = (.ok e, s') ∧ Selects base (n % 2 ^ 64) e) ∧
    ∀ value cs ds, t.kind = .float value → t.lexeme = String.ofList (cs ++ '.' :: ds) →
      cs ≠ [] → ds ≠ [] →
      (∀ d ∈ cs ++ ds, d.isDigit = true) →
      if digitsValue 10 cs < 2 ^ 64 ∧ digitsValue 10 ds < 2 ^ 64 then
        ∃ inner e s', memberAccess base c s = (.ok e, s') ∧ Selects base (digitsValue 10 cs) inner ∧
          Selects inner (digitsValue 10 ds) e
      else memberAccess base c s = (.error ⟨.badTupleIndex t.lexeme, t.span⟩, s) := by
  refine ⟨fun n hkind => ?_, fun value cs ds hkind hlexeme hne hne' hdigits => ?_⟩
  · obtain ⟨span, hrun⟩ := run_memberAccess_int (c := c) base hrest hkind
    exact ⟨_, _, hrun, selects_tupleIndex span _ _⟩
  · have hindexes := tupleIndexes?_pair hne hne' hdigits
    rw [← hlexeme] at hindexes
    split
    · rw [if_pos ‹_›] at hindexes
      obtain ⟨span, hrun⟩ := run_memberAccess_float (c := c) base hrest hkind hindexes
      exact ⟨_, _, _, hrun, selects_tupleIndex _ _ _, selects_tupleIndex span _ _⟩
    · rw [if_neg ‹_›] at hindexes
      exact run_memberAccess_error hrest hkind hindexes

def tenPointZero : Token :=
  ⟨.float 10, "10.0", { start := 2, stop := 6 }⟩

theorem tuple_indexes_read_tenPointZero : ∃ inner e s',
    memberAccess (.ident default "t") { finish := default } { rest := [tenPointZero], previous := default } =
      (.ok e, s') ∧
      Selects (.ident default "t") 10 inner ∧ Selects inner 0 e := by
  have hread := (tuple_indexes_read (s := { rest := [tenPointZero], previous := default }) (.ident default "t")
    { finish := default } rfl).2 10 ['1', '0'] ['0'] rfl (by decide) (by simp) (by simp) (by simp)
  rwa [if_pos (by decide)] at hread

def readExpr (source : String) : Option Expr :=
  (grammar.expr { finish := default } { rest := (lex source).tokens, previous := default }).1.toOption

/-- The base of a tuple index, where it stands and the index behind it. -/
def Expr.indexed? : Expr → Option (Expr × Nat × Nat × Nat)
  | .tupleIndex span base i => some (base, span.start, span.stop, i)
  | _ => none

/-- In `t.10.0` the first index spans `t.1`. -/
theorem spans_cut_short :
    (((readExpr "t.10.0").bind Expr.indexed?).bind (·.1.indexed?)).map (·.2) = some (0, 3, 10) ∧
    ((readExpr "t.1").bind Expr.indexed?).map (·.2) = some (0, 3, 1) := by
  decide +kernel

def indexesByWordSize : String :=
  "package t;\npub fn f(t: (i32, bool)) -> i32 \x7b return t.18446744073709551616; \x7d\n"

/-- An index of the size of a word selects the first element, in a program that is accepted. -/
theorem tuple_index_wraps :
    ((readExpr "t.18446744073709551616").bind Expr.indexed?).map (·.2) = some (0, 22, 0) ∧
    (parseSource indexesByWordSize).problems = [] ∧
    (analyze (parseSource indexesByWordSize).program {}).diagnostics = [] := by
  decide +kernel

end SourceCheck
