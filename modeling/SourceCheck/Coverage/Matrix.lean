import SourceCheck.Symbol.Basic
import SourceCheck.Ty.Substitution

/-!
# Coverage of matches

A shape is anything, or a constructor with shapes for its fields. The types with finitely many constructors are the
truth values, tuples, `Result`, `Option` and enums; other values are told apart by literals. `useful` tells whether a
row of shapes takes values that no row of a matrix takes, and `witness?` finds such values. Both split the first
column by its constructors: if every one stands at the head of some row, splitting removes one from the matrix, and
otherwise the column is dropped.
-/

namespace SourceCheck

inductive Ctor where
  | variant (enum variant : String)
  | bool (b : Bool)
  | tuple (size : Nat)
  /-- A value of a type without finitely many constructors. -/
  | literal (value : Literal)
deriving DecidableEq, Repr

inductive Shape where
  | any
  | ctor (c : Ctor) (args : List Shape)

def Literal.text : Literal → String
  | .int n => toString n
  | .float x => FloatFormat.value.write x
  | .string s => quoteString s
  | .char c => quoteChar c
  | .bool b => toString b
  | .unit => "()"

namespace Shape

mutual

def text : Shape → String
  | .any => "_"
  | .ctor (.tuple _) args => "(" ++ listText args ++ ")"
  | .ctor (.bool b) _ => toString b
  | .ctor (.literal v) _ => v.text
  | .ctor (.variant enum variant) [] => enum ++ "." ++ variant
  | .ctor (.variant enum variant) (a :: args) =>
    enum ++ "." ++ variant ++ "(" ++ listText (a :: args) ++ ")"

def listText : List Shape → String
  | [] => ""
  | [a] => a.text
  | a :: as => a.text ++ ", " ++ listText as

end

end Shape

/-- The constructors of types that have finitely many, with the types of their fields. -/
abbrev Constructors := Ty → Option (List (Ctor × List Ty))

/-- The constructors, when `enum?` gives the type parameters and variants of enums. -/
def constructorsOf (enum? : Nominal → Option (List String × List VariantInfo)) : Constructors
  | .primitive .bool => some [(.bool true, []), (.bool false, [])]
  | .tuple ts => some [(.tuple ts.length, ts)]
  | .result ok err => some [(.variant "Result" "Ok", [ok]), (.variant "Result" "Err", [err])]
  | .option inner => some [(.variant "Option" "Some", [inner]), (.variant "Option" "None", [])]
  | .enum n args =>
    (enum? n).map fun (params, variants) =>
      variants.map fun v =>
        (.variant n.name v.name, v.payload.map (Ty.instantiate params (Bindings.ofLists params args)))
  | _ => none

namespace Constructors

def fields? (cs : Constructors) (t : Ty) (c : Ctor) : Option (List Ty) :=
  (cs t).bind (·.lookup c)

/-- The types of the fields of a constructor, unresolved if the type has no such one. -/
def fieldsOf (cs : Constructors) (t : Ty) (c : Ctor) (arity : Nat) : List Ty :=
  match cs.fields? t c with
  | some ts => if ts.length = arity then ts else List.replicate arity .unknown
  | none => List.replicate arity .unknown

mutual

/-- What a pattern demands. A variant without a list of arguments takes any. -/
def shape (cs : Constructors) (t : Ty) : Pattern → Shape
  | .wildcard _ | .binding .. => .any
  | .literal _ (.bool b) => .ctor (.bool b) []
  | .literal _ value => .ctor (.literal value) []
  | .tuple _ elems =>
    let c := Ctor.tuple elems.length
    .ctor c (cs.shapes (cs.fieldsOf t c elems.length) elems)
  | .variant _ enum variant args =>
    let c := Ctor.variant enum variant
    match cs.fields? t c with
    | some ts => .ctor c (if args.isEmpty then ts.map fun _ => .any else cs.shapes ts args)
    | none => .ctor c (cs.shapes (args.map fun _ => .unknown) args)

def shapes (cs : Constructors) (ts : List Ty) : List Pattern → List Shape
  | [] => []
  | p :: ps =>
    match ts with
    | [] => []
    | t :: ts => cs.shape t p :: cs.shapes ts ps

end

end Constructors

/-! ### Matrices -/

namespace Shape

mutual

def ctorCount : Shape → Nat
  | .any => 0
  | .ctor _ args => ctorCountAll args + 1

def ctorCountAll : List Shape → Nat
  | [] => 0
  | a :: as => a.ctorCount + ctorCountAll as

end

theorem ctorCountAll_append (as bs : List Shape) : ctorCountAll (as ++ bs) = ctorCountAll as + ctorCountAll bs := by
  induction as with
  | nil => simp [ctorCountAll]
  | cons a as ih => simp [ctorCountAll, ih]; omega

theorem ctorCountAll_replicate_any (n : Nat) : ctorCountAll (List.replicate n .any) = 0 := by
  induction n with
  | zero => rfl
  | succ n ih => simp [List.replicate_succ, ctorCountAll, ctorCount, ih]

end Shape

abbrev Matrix := List (List Shape)

namespace Matrix

def ctorCount : Matrix → Nat
  | [] => 0
  | row :: rows => Shape.ctorCountAll row + ctorCount rows

def hasHead (m : Matrix) (c : Ctor) : Bool :=
  m.any fun
    | .ctor d _ :: _ => d = c
    | _ => false

def hasHeads (m : Matrix) (all : List (Ctor × List Ty)) : Bool :=
  all.all fun entry => m.hasHead entry.1

/-- A row whose head takes a constructor, with the fields in place of the head. -/
def specializeRow (c : Ctor) (arity : Nat) : List Shape → Option (List Shape)
  | [] => none
  | .any :: rest => some (List.replicate arity .any ++ rest)
  | .ctor d args :: rest => if d = c then some (args ++ rest) else none

def specialize (m : Matrix) (c : Ctor) (arity : Nat) : Matrix :=
  m.filterMap (specializeRow c arity)

def defaultRow : List Shape → Option (List Shape)
  | .any :: rest => some rest
  | _ => none

def defaultRows (m : Matrix) : Matrix :=
  m.filterMap defaultRow

/-! ### Splitting does not add constructors -/

theorem ctorCountAll_specializeRow_le {c arity row out}
    (h : specializeRow c arity row = some out) : Shape.ctorCountAll out ≤ Shape.ctorCountAll row := by
  cases row with
  | nil => simp [specializeRow] at h
  | cons head rest =>
    cases head with
    | any =>
      simp only [specializeRow, Option.some.injEq] at h
      subst h
      simp [Shape.ctorCountAll_append, Shape.ctorCountAll_replicate_any, Shape.ctorCountAll]
    | ctor d args =>
      simp only [specializeRow] at h
      split at h
      · simp only [Option.some.injEq] at h
        subst h
        simp [Shape.ctorCountAll_append, Shape.ctorCountAll, Shape.ctorCount]
      · simp at h

theorem ctorCount_specialize_le (m : Matrix) (c : Ctor) (arity : Nat) :
    (m.specialize c arity).ctorCount ≤ m.ctorCount := by
  induction m with
  | nil => simp [specialize]
  | cons row rows ih =>
    simp only [specialize, List.filterMap_cons] at ih ⊢
    split
    · exact Nat.le_trans ih (Nat.le_add_left _ _)
    · rename_i out h
      exact Nat.add_le_add (ctorCountAll_specializeRow_le h) ih

theorem ctorCount_specialize_lt {m : Matrix} {c} (arity : Nat) (h : m.hasHead c = true) :
    (m.specialize c arity).ctorCount < m.ctorCount := by
  induction m with
  | nil => simp [hasHead] at h
  | cons row rows ih =>
    have le := ctorCount_specialize_le rows c arity
    simp only [hasHead, List.any_cons, Bool.or_eq_true] at h
    simp only [specialize, List.filterMap_cons] at ih le ⊢
    rcases h with h | h
    · cases row with
      | nil => simp at h
      | cons head rest =>
        cases head with
        | any => simp at h
        | ctor d args =>
          simp only [decide_eq_true_eq] at h
          simp only [specializeRow, h, ↓reduceIte, ctorCount, Shape.ctorCountAll_append,
            Shape.ctorCountAll, Shape.ctorCount]
          omega
    · have lt := ih h
      split
      · simp only [ctorCount]
        omega
      · rename_i out hout
        have := ctorCountAll_specializeRow_le hout
        simp only [ctorCount]
        omega

theorem ctorCount_defaultRows_le (m : Matrix) : m.defaultRows.ctorCount ≤ m.ctorCount := by
  induction m with
  | nil => simp [defaultRows]
  | cons row rows ih =>
    simp only [defaultRows, List.filterMap_cons] at ih ⊢
    split
    · exact Nat.le_trans ih (Nat.le_add_left _ _)
    · rename_i out h
      refine Nat.add_le_add ?_ ih
      match row, h with
      | .any :: rest, h =>
        simp only [defaultRow, Option.some.injEq] at h
        subst h
        simp [Shape.ctorCountAll, Shape.ctorCount]

theorem hasHead_of_mem {m : Matrix} {all} {entry : Ctor × List Ty}
    (h : m.hasHeads all = true) (hmem : entry ∈ all) : m.hasHead entry.1 = true :=
  List.all_eq_true.mp h entry hmem

/-! ### Usefulness and witnesses -/

def useful (cs : Constructors) (m : Matrix) (row : List Shape) (ts : List Ty) : Bool :=
  match row with
  | [] => m.isEmpty
  | .ctor c args :: rest =>
    useful cs (m.specialize c args.length) (args ++ rest)
      (cs.fieldsOf (ts.headD .unknown) c args.length ++ ts.tail)
  | .any :: rest =>
    match cs (ts.headD .unknown) with
    | none => useful cs m.defaultRows rest ts.tail
    | some all =>
      if _h : m.hasHeads all then
        all.attach.any fun ⟨entry, _⟩ =>
          useful cs (m.specialize entry.1 entry.2.length)
            (List.replicate entry.2.length .any ++ rest) (entry.2 ++ ts.tail)
      else useful cs m.defaultRows rest ts.tail
termination_by (m.ctorCount + Shape.ctorCountAll row, row.length)
decreasing_by
  · have := ctorCount_specialize_le m c args.length
    apply Prod.Lex.left
    simp only [Shape.ctorCountAll_append, Shape.ctorCountAll, Shape.ctorCount]
    omega
  · have := ctorCount_defaultRows_le m
    refine Prod.Lex.right' _ (Nat.add_le_add this ?_) (Nat.lt_succ_self _)
    simp [Shape.ctorCountAll, Shape.ctorCount]
  · have := ctorCount_specialize_lt entry.2.length (hasHead_of_mem _h ‹_›)
    apply Prod.Lex.left
    simp only [Shape.ctorCountAll_append, Shape.ctorCountAll_replicate_any, Shape.ctorCountAll,
      Shape.ctorCount]
    omega
  · have := ctorCount_defaultRows_le m
    refine Prod.Lex.right' _ (Nat.add_le_add this ?_) (Nat.lt_succ_self _)
    simp [Shape.ctorCountAll, Shape.ctorCount]

def absentHead (m : Matrix) (all : List (Ctor × List Ty)) : Shape :=
  match all.find? fun entry => !m.hasHead entry.1 with
  | some (c, fields) => .ctor c (fields.map fun _ => .any)
  | none => .any

def witness? (cs : Constructors) (m : Matrix) (ts : List Ty) : Option (List Shape) :=
  match ts with
  | [] => if m.isEmpty then some [] else none
  | t :: rest =>
    match cs t with
    | none => (witness? cs m.defaultRows rest).map (.any :: ·)
    | some all =>
      if _h : m.hasHeads all then
        all.attach.findSome? fun ⟨entry, _⟩ =>
          (witness? cs (m.specialize entry.1 entry.2.length) (entry.2 ++ rest)).map fun found =>
            .ctor entry.1 (found.take entry.2.length) :: found.drop entry.2.length
      else (witness? cs m.defaultRows rest).map (m.absentHead all :: ·)
termination_by (m.ctorCount, ts.length)
decreasing_by
  · exact Prod.Lex.right' _ (ctorCount_defaultRows_le m) (Nat.lt_succ_self _)
  · exact Prod.Lex.left _ _ (ctorCount_specialize_lt entry.2.length (hasHead_of_mem _h ‹_›))
  · exact Prod.Lex.right' _ (ctorCount_defaultRows_le m) (Nat.lt_succ_self _)

end Matrix

/-! ### Matches -/

def unreachableArms (cs : Constructors) (t : Ty) (arms : List Shape) : List Bool :=
  arms.zipIdx.map fun (arm, i) => !Matrix.useful cs ((arms.take i).map ([·])) [arm] [t]

def missingShapes (cs : Constructors) (t : Ty) (arms : List Shape) : List Shape :=
  match cs t with
  | none => []
  | some all =>
    all.filterMap fun (c, fields) =>
      (Matrix.witness? cs (Matrix.specialize (arms.map ([·])) c fields.length) fields).map (.ctor c)

end SourceCheck
