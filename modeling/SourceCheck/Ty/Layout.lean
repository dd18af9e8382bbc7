import SourceCheck.Ty.Basic

/-!
# Layout in memory

Members stand in order, each at the next multiple of its alignment; an enum is a tag of four bytes and room for its
widest variant. A type has no layout if a part has none, if it contains itself, or if a size does not fit into 64
bits.
-/

namespace SourceCheck

structure Layout where
  size : Nat
  align : Nat
deriving DecidableEq, Repr

/-- The members of structs, and payloads of enums as tuples. The first entry for a type counts. -/
abbrev NominalTable := List (Nominal × List Ty)

namespace Layout

def bound : Nat := Nat.pow 2 64

def checked (n : Nat) : Option Nat :=
  if n < bound then some n else none

def roundUp (size align : Nat) : Option Nat :=
  checked ((size + align - 1) / align * align)

def push (l member : Layout) : Option Layout := do
  let start ← roundUp l.size member.align
  let size ← checked (start + member.size)
  return ⟨size, max l.align member.align⟩

def aggregate (members : List Layout) : Option Layout := do
  let l ← members.foldlM push ⟨0, 1⟩
  return ⟨← roundUp l.size l.align, l.align⟩

def union (a b : Layout) : Layout :=
  ⟨max a.size b.size, max a.align b.align⟩

def tag : Layout := ⟨4, 4⟩

def tagged (payload : Layout) : Option Layout :=
  aggregate [tag, payload]

def address : Layout := ⟨8, 8⟩

def fat : Layout := ⟨16, 8⟩

def scalar (size : Nat) : Layout :=
  ⟨size, min (max size 1) 8⟩

end Layout

namespace Ty

mutual

/-- The layout of a type, given the layouts of members. -/
def layoutWith (members : Nominal → Option (List Layout)) : Ty → Option Layout
  | .primitive p => p.sizeBytes.map Layout.scalar
  | .pointer _ _ | .taskHandle _ => some Layout.address
  | .slice _ => some Layout.fat
  | .array elem size => do
    let l ← elem.layoutWith members
    let n ← size
    return ⟨← Layout.checked (l.size * n), l.align⟩
  | .tuple elems => do
    Layout.aggregate (← layoutsWith members elems)
  | .option inner => do
    Layout.tagged (← inner.layoutWith members)
  | .result ok err => do
    let a ← ok.layoutWith members
    let b ← err.layoutWith members
    Layout.tagged (a.union b)
  | .struct n _ => do
    Layout.aggregate (← members n)
  | .enum n _ => do
    Layout.tagged ((← members n).foldl Layout.union ⟨0, 1⟩)
  | .param _ | .infinite | .unknown => none

def layoutsWith (members : Nominal → Option (List Layout)) : List Ty → Option (List Layout)
  | [] => some []
  | t :: ts => do
    let l ← t.layoutWith members
    let ls ← layoutsWith members ts
    return l :: ls

end

end Ty

def NominalTable.erase (table : NominalTable) (n : Nominal) : NominalTable :=
  table.filter (·.1 ≠ n)

theorem NominalTable.length_erase_lt {table n members}
    (h : table.lookup n = some members) : (NominalTable.erase table n).length < table.length := by
  unfold NominalTable.erase
  induction table with
  | nil => simp at h
  | cons entry rest ih =>
    obtain ⟨m, ts⟩ := entry
    by_cases hm : m = n
    · subst hm
      simp only [ne_eq, not_true_eq_false, decide_false, Bool.false_eq_true, not_false_eq_true,
        List.filter_cons_of_neg, List.length_cons]
      exact Nat.lt_succ_of_le (List.length_filter_le _ _)
    · have hn : (n == m) = false := by simpa using fun e => hm e.symm
      rw [List.lookup_cons, hn] at h
      rw [List.filter_cons_of_pos (by simpa using hm)]
      exact Nat.succ_lt_succ (ih h)

/-- Inside its members a type itself has no layout. -/
def NominalTable.memberLayouts (table : NominalTable) (n : Nominal) : Option (List Layout) :=
  match _h : table.lookup n with
  | none => none
  | some members => Ty.layoutsWith (NominalTable.memberLayouts (NominalTable.erase table n)) members
termination_by table.length
decreasing_by exact NominalTable.length_erase_lt ‹_›

def Ty.layout (table : NominalTable) (t : Ty) : Option Layout :=
  t.layoutWith (NominalTable.memberLayouts table)

/-! ### Types inside types: one that reaches itself by value has no finite size -/

namespace Ty

mutual

def inlineNominals : Ty → List Nominal
  | .struct n _ | .enum n _ => [n]
  | .tuple ts => inlineNominalsAll ts
  | .array t _ | .option t => t.inlineNominals
  | .result a b => a.inlineNominals ++ b.inlineNominals
  | .primitive _ | .slice _ | .pointer _ _ | .taskHandle _ | .param _ | .infinite | .unknown => []

def inlineNominalsAll : List Ty → List Nominal
  | [] => []
  | t :: ts => t.inlineNominals ++ inlineNominalsAll ts

end

end Ty

namespace NominalTable

/-- Whether a pending type is `root` or reaches it by value. A type that is entered is taken out of the table. -/
def reaches (table : NominalTable) (root : Nominal) (pending : List Nominal) : Bool :=
  match pending with
  | [] => false
  | n :: rest =>
    if n = root then true
    else
      match _h : table.lookup n with
      | none => reaches table root rest
      | some members => reaches (table.erase n) root (Ty.inlineNominalsAll members ++ rest)
termination_by (table.length, pending.length)
decreasing_by
  · exact Prod.Lex.right _ (Nat.lt_succ_self _)
  · exact Prod.Lex.left _ _ (length_erase_lt ‹_›)

def isInfinite (table : NominalTable) (n : Nominal) : Bool :=
  table.reaches n (Ty.inlineNominalsAll ((table.lookup n).getD []))

end NominalTable

end SourceCheck
