import Mathlib.Data.List.Permutation
import Mathlib.Tactic.Lemma
import SourceCheck.Coverage.Matrix

/-!
# The searches end

Fields can have the type they are fields of, so neither the types nor the columns run out. What runs out are the
constructors in the matrix and in the row, and then the columns. The searches are written once more as plain
recursions, which give up when calls are nested too deep or when a row is split behind its end: neither happens.
-/

namespace SourceCheck

open List

/-- What cuts a search short. -/
inductive CutShort where
  | depth
  | range
deriving DecidableEq

/-- The parts of a row before and behind a place that it has. -/
def splitWithin (n : Nat) (row : List Shape) : Except CutShort (List Shape × List Shape) :=
  if n ≤ row.length then .ok (row.splitAt n) else .error .range

namespace Matrix

/-- Whether a row is useful, with a number of calls that may be nested. -/
def usefulWithin (cs : Constructors) : Nat → Matrix → List Shape → List Ty → Except CutShort Bool
  | 0, _, _, _ => .error .depth
  | _ + 1, m, [], _ => .ok m.isEmpty
  | n + 1, m, .ctor c args :: rest, ts =>
    usefulWithin cs n (m.specialize c args.length) (args ++ rest)
      (cs.fieldsOf (ts.headD .unknown) c args.length ++ ts.tail)
  | n + 1, m, .any :: rest, ts =>
    match cs (ts.headD .unknown) with
    | none => usefulWithin cs n m.defaultRows rest ts.tail
    | some all =>
      if m.hasHeads all then
        all.anyM fun entry =>
          usefulWithin cs n (m.specialize entry.1 entry.2.length)
            (List.replicate entry.2.length .any ++ rest) (entry.2 ++ ts.tail)
      else usefulWithin cs n m.defaultRows rest ts.tail

/-- A witness, with a number of calls that may be nested. -/
def witnessWithin (cs : Constructors) : Nat → Matrix → List Ty → Except CutShort (Option (List Shape))
  | 0, _, _ => .error .depth
  | _ + 1, m, [] => .ok (if m.isEmpty then some [] else none)
  | n + 1, m, t :: rest =>
    match cs t with
    | none => do
      let found ← witnessWithin cs n m.defaultRows rest
      return found.map (.any :: ·)
    | some all =>
      if m.hasHeads all then
        all.findSomeM? fun entry => do
          match ← witnessWithin cs n (m.specialize entry.1 entry.2.length) (entry.2 ++ rest) with
          | none => return none
          | some found =>
            let (fields, behind) ← splitWithin entry.2.length found
            return some (.ctor entry.1 fields :: behind)
      else do
        let found ← witnessWithin cs n m.defaultRows rest
        return found.map (m.absentHead all :: ·)

/-! ### Depths that do -/

/-- At every depth from some one on, a search gives its answer. -/
def Settles {α} (run : Nat → Except CutShort α) (answer : α) : Prop :=
  ∃ depth, ∀ n ≥ depth, run n = .ok answer

section

variable {α β : Type} {l : List α}

lemma Settles.of_succ {run : Nat → Except CutShort α} {a} (h : Settles (fun n => run (n + 1)) a) :
    Settles run a := by
  obtain ⟨depth, h⟩ := h
  refine ⟨depth + 1, fun n hn => ?_⟩
  obtain ⟨n, rfl⟩ : ∃ k, n = k + 1 := ⟨n - 1, by omega⟩
  exact h n (by omega)

lemma Settles.bind {run : Nat → Except CutShort α} {a} {more : Nat → α → Except CutShort β} {b}
    (h : Settles run a) (hmore : Settles (fun n => more n a) b) : Settles (fun n => run n >>= more n) b := by
  obtain ⟨d, h⟩ := h
  obtain ⟨e, hmore⟩ := hmore
  refine ⟨max d e, fun n hn => ?_⟩
  dsimp only
  rw [h n (by omega)]
  exact hmore n (by omega)

lemma settles_ok (a : α) : Settles (fun _ => .ok a) a :=
  ⟨0, fun _ _ => rfl⟩

lemma settles_anyM {run : α → Nat → Except CutShort Bool} {test} (h : ∀ x ∈ l, Settles (run x) (test x)) :
    Settles (fun n => l.anyM fun x => run x n) (l.any test) := by
  induction l with
  | nil => exact settles_ok false
  | cons x l ih =>
    refine (h x mem_cons_self).bind ?_
    rw [any_cons]
    cases test x with
    | true => exact settles_ok true
    | false => exact ih fun y hy => h y (mem_cons_of_mem x hy)

lemma settles_findSomeM? {run : α → Nat → Except CutShort (Option β)} {find}
    (h : ∀ x ∈ l, Settles (run x) (find x)) :
    Settles (fun n => l.findSomeM? fun x => run x n) (l.findSome? find) := by
  induction l with
  | nil => exact settles_ok none
  | cons x l ih =>
    refine (h x mem_cons_self).bind ?_
    rw [findSome?_cons]
    cases find x with
    | none => exact ih fun y hy => h y (mem_cons_of_mem x hy)
    | some y => exact settles_ok (some y)

end

/-! ### The searches -/

lemma settles_usefulWithin (cs : Constructors) (m : Matrix) (row ts) :
    Settles (fun n => m.usefulWithin cs n row ts) (m.useful cs row ts) := by
  fun_induction useful cs m row ts with
  | case1 m ts => exact ⟨1, fun | _ + 1, _ => rfl⟩
  | case2 m ts c args rest ih => exact .of_succ ih
  | case3 m ts rest hopen ih =>
    refine .of_succ ?_
    simp only [usefulWithin, hopen]
    exact ih
  | case4 m ts rest all hall hheads ih =>
    refine .of_succ ?_
    simp only [usefulWithin, hall, hheads, if_true, any_subtype, unattach_attach]
    exact settles_anyM fun entry hentry => ih entry hentry
  | case5 m ts rest all hall hheads ih =>
    refine .of_succ ?_
    simp only [usefulWithin, hall, hheads]
    exact ih

/-- A witness has one shape for each type. -/
lemma length_of_witness?_eq_some {cs : Constructors} {m : Matrix} {ts row} (h : m.witness? cs ts = some row) :
    row.length = ts.length := by
  fun_induction witness? cs m ts generalizing row with
  | case1 m hempty =>
    cases h
    rfl
  | case2 m hempty => cases h
  | case3 m t rest hopen ih | case5 m t rest all hall hheads ih =>
    obtain ⟨found, hfound, rfl⟩ := Option.map_eq_some_iff.1 h
    rw [length_cons, ih hfound, length_cons]
  | case4 m t rest all hall hheads ih =>
    obtain ⟨⟨entry, hentry⟩, -, hsome⟩ := exists_of_findSome?_eq_some h
    obtain ⟨found, hfound, rfl⟩ := Option.map_eq_some_iff.1 hsome
    have hlength := ih entry hentry hfound
    rw [length_append] at hlength
    rw [length_cons, length_drop, hlength, length_cons, Nat.add_sub_cancel_left]

lemma settles_witnessWithin (cs : Constructors) (m : Matrix) (ts) :
    Settles (fun n => m.witnessWithin cs n ts) (m.witness? cs ts) := by
  fun_induction witness? cs m ts with
  | case1 m hempty | case2 m hempty => exact ⟨1, fun | _ + 1, _ => by simp [witnessWithin, hempty]⟩
  | case3 m t rest hopen ih =>
    refine .of_succ ?_
    simp only [witnessWithin, hopen]
    exact ih.bind (settles_ok _)
  | case4 m t rest all hall hheads ih =>
    refine .of_succ ?_
    simp only [witnessWithin, hall, hheads, if_true, findSome?_subtype, unattach_attach]
    refine settles_findSomeM? fun entry hentry => ?_
    refine (ih entry hentry).bind ?_
    cases hfound : witness? cs (m.specialize entry.1 entry.2.length) (entry.2 ++ rest) with
    | none => exact settles_ok none
    | some found =>
      have hle : entry.2.length ≤ found.length := by
        rw [length_of_witness?_eq_some hfound, length_append]
        exact Nat.le_add_right _ _
      simp only [splitWithin, if_pos hle, splitAt_eq]
      exact settles_ok _
  | case5 m t rest all hall hheads ih =>
    refine .of_succ ?_
    simp only [witnessWithin, hall, hheads]
    exact ih.bind (settles_ok _)

/-- Whatever the enums, also where fields have the type they are fields of, both searches end, no row is split behind
its end, and a witness has one shape for each type. -/
theorem searches_settle (enum? : Nominal → Option (List String × List VariantInfo)) (m : Matrix) (row : List Shape)
    (ts : List Ty) :
    let cs := constructorsOf enum?
    Settles (fun n => m.usefulWithin cs n row ts) (m.useful cs row ts) ∧
    Settles (fun n => m.witnessWithin cs n ts) (m.witness? cs ts) ∧
    ∀ found, m.witness? cs ts = some found → found.length = ts.length :=
  ⟨settles_usefulWithin _ m row ts, settles_witnessWithin _ m ts, fun _ => length_of_witness?_eq_some⟩

/-- Trees whose nodes hold a tree by value. -/
def treeVariants : List VariantInfo :=
  [⟨"Leaf", [], none⟩, ⟨"Node", [.enum ⟨"main", "Tree"⟩ []], none⟩]

theorem searches_settle_tree :
    let cs := constructorsOf fun _ => some ([], treeVariants)
    let tree := Ty.enum ⟨"main", "Tree"⟩ []
    let leaf := Shape.ctor (.variant "Tree" "Leaf") []
    let node (a : Shape) := Shape.ctor (.variant "Tree" "Node") [a]
    let m : Matrix := [[leaf], [node leaf]]
    m.witness? cs [tree] = some [node (node .any)] ∧ [node (node .any)].length = [tree].length ∧
      Settles (fun n => m.usefulWithin cs n [.any] [tree]) (m.useful cs [.any] [tree]) := by
  intro cs tree leaf node m
  have hfound : m.witness? cs [tree] = some [node (node .any)] := by
    cbv
  obtain ⟨huseful, -, hlength⟩ := searches_settle (fun _ => some ([], treeVariants)) m [.any] [tree]
  exact ⟨hfound, hlength _ hfound, huseful⟩

end Matrix

end SourceCheck
