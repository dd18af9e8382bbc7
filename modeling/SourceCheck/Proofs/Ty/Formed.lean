import Mathlib.Tactic.Lemma
import SourceCheck.Ty.Substitution

/-!
# Well-formed types

A type is well-formed if its type parameters are in scope and its structs and enums may be mentioned with their
arities. Substitution and unification keep this.
-/

namespace SourceCheck

open List

namespace Ty

mutual

def params : Ty → List String
  | .param x => [x]
  | .slice t | .array t _ | .pointer _ t | .option t | .taskHandle t => t.params
  | .result a b => a.params ++ b.params
  | .tuple ts | .struct _ ts | .enum _ ts => listParams ts
  | .primitive _ | .infinite | .unknown => []

def listParams : List Ty → List String
  | [] => []
  | t :: ts => t.params ++ listParams ts

end

mutual

/-- Type parameters are among `P`, structs and enums with their arities among `N`. -/
def Formed (P : String → Prop) (N : Nominal → Nat → Prop) : Ty → Prop
  | .param x => P x
  | .slice t | .array t _ | .pointer _ t | .option t | .taskHandle t => t.Formed P N
  | .result a b => a.Formed P N ∧ b.Formed P N
  | .tuple ts => AllFormed P N ts
  | .struct n ts | .enum n ts => N n ts.length ∧ AllFormed P N ts
  | .primitive _ | .infinite | .unknown => True

def AllFormed (P : String → Prop) (N : Nominal → Nat → Prop) : List Ty → Prop
  | [] => True
  | t :: ts => t.Formed P N ∧ AllFormed P N ts

end

variable {P P' Q : String → Prop} {N N' R : Nominal → Nat → Prop} {t : Ty} {ts : List Ty}

lemma allFormed_iff : AllFormed P N ts ↔ ∀ t ∈ ts, t.Formed P N := by
  induction ts with
  | nil => simp [AllFormed]
  | cons t ts ih => simp [AllFormed, ih]

lemma allFormed_append {us} : AllFormed P N (ts ++ us) ↔ AllFormed P N ts ∧ AllFormed P N us := by
  simp only [allFormed_iff, mem_append, or_imp, forall_and]

lemma allFormed_unknowns {α : Type} (l : List α) : AllFormed P N (l.map fun _ => unknown) := by
  rw [allFormed_iff]
  intro t ht
  obtain ⟨_, -, rfl⟩ := mem_map.1 ht
  exact trivial

lemma allFormed_replicate_unknown (n) : AllFormed P N (List.replicate n unknown) := by
  rw [allFormed_iff]
  intro t ht
  rw [eq_of_mem_replicate ht]
  exact trivial

lemma allFormed_map_param {xs : List String} (h : ∀ x ∈ xs, P x) : AllFormed P N (xs.map .param) := by
  rw [allFormed_iff]
  intro t ht
  obtain ⟨x, hx, rfl⟩ := mem_map.1 ht
  exact h x hx

mutual

lemma formed_of_forall (hP : ∀ x, P x) (hN : ∀ n k, N n k) (t : Ty) : t.Formed P N := by
  match t with
  | .param x => exact hP x
  | .primitive _ | .infinite | .unknown => exact trivial
  | .slice t | .array t _ | .pointer _ t | .option t | .taskHandle t => exact formed_of_forall hP hN t
  | .result a b => exact ⟨formed_of_forall hP hN a, formed_of_forall hP hN b⟩
  | .tuple ts => exact allFormed_of_forall hP hN ts
  | .struct _ ts | .enum _ ts => exact ⟨hN _ _, allFormed_of_forall hP hN ts⟩

lemma allFormed_of_forall (hP : ∀ x, P x) (hN : ∀ n k, N n k) (ts) : AllFormed P N ts := by
  match ts with
  | [] => exact trivial
  | t :: ts => exact ⟨formed_of_forall hP hN t, allFormed_of_forall hP hN ts⟩

end

mutual

lemma Formed.of_mem_params : ∀ {t : Ty}, t.Formed P N → ∀ x ∈ t.params, P x
  | .param _, ht, x, hx => by
    rw [mem_singleton.1 hx]
    exact ht
  | .slice t, ht, x, hx | .array t _, ht, x, hx | .pointer _ t, ht, x, hx | .option t, ht, x, hx
  | .taskHandle t, ht, x, hx => Formed.of_mem_params (t := t) ht x hx
  | .result _ _, ht, x, hx => by
    obtain hx | hx := mem_append.1 hx
    · exact Formed.of_mem_params ht.1 x hx
    · exact Formed.of_mem_params ht.2 x hx
  | .tuple _, ht, x, hx => AllFormed.of_mem_listParams ht x hx
  | .struct _ _, ht, x, hx | .enum _ _, ht, x, hx => AllFormed.of_mem_listParams ht.2 x hx
  | .primitive _, _, x, hx | .infinite, _, x, hx | .unknown, _, x, hx => absurd hx not_mem_nil

lemma AllFormed.of_mem_listParams : ∀ {ts : List Ty}, AllFormed P N ts → ∀ x ∈ listParams ts, P x
  | [], _, x, hx => absurd hx not_mem_nil
  | _ :: _, hts, x, hx => by
    obtain hx | hx := mem_append.1 hx
    · exact Formed.of_mem_params hts.1 x hx
    · exact AllFormed.of_mem_listParams hts.2 x hx

end

mutual

lemma Formed.merge (hP : ∀ x, P x → P' x → Q x) (hN : ∀ n k, N n k → N' n k → R n k) :
    ∀ {t : Ty}, t.Formed P N → t.Formed P' N' → t.Formed Q R
  | .param x, ht, ht' => hP x ht ht'
  | .primitive _, _, _ | .infinite, _, _ | .unknown, _, _ => trivial
  | .slice t, ht, ht' | .array t _, ht, ht' | .pointer _ t, ht, ht' | .option t, ht, ht'
  | .taskHandle t, ht, ht' => Formed.merge hP hN (t := t) ht ht'
  | .result _ _, ht, ht' => ⟨Formed.merge hP hN ht.1 ht'.1, Formed.merge hP hN ht.2 ht'.2⟩
  | .tuple _, ht, ht' => AllFormed.merge hP hN ht ht'
  | .struct _ _, ht, ht' | .enum _ _, ht, ht' => ⟨hN _ _ ht.1 ht'.1, AllFormed.merge hP hN ht.2 ht'.2⟩

lemma AllFormed.merge (hP : ∀ x, P x → P' x → Q x) (hN : ∀ n k, N n k → N' n k → R n k) :
    ∀ {ts : List Ty}, AllFormed P N ts → AllFormed P' N' ts → AllFormed Q R ts
  | [], _, _ => trivial
  | _ :: _, hts, hts' => ⟨Formed.merge hP hN hts.1 hts'.1, AllFormed.merge hP hN hts.2 hts'.2⟩

end

lemma Formed.imp (hP : ∀ x, P x → Q x) (hN : ∀ n k, N n k → R n k) (ht : t.Formed P N) : t.Formed Q R :=
  ht.merge (fun x hx _ => hP x hx) (fun n k hn _ => hN n k hn) ht

lemma AllFormed.imp (hP : ∀ x, P x → Q x) (hN : ∀ n k, N n k → R n k) (hts : AllFormed P N ts) :
    AllFormed Q R ts :=
  hts.merge (fun x hx _ => hP x hx) (fun n k hn _ => hN n k hn) hts

lemma Formed.mono (h : ∀ x, P x → Q x) (ht : t.Formed P N) : t.Formed Q N :=
  ht.imp h fun _ _ => id

/-! ### Substitution -/

mutual

lemma Formed.substitute {types} (h : ∀ x, Q x → ((types x).getD (.param x)).Formed P N) :
    ∀ {t : Ty}, t.Formed Q N → (t.substitute types).Formed P N
  | .param x, ht => h x ht
  | .primitive _, _ | .infinite, _ | .unknown, _ => by simp [Ty.substitute, Formed]
  | .slice t, ht | .array t _, ht | .pointer _ t, ht | .option t, ht | .taskHandle t, ht => by
    simp only [Ty.substitute, Formed]
    exact Formed.substitute h (t := t) ht
  | .result _ _, ht => by
    simp only [Ty.substitute, Formed]
    exact ⟨Formed.substitute h ht.1, Formed.substitute h ht.2⟩
  | .tuple _, ht => by
    simp only [Ty.substitute, Formed]
    exact (AllFormed.substituteList h ht).2
  | .struct _ _, ht | .enum _ _, ht => by
    simp only [Ty.substitute, Formed]
    obtain ⟨hlength, hts⟩ := AllFormed.substituteList h ht.2
    exact ⟨hlength ▸ ht.1, hts⟩

lemma AllFormed.substituteList {types} (h : ∀ x, Q x → ((types x).getD (.param x)).Formed P N) :
    ∀ {ts : List Ty}, AllFormed Q N ts →
      (substituteList types ts).length = ts.length ∧ AllFormed P N (substituteList types ts)
  | [], _ => ⟨rfl, trivial⟩
  | _ :: _, hts => by
    obtain ⟨hlength, hrest⟩ := AllFormed.substituteList h hts.2
    exact ⟨congrArg (· + 1) hlength, Formed.substitute h hts.1, hrest⟩

end

end Ty

/-! ### Types for parameters -/

def Bindings.Formed (P : String → Prop) (N : Nominal → Nat → Prop) (b : Bindings) : Prop :=
  ∀ p ∈ b, p.2.Formed P N

def Bindings.Has (b : Bindings) (x : String) : Prop :=
  (b.lookup x).isSome = true

namespace Bindings

variable {P : String → Prop} {N : Nominal → Nat → Prop} {b : Bindings} {x : String} {t : Ty}

lemma formed_nil : Bindings.Formed P N [] :=
  fun _ h => absurd h not_mem_nil

lemma Formed.of_lookup (h : b.Formed P N) (ht : b.lookup x = some t) : t.Formed P N :=
  h (x, t) (by
    obtain ⟨l₁, l₂, rfl, -⟩ := lookup_eq_some_iff.1 ht
    simp)

lemma Formed.add (h : b.Formed P N) (x) (ht : t.Formed P N) : (b.add x t).Formed P N := by
  rw [Bindings.add]
  split
  · exact h
  · intro p hp
    obtain rfl | hp := mem_cons.1 hp
    · exact ht
    · exact h p hp

lemma formed_ofLists {params args} (h : Ty.AllFormed P N args) : (ofLists params args).Formed P N := by
  intro p hp
  rw [ofLists, mem_reverse] at hp
  exact Ty.allFormed_iff.1 h p.2 (of_mem_zip hp).2

lemma has_ofLists {params args} (h : args.length = params.length) (hx : x ∈ params) :
    (ofLists params args).Has x := by
  obtain ⟨i, hi, rfl⟩ := mem_iff_getElem.1 hx
  rw [Has, Option.isSome_iff_ne_none, ne_eq, lookup_eq_none_iff]
  intro hnone
  have hzip : (params[i], args[i]) ∈ params.zip args :=
    mem_iff_getElem.2 ⟨i, by simp [hi, h], by simp⟩
  simpa using hnone _ (mem_reverse.2 hzip)

lemma Formed.typesOf (h : b.Formed P N) (params) : Ty.AllFormed P N (b.typesOf params) := by
  rw [Ty.allFormed_iff]
  intro t ht
  obtain ⟨x, -, rfl⟩ := mem_map.1 ht
  cases hx : b.lookup x with
  | none => exact trivial
  | some t => exact h.of_lookup hx

lemma type?_add (b : Bindings) (x t y) : (b.add x t).type? y = (b.type? y).or (if y = x then some t else none) := by
  rw [add, type?, type?]
  split
  · rename_i u hx
    by_cases hy : y = x
    · simp [hy, hx]
    · simp [hy]
  · rename_i hx
    by_cases hy : y = x
    · simp [hy, hx]
    · have hyx : (y == x) = false := beq_eq_false_iff_ne.2 hy
      simp [hy, lookup_cons, hyx]

end Bindings

namespace Ty

variable {P Q : String → Prop} {N : Nominal → Nat → Prop} {b : Bindings} {t : Ty}

lemma Formed.substitute_type? (ht : t.Formed Q N) (hb : b.Formed P N) (hQ : ∀ x, Q x → P x ∨ b.Has x) :
    (t.substitute b.type?).Formed P N := by
  refine ht.substitute fun x hx => ?_
  rw [Bindings.type?]
  cases hlookup : b.lookup x with
  | some u => exact hb.of_lookup hlookup
  | none =>
    obtain hx | hx := hQ x hx
    · exact hx
    · simp [Bindings.Has, hlookup] at hx

lemma Formed.instantiate (ht : t.Formed Q N) (hb : b.Formed P N) {generics}
    (hQ : ∀ x, Q x → x ∈ generics ∨ P x ∨ b.Has x) : (t.instantiate generics b).Formed P N := by
  refine ht.substitute fun x hx => ?_
  rw [instantiation]
  split
  · rename_i u hlookup
    exact hb.of_lookup hlookup
  · rename_i hlookup
    split
    · exact trivial
    · rename_i hgenerics
      obtain hx | hx | hx := hQ x hx
      · simp [hx] at hgenerics
      · exact hx
      · simp [Bindings.Has, hlookup] at hx

mutual

lemma Formed.unify (pattern : Ty) {actual b} (ht : actual.Formed P N) (hb : b.Formed P N) :
    (pattern.unify actual b).Formed P N := by
  unfold Ty.unify
  split
  · exact hb
  · exact hb.add _ ht
  iterate 6 exact Formed.unify _ ht hb
  · exact Formed.unify _ ht.2 (Formed.unify _ ht.1 hb)
  · exact AllFormed.unifyAll _ ht hb
  · split
    · exact AllFormed.unifyAll _ ht.2 hb
    · exact hb
  · split
    · exact AllFormed.unifyAll _ ht.2 hb
    · exact hb
  · exact hb

lemma AllFormed.unifyAll (patterns) {actual b} (hts : AllFormed P N actual)
    (hb : b.Formed P N) : (Ty.unifyAll patterns actual b).Formed P N := by
  unfold Ty.unifyAll
  split
  · exact AllFormed.unifyAll _ hts.2 (Formed.unify _ hts.1 hb)
  · exact hb

end

mutual

/-- Unification keeps the types that are known. -/
lemma type?_unify {x t} (pattern actual : Ty) {b} (h : b.type? x = some t) :
    (pattern.unify actual b).type? x = some t := by
  unfold Ty.unify
  split
  · exact h
  · rw [Bindings.type?_add, h, Option.some_or]
  iterate 6 exact type?_unify _ _ h
  · exact type?_unify _ _ (type?_unify _ _ h)
  · exact type?_unifyAll _ _ h
  · split
    · exact type?_unifyAll _ _ h
    · exact h
  · split
    · exact type?_unifyAll _ _ h
    · exact h
  · exact h

lemma type?_unifyAll {x t} (patterns actual) {b} (h : b.type? x = some t) :
    (unifyAll patterns actual b).type? x = some t := by
  unfold Ty.unifyAll
  split
  · exact type?_unifyAll _ _ (type?_unify _ _ h)
  · exact h

end

lemma has_unify {x} (pattern actual : Ty) {b} (h : b.Has x) : (pattern.unify actual b).Has x := by
  obtain ⟨t, ht⟩ := Option.isSome_iff_exists.1 h
  exact Option.isSome_iff_exists.2 ⟨t, type?_unify pattern actual ht⟩

end Ty

end SourceCheck
