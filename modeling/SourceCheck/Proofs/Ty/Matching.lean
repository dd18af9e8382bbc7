import SourceCheck.Proofs.Ty.Formed

/-!
# What unification finds

Unification undoes substitution: it finds the types of the parameters that occur, and nothing else.
-/

namespace SourceCheck

open List

namespace Ty

/-! ### Substitutions that agree -/

mutual

/-- Only the types of the parameters that occur count. -/
lemma substitute_congr {types types'} :
    ∀ {t : Ty}, (∀ x ∈ t.params, types x = types' x) → t.substitute types = t.substitute types'
  | .param x, h => by rw [substitute, substitute, h x (mem_singleton_self x)]
  | .primitive _, _ | .infinite, _ | .unknown, _ => rfl
  | .slice t, h | .array t _, h | .pointer _ t, h | .option t, h | .taskHandle t, h => by
    rw [substitute, substitute, substitute_congr (t := t) h]
  | .result t u, h => by
    rw [params] at h
    rw [substitute, substitute, substitute_congr fun x hx => h x (mem_append_left _ hx),
      substitute_congr fun x hx => h x (mem_append_right _ hx)]
  | .tuple ts, h | .struct _ ts, h | .enum _ ts, h => by
    rw [substitute, substitute, substituteList_congr ts h]

lemma substituteList_congr {types types'} :
    ∀ ts : List Ty, (∀ x ∈ listParams ts, types x = types' x) →
      substituteList types ts = substituteList types' ts
  | [], _ => rfl
  | t :: ts, h => by
    rw [listParams] at h
    rw [substituteList, substituteList, substitute_congr fun x hx => h x (mem_append_left _ hx),
      substituteList_congr ts fun x hx => h x (mem_append_right _ hx)]

end

/-! ### Unification with an instance -/

variable {types : String → Option Ty}

/-- The types that are known, and those of the parameters `xs` for the others. -/
lemma or_or_ite {xs ys : List String} {b b' b'' : Bindings} (hxs : ∀ x ∈ xs, types x ≠ none)
    (h : ∀ x, b'.type? x = (b.type? x).or (if x ∈ xs then types x else none))
    (h' : ∀ x, b''.type? x = (b'.type? x).or (if x ∈ ys then types x else none)) (x) :
    b''.type? x = (b.type? x).or (if x ∈ xs ++ ys then types x else none) := by
  rw [h' x, h x, Option.or_assoc]
  congr 1
  have := hxs x
  grind

lemma unify_param (x) {t} (ht : t ≠ .unknown) (b) : unify (.param x) t b = b.add x t := by
  cases t <;> first | rfl | exact absurd rfl ht

mutual

/-- Unification with an instance keeps what is known and adds the types of the parameters that occur. -/
lemma type?_unify_substitute :
    ∀ (t : Ty) (b : Bindings), (∀ x ∈ t.params, types x ≠ none ∧ types x ≠ some .unknown) →
    ∀ x, (t.unify (t.substitute types) b).type? x = (b.type? x).or (if x ∈ t.params then types x else none)
  | .param y, b, h, x => by
    obtain ⟨u, hu⟩ := Option.ne_none_iff_exists'.mp (h y (mem_singleton_self y)).1
    have hne : u ≠ .unknown := fun heq => (h y (mem_singleton_self y)).2 (heq ▸ hu)
    rw [substitute, hu, Option.getD_some, unify_param y hne, Bindings.type?_add, params]
    by_cases hx : x = y
    · simp [hx, hu]
    · simp [hx]
  | .primitive _, _, _, _ | .infinite, _, _, _ | .unknown, _, _, _ => by
    simp [substitute, unify, params]
  | .slice t, b, h, x | .array t _, b, h, x | .pointer _ t, b, h, x | .option t, b, h, x
  | .taskHandle t, b, h, x => type?_unify_substitute t b h x
  | .result t u, b, h, x => by
    rw [params] at h
    have ht := fun y hy => h y (mem_append_left _ hy)
    have hu := fun y hy => h y (mem_append_right _ hy)
    -- A parameter of both parts is bound by the first, to the type that the second finds too.
    exact or_or_ite (fun y hy => (ht y hy).1) (type?_unify_substitute t b ht) (type?_unify_substitute u _ hu) x
  | .tuple ts, b, h, x => type?_unifyAll_substituteList ts b h x
  | .struct n ts, b, h, x | .enum n ts, b, h, x => by
    rw [substitute, unify, if_pos rfl]
    exact type?_unifyAll_substituteList ts b h x

lemma type?_unifyAll_substituteList : ∀ (ts : List Ty) (b : Bindings),
    (∀ x ∈ listParams ts, types x ≠ none ∧ types x ≠ some .unknown) →
    ∀ x, (unifyAll ts (substituteList types ts) b).type? x =
      (b.type? x).or (if x ∈ listParams ts then types x else none)
  | [], b, _, x => by simp [unifyAll, listParams]
  | t :: ts, b, h, x => by
    rw [listParams] at h
    have ht := fun y hy => h y (mem_append_left _ hy)
    have hts := fun y hy => h y (mem_append_right _ hy)
    exact or_or_ite (fun y hy => (ht y hy).1) (type?_unify_substitute t b ht) (type?_unifyAll_substituteList ts _ hts) x

end

/-- Unification with an instance binds exactly the parameters that occur, each to its type, and so makes the instance
again. -/
theorem unify_substitute (t : Ty) (h : ∀ x ∈ t.params, ∃ u, types x = some u ∧ u ≠ .unknown) :
    (∀ x, (t.unify (t.substitute types) []).type? x = if x ∈ t.params then types x else none) ∧
      t.substitute (t.unify (t.substitute types) []).type? = t.substitute types := by
  have hfound : ∀ x, (t.unify (t.substitute types) []).type? x = if x ∈ t.params then types x else none := by
    intro x
    rw [type?_unify_substitute t [] ?_ x]
    · rfl
    · intro y hy
      obtain ⟨u, hu, hne⟩ := h y hy
      simp [hu, hne]
  refine ⟨hfound, substitute_congr fun x hx => ?_⟩
  rw [hfound, if_pos hx]

theorem unify_substitute_pair :
    let t : Ty := .tuple [.option (.param "A"), .result (.param "B") (.param "A")]
    let types : String → Option Ty := fun x => if x = "A" then some (.slice .unknown) else some .bool
    (∀ x ∈ t.params, ∃ u, types x = some u ∧ u ≠ .unknown) ∧
      (t.unify (t.substitute types) []).type? "A" = some (.slice .unknown) ∧
      t.substitute (t.unify (t.substitute types) []).type? = t.substitute types := by
  intro t types
  have h : ∀ x ∈ t.params, ∃ u, types x = some u ∧ u ≠ .unknown := by
    intro x _
    by_cases hx : x = "A"
    · exact ⟨_, if_pos hx, by rintro ⟨⟩⟩
    · exact ⟨_, if_neg hx, by rintro ⟨⟩⟩
  have hfound := unify_substitute t h
  exact ⟨h, hfound.1 "A", hfound.2⟩

end Ty

end SourceCheck
