import SourceCheck.Proofs.Graph.Components

/-!
# Cyclic vertices

A component holds a cycle if and only if each of its vertices lies on one.
-/

open Relation (ReflTransGen TransGen)

namespace SourceCheck.Graph

open List

variable {g : Graph} {v : Nat} {c : List Nat}

def OnCycle (g : Graph) (v : Nat) : Prop :=
  TransGen g.Edge v v

lemma OnCycle.lt (h : g.OnCycle v) : v < g.length := by
  obtain ⟨w, hedge, -⟩ := TransGen.head'_iff.1 h
  exact hedge.source_lt

lemma one_lt_length_iff (hnodup : c.Nodup) (hv : v ∈ c) : 1 < c.length ↔ ∃ x ∈ c, x ≠ v := by
  have hlength : (c.erase v).length = c.length - 1 := length_erase_of_mem hv
  rw [show 1 < c.length ↔ 0 < (c.erase v).length by omega, length_pos_iff_exists_mem]
  exact exists_congr fun x => hnodup.mem_erase_iff.trans and_comm

lemma isCycle_iff (hclosed : g.Closed) (hc : c ∈ g.components) (hv : v ∈ c) :
    g.isCycle c = true ↔ g.OnCycle v := by
  have hclasses := (classes_components hclosed).1
  have hmem : ∀ {w}, w ∈ c ↔ g.Leads v w ∧ g.Leads w v := hclasses.mem_iff hc hv
  have hnodup : c.Nodup := (hclasses.pairwise hc).2.imp Nat.ne_of_lt
  rw [isCycle, Bool.or_eq_true, decide_eq_true_eq, any_eq_true]
  constructor
  · rintro (hlong | ⟨x, hx, hloop⟩)
    · obtain ⟨x, hx, hne⟩ := (one_lt_length_iff hnodup hv).mp hlong
      obtain ⟨hto, hback⟩ := hmem.1 hx
      obtain heq | hto := Relation.reflTransGen_iff_eq_or_transGen.1 hto
      · exact absurd heq hne
      · exact hto.trans_left hback
    · obtain ⟨hto, hback⟩ := hmem.1 hx
      exact (TransGen.tail' hto (contains_iff_mem.1 hloop)).trans_left hback
  · intro hcycle
    obtain ⟨x, hedge, hback⟩ := TransGen.head'_iff.1 hcycle
    by_cases hne : x = v
    · subst hne
      exact .inr ⟨x, hv, contains_iff_mem.2 hedge⟩
    · exact .inl ((one_lt_length_iff hnodup hv).mpr ⟨x, hmem.2 ⟨.single hedge, hback⟩, hne⟩)

/-- Each vertex on a cycle lies in one of the components that hold cycles, and no other vertex in any. -/
lemma mem_cycles_iff (hclosed : g.Closed) : (∃ c ∈ g.components.filter g.isCycle, v ∈ c) ↔ g.OnCycle v := by
  constructor
  · rintro ⟨c, hc, hv⟩
    rw [mem_filter] at hc
    exact (isCycle_iff hclosed hc.1 hv).mp hc.2
  · intro h
    obtain ⟨c, hc, hv⟩ := mem_flatten.1 ((classes_components hclosed).2.mem_iff.2 (mem_vertices.2 h.lt))
    exact ⟨c, mem_filter.2 ⟨hc, (isCycle_iff hclosed hc hv).mpr h⟩, hv⟩

end SourceCheck.Graph
