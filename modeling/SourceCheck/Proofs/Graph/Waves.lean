import Mathlib.Data.Set.Finite.Basic
import Mathlib.Order.WellFounded
import SourceCheck.Proofs.Graph.Cyclic

/-!
# Waves and chains

A vertex stands in the wave whose number is the length of the longest chain that descends from it among the remaining
vertices, or in none if chains of every length descend.
-/

open Relation (TransGen)

namespace SourceCheck.Graph

open List

/-- Chains of `n` edges that descend from a vertex among given vertices. -/
inductive Descends (g : Graph) (remaining : List Nat) : Nat → Nat → Prop where
  | here {v} :
    v ∈ remaining →
    Descends g remaining 0 v
  | step {n v w} :
    v ∈ remaining →
    g.Edge v w →
    Descends g remaining n w →
    Descends g remaining (n + 1) v

variable {g : Graph} {remaining : List Nat} {v k n : Nat}

lemma Descends.mem (h : Descends g remaining n v) : v ∈ remaining := by
  cases h with
  | here hv | step hv _ _ => exact hv

lemma Descends.of_succ (h : Descends g remaining (n + 1) v) : Descends g remaining n v := by
  induction n generalizing v with
  | zero => exact .here h.mem
  | succ n ih =>
    cases h with
    | step hv hedge h => exact .step hv hedge (ih h)

lemma Descends.of_le (h : Descends g remaining n v) (hle : k ≤ n) : Descends g remaining k v := by
  induction hle with
  | refl => exact h
  | step _ ih => exact ih h.of_succ

/-! ### One wave -/

lemma mem_ready : v ∈ g.ready remaining ↔ v ∈ remaining ∧ ∀ w ∈ remaining, ¬ g.Edge v w := by
  rw [ready, mem_filter, isReady, all_eq_true]
  refine and_congr_right fun _ => ?_
  simp only [Bool.not_eq_true', contains_eq_mem, decide_eq_false_iff_not]
  exact ⟨fun h w hw hedge => h w hedge hw, fun h w hedge hw => h w hw hedge⟩

lemma mem_waiting : v ∈ g.waiting remaining ↔ v ∈ remaining ∧ v ∉ g.ready remaining := by
  rw [waiting, ready, mem_filter, mem_filter, Bool.not_eq_true']
  refine and_congr_right fun hv => ?_
  simp [hv]

lemma descends_one : Descends g remaining 1 v ↔ v ∈ g.waiting remaining := by
  rw [mem_waiting, mem_ready]
  constructor
  · rintro (_ | ⟨hv, hedge, h⟩)
    exact ⟨hv, fun hready => hready.2 _ h.mem hedge⟩
  · rintro ⟨hv, hready⟩
    have hready : ¬ ∀ w ∈ remaining, ¬ g.Edge v w := fun h => hready ⟨hv, h⟩
    push Not at hready
    obtain ⟨w, hw, hedge⟩ := hready
    exact .step hv hedge (.here hw)

lemma descends_waiting : Descends g (g.waiting remaining) n v ↔ Descends g remaining (n + 1) v := by
  induction n generalizing v with
  | zero =>
    rw [descends_one]
    exact ⟨Descends.mem, .here⟩
  | succ n ih =>
    constructor
    · rintro (_ | ⟨hv, hedge, h⟩)
      exact .step (mem_waiting.1 hv).1 hedge (ih.1 h)
    · rintro (_ | ⟨hv, hedge, h⟩)
      have hone : Descends g remaining 1 v := .step hv hedge (.here h.mem)
      exact .step (descends_one.1 hone) hedge (ih.2 h)

/-! ### All waves -/

lemma descends_of_ready_eq_nil (h : g.ready remaining = []) (hv : v ∈ remaining) : Descends g remaining n v := by
  have hall : g.waiting remaining = remaining := by
    refine filter_eq_self.2 fun x hx => ?_
    have hnot : x ∉ g.ready remaining := by simp [h]
    simpa [ready, hx] using hnot
  induction n with
  | zero => exact .here hv
  | succ n ih =>
    rw [← descends_waiting, hall]
    exact ih

lemma mem_waves_iff : (∃ wave, (g.waves remaining)[k]? = some wave ∧ v ∈ wave) ↔
    Descends g remaining k v ∧ ¬ Descends g remaining (k + 1) v := by
  fun_induction waves g remaining generalizing k with
  | case1 remaining hready =>
    refine iff_of_false (by simp) fun ⟨h, hnot⟩ => hnot (descends_of_ready_eq_nil hready h.mem)
  | case2 remaining hready ih =>
    cases k with
    | zero =>
      have hzero : Descends g remaining 0 v ↔ v ∈ remaining := ⟨Descends.mem, .here⟩
      rw [List.getElem?_cons_zero, hzero, descends_one, mem_waiting]
      simp only [Option.some.injEq, exists_eq_left']
      constructor
      · exact fun h => ⟨(mem_ready.1 h).1, fun hnot => hnot.2 h⟩
      · exact fun ⟨hv, hnot⟩ => by_contra fun h => hnot ⟨hv, h⟩
    | succ k =>
      rw [List.getElem?_cons_succ, ih, descends_waiting, descends_waiting]

lemma sublist_of_mem_waves {wave} (h : wave ∈ g.waves remaining) : wave ≠ [] ∧ wave.Sublist remaining := by
  fun_induction waves g remaining with
  | case1 => simp at h
  | case2 remaining hready ih =>
    obtain rfl | h := mem_cons.1 h
    · exact ⟨hready, filter_sublist⟩
    · obtain ⟨hne, hsub⟩ := ih h
      exact ⟨hne, hsub.trans filter_sublist⟩

lemma nodup_flatten_waves (hnodup : remaining.Nodup) : (g.waves remaining).flatten.Nodup := by
  fun_induction waves g remaining with
  | case1 => exact nodup_nil
  | case2 remaining hready ih =>
    rw [flatten_cons, nodup_append]
    refine ⟨hnodup.filter _, ih (hnodup.filter _), ?_⟩
    rintro x hx y hy rfl
    obtain ⟨wave, hwave, hmem⟩ := mem_flatten.1 hy
    exact (mem_waiting.1 ((sublist_of_mem_waves hwave).2.subset hmem)).2 hx

/-! ### Without cycles -/

def Acyclic (g : Graph) (remaining : List Nat) : Prop :=
  ∀ v ∈ remaining, ¬ g.OnCycle v

section

variable (h : g.Acyclic remaining)

include h

lemma Acyclic.waiting : g.Acyclic (g.waiting remaining) :=
  fun v hv => h v (mem_waiting.1 hv).1

lemma Acyclic.wellFounded : WellFounded fun v w : { v // v ∈ remaining } => g.Edge w v := by
  have hfinite : Finite { v // v ∈ remaining } := remaining.finite_toSet.to_subtype
  let below (v w : { v // v ∈ remaining }) : Prop := TransGen g.Edge w v
  have hirrefl : Std.Irrefl below := ⟨fun v => h v v.2⟩
  have htrans : IsTrans _ below := ⟨fun _ _ _ hab hbc => hbc.trans hab⟩
  exact Subrelation.wf (fun hedge => TransGen.single hedge) (Finite.wellFounded_of_trans_of_irrefl below)

lemma Acyclic.exists_not_descends (hv : v ∈ remaining) : ∃ n, ¬ Descends g remaining n v := by
  obtain ⟨v, rfl⟩ : ∃ x : { v // v ∈ remaining }, x = v := ⟨⟨v, hv⟩, rfl⟩
  induction v using h.wellFounded.induction with
  | _ v ih =>
    -- One bound for the chains from all that `v` leads to.
    have hbound : ∀ l ⊆ remaining, ∃ n, ∀ w ∈ l, g.Edge v w → ¬ Descends g remaining n w := by
      intro l hl
      induction l with
      | nil => exact ⟨0, by simp⟩
      | cons w l ihl =>
        obtain ⟨hw, hl⟩ := cons_subset.1 hl
        obtain ⟨n, hn⟩ := ihl hl
        by_cases hedge : g.Edge v w
        · obtain ⟨m, hm⟩ := ih ⟨w, hw⟩ hedge hw
          refine ⟨max n m, fun x hx hedge' hdesc => ?_⟩
          obtain rfl | hx := mem_cons.1 hx
          · exact hm (hdesc.of_le (Nat.le_max_right n m))
          · exact hn x hx hedge' (hdesc.of_le (Nat.le_max_left n m))
        · refine ⟨n, fun x hx hedge' => ?_⟩
          obtain rfl | hx := mem_cons.1 hx
          · exact absurd hedge' hedge
          · exact hn x hx hedge'
    obtain ⟨n, hn⟩ := hbound remaining (List.Subset.refl _)
    refine ⟨n + 1, fun hdesc => ?_⟩
    cases hdesc with
    | step _ hedge hdesc => exact hn _ hdesc.mem hedge hdesc

lemma Acyclic.ready_ne_nil (hne : remaining ≠ []) : g.ready remaining ≠ [] := by
  obtain ⟨v, hv⟩ := exists_mem_of_ne_nil _ hne
  obtain ⟨n, hn⟩ := h.exists_not_descends hv
  exact fun hready => hn (descends_of_ready_eq_nil hready hv)

lemma Acyclic.exists_mem_waves (hv : v ∈ remaining) :
    ∃ (k : Nat) (wave : List Nat), (g.waves remaining)[k]? = some wave ∧ v ∈ wave := by
  obtain ⟨n, hn⟩ := h.exists_not_descends hv
  induction n with
  | zero => exact absurd (.here hv) hn
  | succ n ih =>
    by_cases hdesc : Descends g remaining n v
    · exact ⟨n, mem_waves_iff.2 ⟨hdesc, hn⟩⟩
    · exact ih hdesc

end

end SourceCheck.Graph
