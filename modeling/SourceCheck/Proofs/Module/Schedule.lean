import Mathlib.Order.Bounds.Defs
import SourceCheck.Module.Resolve
import SourceCheck.Proofs.Graph.Waves

/-!
# The schedule of modules

The modules on import cycles, and no others, are left out of the waves. The number of a module's wave is the length of
the longest chain of imports below it.
-/

open Relation (TransGen)

namespace SourceCheck

open List
open ModuleGraph (build)

variable {modules : List ParsedModule} {i j n v w : Nat}

/-- Whether a module has a relative import that leads to another. -/
def Imports (modules : List ParsedModule) (i j : Nat) : Prop :=
  ∃ m, modules[i]? = some m ∧ ∃ r ∈ (m.resolveImports modules).1, r.kind = .relative ∧ r.target = some j

def OnImportCycle (modules : List ParsedModule) (v : Nat) : Prop :=
  TransGen (Imports modules) v v

/-! ### Imports that are in order -/

lemma target_of_mem_resolveImports {importer taken decls r}
    (h : r ∈ (resolveImports modules importer taken decls).1) :
    r.target = importTarget? modules importer r.path r.kind := by
  induction decls generalizing taken with
  | nil => simp [resolveImports] at h
  | cons d rest ih =>
    rw [resolveImports] at h
    split at h
    · exact ih h
    · dsimp only at h
      split at h
      · exact ih h
      · obtain rfl | h := mem_cons.1 h
        · rfl
        · exact ih h

lemma importTarget?_eq_some {importer path kind}
    (h : importTarget? modules importer path kind = some j) : kind = .relative ∧ j < modules.length := by
  cases kind with
  | relative =>
    obtain ⟨name, -, hindex⟩ := Option.bind_eq_some_iff.1 h
    exact ⟨rfl, (List.findIdx?_eq_some_iff_findIdx_eq.1 hindex).1⟩
  | stdlib | remote => cases h

lemma mem_dependencies_resolveImports {m : ParsedModule} :
    j ∈ dependencies modules.length (m.resolveImports modules).1 ↔
      ∃ r ∈ (m.resolveImports modules).1, r.kind = .relative ∧ r.target = some j := by
  simp only [dependencies, mem_filter, mem_range, any_eq_true, decide_eq_true_eq]
  constructor
  · rintro ⟨-, r, hr, hj⟩
    have htarget := (target_of_mem_resolveImports hr).symm.trans hj
    exact ⟨r, hr, (importTarget?_eq_some htarget).1, hj⟩
  · rintro ⟨r, hr, -, hj⟩
    have htarget := (target_of_mem_resolveImports hr).symm.trans hj
    exact ⟨(importTarget?_eq_some htarget).2, r, hr, hj⟩

/-! ### The graph -/

lemma build_imports (modules) :
    (build modules).1.imports = modules.map fun m => (m.resolveImports modules).1 :=
  map_map

lemma build_deps (modules) : (build modules).1.deps =
    modules.map fun m => dependencies modules.length (m.resolveImports modules).1 := by
  simp [build]

lemma length_build_deps (modules) : (build modules).1.deps.length = modules.length := by
  simp [build_deps]

lemma build_deps_edge_iff : (build modules).1.deps.Edge i j ↔ Imports modules i j := by
  rw [Graph.Edge, Graph.next, build_deps, List.getElem?_map, Imports]
  cases modules[i]? with
  | none => simp
  | some m => simp [mem_dependencies_resolveImports]

lemma closed_build_deps (modules) : (build modules).1.deps.Closed := by
  intro v w hedge
  rw [length_build_deps]
  obtain ⟨m, -, r, hr, -, hj⟩ := build_deps_edge_iff.1 hedge
  exact (importTarget?_eq_some ((target_of_mem_resolveImports hr).symm.trans hj)).2

lemma onCycle_build_deps_iff : (build modules).1.deps.OnCycle v ↔ OnImportCycle modules v := by
  have hedge : (build modules).1.deps.Edge = Imports modules :=
    funext fun _ => funext fun _ => propext build_deps_edge_iff
  rw [Graph.OnCycle, hedge, OnImportCycle]

lemma mem_build_cyclic : v ∈ (build modules).1.cyclic ↔ OnImportCycle modules v := by
  have hcyclic : (build modules).1.cyclic = (build modules).1.deps.vertices.filter
      fun v => (build modules).1.deps.cycles.any (·.contains v) := rfl
  rw [hcyclic, mem_filter, Graph.mem_vertices, any_eq_true, ← onCycle_build_deps_iff,
    ← Graph.mem_cycles_iff (closed_build_deps modules)]
  simp only [contains_iff_mem]
  refine and_iff_right_of_imp fun h => ?_
  exact ((Graph.mem_cycles_iff (closed_build_deps modules)).mp h).lt

/-! ### The waves -/

/-- Chains of `n` imports that descend from a module through modules on no cycle. -/
inductive ImportChain (modules : List ParsedModule) : Nat → Nat → Prop where
  | here {v : Nat} :
    v < modules.length →
    ¬ OnImportCycle modules v →
    ImportChain modules 0 v
  | step {n v w : Nat} :
    ¬ OnImportCycle modules v →
    Imports modules v w →
    ImportChain modules n w →
    ImportChain modules (n + 1) v

def scheduled (modules : List ParsedModule) : List Nat :=
  let g := (build modules).1
  g.deps.vertices.filter fun v => !g.cyclic.contains v

lemma build_waves (modules) : (build modules).1.waves =
    (build modules).1.deps.waves (scheduled modules) :=
  rfl

lemma mem_scheduled : v ∈ scheduled modules ↔ v < modules.length ∧ ¬ OnImportCycle modules v := by
  rw [scheduled, mem_filter, Graph.mem_vertices, length_build_deps, ← mem_build_cyclic]
  simp

lemma acyclic_scheduled (modules) : (build modules).1.deps.Acyclic (scheduled modules) :=
  fun _ hv hcycle => (mem_scheduled.1 hv).2 (onCycle_build_deps_iff.1 hcycle)

lemma pairwise_scheduled (modules) : (scheduled modules).Pairwise (· < ·) :=
  pairwise_lt_range.filter _

lemma descends_scheduled_iff :
    (build modules).1.deps.Descends (scheduled modules) n v ↔ ImportChain modules n v := by
  constructor
  · intro h
    induction h with
    | here hv => exact .here (mem_scheduled.1 hv).1 (mem_scheduled.1 hv).2
    | step hv hedge _ ih => exact .step (mem_scheduled.1 hv).2 (build_deps_edge_iff.1 hedge) ih
  · intro h
    induction h with
    | here hlt hv => exact .here (mem_scheduled.2 ⟨hlt, hv⟩)
    | step hv himports _ ih =>
      have hedge := build_deps_edge_iff.2 himports
      have hlt := hedge.source_lt
      rw [length_build_deps] at hlt
      exact .step (mem_scheduled.2 ⟨hlt, hv⟩) hedge ih

lemma mem_build_waves_iff :
    (∃ wave, (build modules).1.waves[n]? = some wave ∧ v ∈ wave) ↔
      IsGreatest { k | ImportChain modules k v } n := by
  rw [build_waves, Graph.mem_waves_iff]
  refine and_congr descends_scheduled_iff ⟨fun hnot k hk => ?_, fun hbound hmore => ?_⟩
  · by_contra hlt
    exact hnot ((descends_scheduled_iff.2 hk).of_le (Nat.lt_of_not_le hlt))
  · exact absurd (hbound (descends_scheduled_iff.1 hmore)) (Nat.not_succ_le_self n)

lemma mem_flatten_build_waves : v ∈ (build modules).1.waves.flatten ↔ v ∈ scheduled modules := by
  rw [build_waves]
  constructor
  · intro h
    obtain ⟨wave, hwave, hv⟩ := mem_flatten.1 h
    exact (Graph.sublist_of_mem_waves hwave).2.subset hv
  · intro hv
    obtain ⟨k, wave, hwave, hmem⟩ := (acyclic_scheduled modules).exists_mem_waves hv
    exact mem_flatten.2 ⟨wave, mem_of_getElem? hwave, hmem⟩

lemma acyclic_iterate_waiting (modules k) :
    let deps := (build modules).1.deps
    deps.Acyclic (deps.waiting^[k] (scheduled modules)) := by
  induction k with
  | zero => exact acyclic_scheduled modules
  | succ k ih =>
    simp only [Function.iterate_succ_apply']
    exact ih.waiting

lemma exists_earlier_wave (hv : IsGreatest { k | ImportChain modules k v } n) (himports : Imports modules v w)
    (hw : ¬ OnImportCycle modules w) :
    ∃ j < n, ∃ wave, (build modules).1.waves[j]? = some wave ∧ w ∈ wave := by
  have hlt := closed_build_deps modules v w (build_deps_edge_iff.2 himports)
  rw [length_build_deps] at hlt
  have hmem := mem_flatten_build_waves.2 (mem_scheduled.2 ⟨hlt, hw⟩)
  obtain ⟨wave, hwave, hwmem⟩ := mem_flatten.1 hmem
  obtain ⟨j, hj⟩ := mem_iff_getElem?.mp hwave
  have hchain : ImportChain modules j w := (mem_build_waves_iff.1 ⟨wave, hj, hwmem⟩).1
  have hv' : ¬ OnImportCycle modules v := by
    cases hv.1 with
    | here _ hv' | step hv' _ _ => exact hv'
  exact ⟨j, hv.2 (ImportChain.step hv' himports hchain), wave, hj, hwmem⟩

/-- The cyclic modules are those on import cycles, and the waves hold each of the others once, in ascending order: as
long as modules remain, some are ready, and the number of a module's wave is the length of the longest chain of
imports below it. What it imports comes in earlier waves. -/
theorem build_schedule_exact (modules : List ParsedModule) :
    let g := (ModuleGraph.build modules).1
    (∀ v, v ∈ g.cyclic ↔ OnImportCycle modules v) ∧
    (∀ v, v ∈ g.waves.flatten ↔ v < modules.length ∧ v ∉ g.cyclic) ∧
    g.waves.flatten.Nodup ∧
    (∀ wave ∈ g.waves, wave ≠ [] ∧ wave.Pairwise (· < ·)) ∧
    (∀ k, g.deps.waiting^[k] (scheduled modules) ≠ [] →
      g.deps.ready (g.deps.waiting^[k] (scheduled modules)) ≠ []) ∧
    (∀ k wave, g.waves[k]? = some wave → ∀ v ∈ wave,
      IsGreatest { n | ImportChain modules n v } k ∧
      ∀ w, Imports modules v w → w ∉ g.cyclic →
        ∃ j < k, ∃ earlier, g.waves[j]? = some earlier ∧ w ∈ earlier) := by
  intro g
  refine ⟨fun v => mem_build_cyclic, fun v => ?_, ?_, fun wave hwave => ?_, fun k => ?_,
    fun k wave hwave v hv => ?_⟩
  · rw [mem_flatten_build_waves, mem_scheduled, mem_build_cyclic]
  · exact Graph.nodup_flatten_waves (pairwise_scheduled modules).nodup
  · obtain ⟨hne, hsub⟩ := Graph.sublist_of_mem_waves hwave
    exact ⟨hne, (pairwise_scheduled modules).sublist hsub⟩
  · exact (acyclic_iterate_waiting modules k).ready_ne_nil
  · have hgreatest := mem_build_waves_iff.mp ⟨wave, hwave, hv⟩
    refine ⟨hgreatest, fun w himports hw => exists_earlier_wave hgreatest himports ?_⟩
    rwa [mem_build_cyclic] at hw

end SourceCheck
