import SourceCheck.Proofs.Analysis.Visible
import SourceCheck.Proofs.Module.Published

/-!
# Orders of analysis

If modules have different names, what is found out about one depends on what it imports alone, not on the order of
analysis.
-/

namespace SourceCheck

open List

variable {modules : List ParsedModule} {options : AnalysisOptions} {l : Library} {waves : List (List Nat)} {i j : Nat}

/-! ### Published libraries -/

def Library.Single (l : Library) : Prop :=
  (l.map (·.module)).Nodup

lemma Library.Single.filter_module (h : l.Single) (name) : l.filter (·.module = name) = (l.module? name).toList := by
  induction l with
  | nil => rfl
  | cons e l ih =>
    obtain ⟨he, hl⟩ := nodup_cons.1 h
    by_cases hname : e.module = name
    · have hrest : l.filter (·.module = name) = [] := by
        refine filter_eq_nil_iff.2 fun e' he' hname' => he ?_
        exact mem_map.2 ⟨e', he', (of_decide_eq_true hname').trans hname.symm⟩
      simp [Library.module?, hname, hrest]
    · rw [filter_cons_of_neg (by simpa using hname), ih hl]
      simp [Library.module?, hname]

lemma Library.Single.add (h : l.Single) (e) : (l.add e).Single := by
  refine nodup_cons.2 ⟨fun hmem => ?_, h.sublist (filter_sublist.map _)⟩
  obtain ⟨e', he', hmodule⟩ := mem_map.1 hmem
  exact of_decide_eq_true (mem_filter.1 he').2 hmodule

lemma Library.Single.publish (h : l.Single) (results) : (l.publish results).Single := by
  induction results generalizing l with
  | nil => exact h
  | cons r results ih => exact ih (h.add r.2.exports)

lemma Library.mem_publish {results e} (h : e ∈ l.publish results) :
    e ∈ l ∨ ∃ r ∈ results, e = r.2.exports := by
  induction results generalizing l with
  | nil => exact .inl h
  | cons r results ih =>
    obtain h | ⟨s, hs, rfl⟩ := ih h
    · obtain rfl | h := mem_cons.1 h
      · exact .inr ⟨r, by simp, rfl⟩
      · exact .inl (mem_filter.1 h).1
    · exact .inr ⟨s, by simp [hs], rfl⟩

section Graph

variable {g : ModuleGraph}

lemma confined_of_analyzeAt (h : ∀ e ∈ l, e.Confined) {r}
    (hr : analyzeAt modules g options l i = some r) : r.2.exports.Confined := by
  rw [analyzeAt] at hr
  split at hr
  · cases hr
  · split at hr
    · cases hr
      exact confined_exports h
    · cases hr

lemma confined_publish (h : ∀ e ∈ l, e.Confined) (wave : List Nat) :
    ∀ e ∈ l.publish (wave.filterMap (analyzeAt modules g options l)), e.Confined := by
  intro e he
  obtain he | ⟨s, hs, rfl⟩ := Library.mem_publish he
  · exact h e he
  · obtain ⟨x, -, hx⟩ := mem_filterMap.1 hs
    exact confined_of_analyzeAt h hx

lemma confined_of_mem_analyzeWaves (h : ∀ e ∈ l, e.Confined) {r}
    (hr : r ∈ analyzeWaves modules g options l waves) : r.2.exports.Confined := by
  induction waves generalizing l with
  | nil => cases hr
  | cons wave waves ih =>
    rw [analyzeWaves, mem_append] at hr
    obtain hr | hr := hr
    · obtain ⟨x, -, hx⟩ := mem_filterMap.1 hr
      exact confined_of_analyzeAt h hx
    · exact ih (confined_publish h wave) hr

lemma single_libraryAfter : (libraryAfter modules g options waves).Single :=
  Library.Single.publish (l := []) nodup_nil _

lemma confined_libraryAfter : ∀ e ∈ libraryAfter modules g options waves, e.Confined := by
  intro e he
  obtain he | ⟨r, hr, rfl⟩ := Library.mem_publish he
  · cases he
  · exact confined_of_mem_analyzeWaves (by simp) hr

end Graph

/-! ### Two schedules -/

lemma analyzeAt_congr {other} (hconfined : ∀ e ∈ l, e.Confined)
    (hsame : ∀ j m, Imports modules i j → modules[j]? = some m →
      other.filter (·.module = m.name) = l.filter (·.module = m.name)) :
    analyzeAt modules (ModuleGraph.build modules).1 options other i =
      analyzeAt modules (ModuleGraph.build modules).1 options l i := by
  rw [analyzeAt, analyzeAt]
  split
  · rfl
  · split
    · dsimp only
      rw [analyzeModule_congr hconfined fun name hname => ?_]
      obtain ⟨b, hb, htarget⟩ := hname
      obtain ⟨r, hr, rfl⟩ := mem_map.1 hb
      obtain ⟨j, hj, hname⟩ := Option.bind_eq_some_iff.1 htarget
      obtain ⟨m, hm, rfl⟩ := Option.map_eq_some_iff.1 hname
      rw [hsame j m (imports_of_mem hr hj).1 hm]
    · rfl

lemma Follows.lookup_eq {others} (hnames : (modules.map (·.name)).Nodup) (h : Follows modules waves)
    (hothers : Follows modules others) (hi : i ∈ waves.flatten) (hi' : i ∈ others.flatten) :
    (analyzeWaves modules (ModuleGraph.build modules).1 options [] others).lookup i =
      (analyzeWaves modules (ModuleGraph.build modules).1 options [] waves).lookup i := by
  obtain ⟨wave', hmem', hiw'⟩ := mem_flatten.1 hi'
  obtain ⟨k', hk'⟩ := mem_iff_getElem?.mp hmem'
  -- By induction on the wave of the second schedule: what a module imports is in an earlier one.
  induction k' using Nat.strongRecOn generalizing i wave' with
  | ind k' ih =>
    obtain ⟨wave, hmem, hiw⟩ := mem_flatten.1 hi
    obtain ⟨k, hk⟩ := mem_iff_getElem?.mp hmem
    rw [lookup_analyzeWaves hothers.nodup hk' hiw', lookup_analyzeWaves h.nodup hk hiw,
      analyzeAt_congr confined_libraryAfter]
    intro j m himports hm
    have hunique : ∀ j' m', modules[j']? = some m' → m'.name = m.name → j' = j :=
      fun j' m' hm' hname => eq_of_name_eq hnames hm' hm hname
    rw [single_libraryAfter.filter_module, single_libraryAfter.filter_module,
      hothers.module?_libraryAfter hk' hiw' himports hm hunique,
      h.module?_libraryAfter hk hiw himports hm hunique]
    by_cases hj : Analyzable modules j
    · have hbefore := h.imported k wave hk i hiw j himports hj
      have hbefore' := hothers.imported k' wave' hk' i hiw' j himports hj
      obtain ⟨earlier, hearlier, hje⟩ := mem_flatten.1 hbefore'
      obtain ⟨k'', hlt, hk''⟩ := mem_take_iff_getElem.1 hearlier
      rw [ih k'' (by omega) ((flatten_take_sublist k waves).subset hbefore)
        ((flatten_take_sublist k' others).subset hbefore') earlier
        (mem_of_mem_take hearlier) hje (hk'' ▸ List.getElem?_eq_getElem _)]
    · rw [lookup_eq_none_of_not_analyzable h.acyclic hj, lookup_eq_none_of_not_analyzable hothers.acyclic hj]

/-! ### One module after the other -/

/-- Analyse modules in order, each against the exports of the earlier ones. -/
def analyzeInOrder (modules : List ParsedModule) (g : ModuleGraph) (options : AnalysisOptions)
    (library : Library) : List Nat → List (Nat × AnalyzedModule)
  | [] => []
  | i :: rest =>
    match analyzeAt modules g options library i with
    | none => analyzeInOrder modules g options library rest
    | some r => r :: analyzeInOrder modules g options (library.add r.2.exports) rest

/-- An order of modules on no cycle, each once and after all that it imports and that can be analysed. Not all need be
there. -/
structure Respects (modules : List ParsedModule) (order : List Nat) : Prop where
  nodup : order.Nodup
  acyclic : ∀ i ∈ order, ¬ OnImportCycle modules i
  imported : ∀ before i after, order = before ++ i :: after → ∀ j, Imports modules i j →
    Analyzable modules j → j ∈ before

lemma analyzeInOrder_eq {g} (l order) :
    analyzeInOrder modules g options l order = analyzeWaves modules g options l (order.map ([·])) := by
  induction order generalizing l with
  | nil => rfl
  | cons i order ih =>
    rw [analyzeInOrder, map_cons, analyzeWaves]
    cases hresult : analyzeAt modules g options l i with
    | none | some r => simp [hresult, ih]

lemma flatten_map_singleton (order : List Nat) : (order.map ([·])).flatten = order := by
  rw [← flatMap_def, flatMap_singleton']

lemma Respects.follows {order} (h : Respects modules order) : Follows modules (order.map ([·])) where
  nodup := (flatten_map_singleton order).symm ▸ h.nodup
  acyclic i hi := h.acyclic i (flatten_map_singleton order ▸ hi)
  imported k wave hwave i hi j himports hj := by
    rw [List.getElem?_map] at hwave
    obtain ⟨x, hx, rfl⟩ := Option.map_eq_some_iff.1 hwave
    obtain rfl := mem_singleton.1 hi
    rw [← map_take, flatten_map_singleton]
    obtain ⟨hlt, rfl⟩ := List.getElem?_eq_some_iff.1 hx
    refine h.imported _ _ (order.drop (k + 1)) ?_ j himports hj
    rw [← drop_eq_getElem_cons hlt, take_append_drop]

lemma perm_of_lookup_eq {results others : List (Nat × AnalyzedModule)} (h : (results.map (·.1)).Nodup)
    (h' : (others.map (·.1)).Nodup) (hlookup : ∀ i, results.lookup i = others.lookup i) : results.Perm others := by
  have hmem : ∀ {l : List (Nat × AnalyzedModule)}, (l.map (·.1)).Nodup → ∀ r, r ∈ l ↔
    l.lookup r.1 = some r.2 := by
    intro l hl r
    have hfilter : r ∈ l ↔ r ∈ l.filter (·.1 = r.1) := by simp
    rw [hfilter, filter_fst_eq_lookup hl]
    simp [Prod.ext_iff]
  refine (perm_ext_iff_of_nodup h.of_map h'.of_map).mpr fun r => ?_
  rw [hmem h, hmem h', hlookup]

lemma map_name_parseModules (sources) : (parseModules sources).map (·.name) = sources.map (·.name) := by
  rw [parseModules, map_map]
  conv_rhs => rw [← zipIdx_map_fst 0 sources, map_map]
  rfl

/-- Modules with different names may be analysed in any waves, or one at a time in any order, that put each after what
it imports: what is found out about a module is always the same. Not all modules need be there, so one that is not
imported has no influence. An order of all modules gives the results of the compilation. -/
theorem analyzed?_eq_of_schedule (sources : List SourceModule) (options : AnalysisOptions)
    (hnames : (sources.map (·.name)).Nodup) :
    let c := compile sources options
    (∀ waves, Follows c.modules waves → ∀ i ∈ waves.flatten,
      (analyzeWaves c.modules c.graph options [] waves).lookup i = c.analyzed? i) ∧
    ∀ order, Respects c.modules order →
      (∀ i ∈ order, (analyzeInOrder c.modules c.graph options [] order).lookup i = c.analyzed? i) ∧
      ((∀ i, Analyzable c.modules i → i ∈ order) →
        (analyzeInOrder c.modules c.graph options [] order).Perm c.analyzed) := by
  intro c
  have hnames' : (c.modules.map (·.name)).Nodup := (map_name_parseModules sources).symm ▸ hnames
  have hbuild : Follows c.modules c.graph.waves := follows_build_waves c.modules
  have hwaves : ∀ waves, Follows c.modules waves → ∀ i ∈ waves.flatten,
      (analyzeWaves c.modules c.graph options [] waves).lookup i = c.analyzed? i := by
    intro waves hfollows i hi
    by_cases hanalyzable : Analyzable c.modules i
    · obtain ⟨hacyclic, m, hm, -⟩ := hanalyzable
      have hscheduled : i ∈ scheduled c.modules :=
        mem_scheduled.mpr ⟨(List.getElem?_eq_some_iff.mp hm).1, hacyclic⟩
      exact hbuild.lookup_eq hnames' hfollows (mem_flatten_build_waves.mpr hscheduled) hi
    · exact (lookup_eq_none_of_not_analyzable hfollows.acyclic hanalyzable).trans
        (lookup_eq_none_of_not_analyzable hbuild.acyclic hanalyzable).symm
  refine ⟨hwaves, fun order horder => ?_⟩
  have hfollows := horder.follows
  have horder' : ∀ i ∈ order,
      (analyzeInOrder c.modules c.graph options [] order).lookup i = c.analyzed? i := by
    intro i hi
    rw [analyzeInOrder_eq]
    exact hwaves _ hfollows i ((flatten_map_singleton order).symm ▸ hi)
  refine ⟨horder', fun hall => perm_of_lookup_eq ?_ (nodup_map_fst_analyzeWaves hbuild.nodup) fun i => ?_⟩
  · rw [analyzeInOrder_eq]
    exact nodup_map_fst_analyzeWaves hfollows.nodup
  · by_cases hi : i ∈ order
    · exact horder' i hi
    · have hanalyzable : ¬ Analyzable c.modules i := fun h => hi (hall i h)
      rw [analyzeInOrder_eq, lookup_eq_none_of_not_analyzable hfollows.acyclic hanalyzable]
      exact (lookup_eq_none_of_not_analyzable hbuild.acyclic hanalyzable).symm

def besideImporterOfA : List SourceModule :=
  { name := "b", source := "package b;" } :: importerOfA [exportsX]

/-- Of three modules, two in one wave may change places, and one that nothing imports may be left out. -/
theorem analyzed?_eq_of_schedule_besideImporterOfA :
    let c := compile besideImporterOfA {}
    c.graph.waves = [[0, 1], [2]] ∧ Respects c.modules [1, 0, 2] ∧
      (analyzeInOrder c.modules c.graph {} [] [1, 0, 2]).Perm c.analyzed ∧
      Follows c.modules [[1], [2]] ∧
      (analyzeWaves c.modules c.graph {} [] [[1], [2]]).lookup 2 = c.analyzed? 2 := by
  intro c
  have hfacts : c.graph.deps = [[], [], [1]] ∧ c.modules.length = 3 := by decide +kernel
  obtain ⟨hdeps, hlength⟩ := hfacts
  have hwaves : c.graph.waves = [[0, 1], [2]] :=
    (build_waves_of_cycles_eq_nil hdeps (by cbv)).trans (by decide +kernel)
  have hacyclic : ∀ i < 3, ¬ OnImportCycle c.modules i := by
    have h := (follows_build_waves c.modules).acyclic
    change ∀ i ∈ c.graph.waves.flatten, _ at h
    rw [hwaves] at h
    intro i hi
    exact h i (by simp; omega)
  have himports : ∀ i j, Imports c.modules i j → i = 2 ∧ j = 1 := by
    intro i j h
    have hedge : c.graph.deps.Edge i j := build_deps_edge_iff.mpr h
    rw [hdeps] at hedge
    have hlt : i < 3 := hedge.source_lt
    obtain rfl | rfl | rfl : i = 0 ∨ i = 1 ∨ i = 2 := by omega
    · cases hedge
    · cases hedge
    · exact ⟨rfl, List.mem_singleton.mp hedge⟩
  have hrespects : Respects c.modules [1, 0, 2] := by
    refine ⟨by decide, fun i hi => hacyclic i (by simp at hi; omega), ?_⟩
    intro before i after hsplit j hij _
    obtain ⟨rfl, rfl⟩ := himports i j hij
    cases before with
    | nil => cases hsplit
    | cons x before =>
      obtain rfl := (List.cons.inj hsplit).1
      exact List.mem_cons_self
  have hfollows : Follows c.modules [[1], [2]] := by
    refine ⟨by decide, fun i hi => hacyclic i (by simp at hi; omega), ?_⟩
    intro k wave hwave i hi j hij _
    obtain ⟨rfl, rfl⟩ := himports i j hij
    cases k with
    | zero =>
      cases hwave
      simp at hi
    | succ k =>
      cases k with
      | zero => exact List.mem_cons_self
      | succ k => cases hwave
  obtain ⟨hany, horder⟩ := analyzed?_eq_of_schedule besideImporterOfA {} (by decide)
  refine ⟨hwaves, hrespects, (horder _ hrespects).2 fun i hi => ?_, hfollows, hany _ hfollows 2 (by simp)⟩
  obtain ⟨-, m, hm, -⟩ := hi
  have hlt : i < c.modules.length := (List.getElem?_eq_some_iff.mp hm).1
  simp only [List.mem_cons]
  omega

end SourceCheck
