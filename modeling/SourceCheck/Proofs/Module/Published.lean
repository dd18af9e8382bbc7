import SourceCheck.Module.Compilation
import SourceCheck.Proofs.Module.Schedule

/-!
# What importers see

Modules are told apart by numbers, but exports are published under names. An import sees what was published last under
the name of the module that it leads to.
-/

namespace SourceCheck

open List Library
open ModuleGraph (build)

variable {wave : List Nat}

variable {modules : List ParsedModule} {g : ModuleGraph} {options : AnalysisOptions}
  {l : Library} {waves : List (List Nat)} {i j k : Nat} {name : String}

/-! ### Publishing -/

def Library.publish (l : Library) (results : List (Nat × AnalyzedModule)) : Library :=
  results.foldl (fun l r => l.add r.2.exports) l

def libraryAfter (modules : List ParsedModule) (g : ModuleGraph) (options : AnalysisOptions)
    (waves : List (List Nat)) : Library :=
  Library.publish [] (analyzeWaves modules g options [] waves)

lemma forall₂_filterMap {α β γ : Type} {R : β → γ → Prop} {f f'}
    (h : ∀ a, Option.Rel R (f a) (f' a)) (xs : List α) : List.Forall₂ R (xs.filterMap f) (xs.filterMap f') := by
  induction xs with
  | nil => exact .nil
  | cons x xs ih =>
    have hx := h x
    rw [filterMap_cons, filterMap_cons]
    revert hx
    generalize f x = result
    generalize f' x = result'
    rintro (hr | _)
    · exact .cons hr ih
    · exact ih

lemma Library.module?_add (l : Library) (e : ModuleExports) (name) :
    (l.add e).module? name = if e.module = name then some e else l.module? name := by
  rw [module?, add, List.find?_cons]
  by_cases h : e.module = name
  · simp [h]
  · simp only [h, decide_false, if_false, module?, List.find?_filter]
    congr 1
    funext x
    by_cases hx : x.module = name
    · simp [hx, Ne.symm h]
    · simp [hx]

lemma Library.module?_publish (l : Library) (results : List (Nat × AnalyzedModule)) (name) :
    (l.publish results).module? name =
      ((results.filter (·.2.exports.module = name)).getLast?.map (·.2.exports)).or (l.module? name) := by
  induction results generalizing l with
  | nil => rfl
  | cons r results ih =>
    rw [publish, foldl_cons, ← publish, ih, module?_add]
    by_cases h : r.2.exports.module = name
    · rw [if_pos h, filter_cons_of_pos (by simpa using h), List.getLast?_cons]
      cases (results.filter (·.2.exports.module = name)).getLast? with
      | none | some s => rfl
    · rw [if_neg h, filter_cons_of_neg (by simpa using h)]

lemma Library.publish_append (l : Library) (results more) :
    l.publish (results ++ more) = (l.publish results).publish more :=
  foldl_append

lemma analyzeWaves_append (l : Library) (waves rest) :
    analyzeWaves modules g options l (waves ++ rest) = analyzeWaves modules g options l waves ++
      analyzeWaves modules g options (l.publish (analyzeWaves modules g options l waves)) rest := by
  induction waves generalizing l with
  | nil => rfl
  | cons wave waves ih =>
    rw [cons_append, analyzeWaves, analyzeWaves, ih, append_assoc, publish_append]
    rfl

/-! ### Results by number -/

lemma analyzeAt_eq_some {r} (h : analyzeAt modules g options l i = some r) :
    r.1 = i ∧ ∃ m, modules[i]? = some m ∧ m.isReadable ∧ r.2.exports.module = m.name := by
  rw [analyzeAt] at h
  split at h
  · cases h
  · rename_i m hm
    split at h
    · rename_i hreadable
      cases h
      exact ⟨rfl, m, hm, hreadable, rfl⟩
    · cases h

/-- All problems are counted, however few are told. -/
lemma errorCount_analyzeModule (program name imports) :
    (analyzeModule program name imports l options).errorCount =
      (findingsOf program name imports l options).problems.length := by
  have hall : ∀ d ∈ (analyzeModule program name imports l options).diagnostics, d.isError := by
    intro d hd
    obtain ⟨r, -, rfl⟩ := mem_map.1 (mem_of_mem_take hd)
    rfl
  rw [AnalyzedModule.errorCount, filter_eq_self.2 hall]
  simp only [analyzeModule, length_take, length_map, length_reverse]
  omega

lemma exists_of_mem_analyzeWaves {r} (h : r ∈ analyzeWaves modules g options l waves) :
    r.1 ∈ waves.flatten ∧ ∃ m, modules[r.1]? = some m ∧ m.isReadable ∧ r.2.exports.module = m.name := by
  induction waves generalizing l with
  | nil => cases h
  | cons wave waves ih =>
    rw [analyzeWaves, mem_append] at h
    rw [flatten_cons, mem_append]
    obtain h | h := h
    · obtain ⟨i, hi, hr⟩ := mem_filterMap.1 h
      obtain ⟨rfl, hm⟩ := analyzeAt_eq_some hr
      exact ⟨.inl hi, hm⟩
    · obtain ⟨hi, hm⟩ := ih h
      exact ⟨.inr hi, hm⟩

lemma lookup_analyzeWaves_eq_none (h : i ∉ waves.flatten) :
    (analyzeWaves modules g options l waves).lookup i = none := by
  refine lookup_eq_none_iff.2 fun r hr => ?_
  have hi := (exists_of_mem_analyzeWaves hr).1
  exact bne_iff_ne.2 fun e => h (e ▸ hi)

lemma lookup_filterMap_analyzeAt (hi : i ∈ wave) : (wave.filterMap (analyzeAt modules g options l)).lookup i =
      (analyzeAt modules g options l i).map (·.2) := by
  cases hresult : analyzeAt modules g options l i with
  | none =>
    refine lookup_eq_none_iff.2 fun r hr => bne_iff_ne.2 fun e => ?_
    obtain ⟨x, -, hx⟩ := mem_filterMap.1 hr
    have hxi : x = i := (analyzeAt_eq_some hx).1.symm.trans e.symm
    rw [hxi, hresult] at hx
    cases hx
  | some r =>
    obtain ⟨hr, -⟩ := analyzeAt_eq_some hresult
    induction wave with
    | nil => cases hi
    | cons x wave ih =>
      by_cases hx : x = i
      · rw [filterMap_cons_some (hx ▸ hresult), lookup_cons, hr, BEq.rfl]
        rfl
      · have hi := (mem_cons.1 hi).resolve_left (Ne.symm hx)
        cases hother : analyzeAt modules g options l x with
        | none =>
          rw [filterMap_cons_none hother]
          exact ih hi
        | some s =>
          have hkey : (i == s.1) = false := by
            rw [(analyzeAt_eq_some hother).1]
            exact beq_false_of_ne (Ne.symm hx)
          rw [filterMap_cons_some hother, lookup_cons, hkey]
          exact ih hi

lemma waves_eq_take_append (h : waves[k]? = some wave) : waves = waves.take k ++ wave :: waves.drop (k + 1) := by
  obtain ⟨hlt, rfl⟩ := List.getElem?_eq_some_iff.1 h
  rw [← drop_eq_getElem_cons hlt, take_append_drop]

lemma lookup_analyzeWaves (hnodup : waves.flatten.Nodup) (hwave : waves[k]? = some wave)
    (hi : i ∈ wave) : (analyzeWaves modules g options [] waves).lookup i =
      (analyzeAt modules g options (libraryAfter modules g options (waves.take k)) i).map (·.2) := by
  have hsplit := waves_eq_take_append hwave
  rw [hsplit, flatten_append, flatten_cons] at hnodup
  obtain ⟨-, hnodup, hdisjoint⟩ := nodup_append'.mp hnodup
  have hbefore : i ∉ (waves.take k).flatten :=
    fun h => hdisjoint h (mem_append_left _ hi)
  have hafter : i ∉ (waves.drop (k + 1)).flatten :=
    (nodup_append'.mp hnodup).2.2 hi
  conv_lhs => rw [hsplit]
  rw [analyzeWaves_append, lookup_append, lookup_analyzeWaves_eq_none hbefore, Option.none_or,
    analyzeWaves, lookup_append, lookup_filterMap_analyzeAt hi, lookup_analyzeWaves_eq_none hafter,
    Option.or_none]
  rfl

lemma map_fst_filterMap_analyzeAt_sublist (wave : List Nat) :
    ((wave.filterMap (analyzeAt modules g options l)).map (·.1)).Sublist wave := by
  induction wave with
  | nil => exact .slnil
  | cons x wave ih =>
    cases hx : analyzeAt modules g options l x with
    | none =>
      rw [filterMap_cons_none hx]
      exact ih.cons x
    | some r =>
      rw [filterMap_cons_some hx, map_cons, (analyzeAt_eq_some hx).1]
      exact ih.cons_cons x

lemma nodup_map_fst_analyzeWaves (hnodup : waves.flatten.Nodup) :
    ((analyzeWaves modules g options l waves).map (·.1)).Nodup := by
  refine hnodup.sublist ?_
  clear hnodup
  induction waves generalizing l with
  | nil => exact .slnil
  | cons wave waves ih =>
    rw [analyzeWaves, map_append, flatten_cons]
    exact (map_fst_filterMap_analyzeAt_sublist wave).append ih

lemma filter_fst_eq_lookup {results : List (Nat × AnalyzedModule)} (hnodup : (results.map (·.1)).Nodup) :
    results.filter (·.1 = j) = ((results.lookup j).map ((j, ·))).toList := by
  induction results with
  | nil => rfl
  | cons r results ih =>
    obtain ⟨hr, hnodup⟩ := nodup_cons.1 hnodup
    by_cases h : r.1 = j
    · have hrest : results.filter (·.1 = j) = [] := by
        refine filter_eq_nil_iff.2 fun s hs hsj => hr ?_
        have hkey : s.1 = r.1 := (of_decide_eq_true hsj).trans h.symm
        exact mem_map.2 ⟨s, hs, hkey⟩
      rw [filter_cons_of_pos (by simpa using h), hrest, lookup_cons, h, BEq.rfl]
      simp [← h]
    · have hkey : (j == r.1) = false := beq_false_of_ne (Ne.symm h)
      rw [filter_cons_of_neg (by simpa using h), lookup_cons, hkey]
      exact ih hnodup

/-! ### Schedules -/

def Analyzable (modules : List ParsedModule) (i : Nat) : Prop :=
  ¬ OnImportCycle modules i ∧ ∃ m, modules[i]? = some m ∧ m.isReadable

/-- Waves of modules on no cycle, each once and after all that it imports and that can be analysed. -/
structure Follows (modules : List ParsedModule) (waves : List (List Nat)) : Prop where
  nodup : waves.flatten.Nodup
  acyclic : ∀ i ∈ waves.flatten, ¬ OnImportCycle modules i
  imported : ∀ k wave, waves[k]? = some wave → ∀ i ∈ wave, ∀ j, Imports modules i j →
    Analyzable modules j → j ∈ (waves.take k).flatten

lemma follows_build_waves (modules) : Follows modules (build modules).1.waves where
  nodup := Graph.nodup_flatten_waves (pairwise_scheduled modules).nodup
  acyclic i hi := (mem_scheduled.1 (mem_flatten_build_waves.1 hi)).2
  imported k wave hwave i hi j himports hj := by
    have hgreatest := mem_build_waves_iff.1 ⟨wave, hwave, hi⟩
    obtain ⟨k', hlt, earlier, hearlier, hmem⟩ := exists_earlier_wave hgreatest himports hj.1
    refine mem_flatten.2 ⟨earlier, ?_, hmem⟩
    refine mem_of_getElem? (i := k') ?_
    rw [List.getElem?_take_of_lt hlt, hearlier]

lemma flatten_take_sublist (k) (waves : List (List Nat)) : (waves.take k).flatten.Sublist waves.flatten := by
  conv_rhs => rw [← take_append_drop k waves, flatten_append]
  exact sublist_append_left _ _

lemma lookup_eq_none_of_not_analyzable (hacyclic : ∀ i ∈ waves.flatten, ¬ OnImportCycle modules i)
    (hj : ¬ Analyzable modules j) : (analyzeWaves modules g options l waves).lookup j = none := by
  refine lookup_eq_none_iff.2 fun r hr => bne_iff_ne.2 fun e => hj ?_
  obtain ⟨hmem, m, hm, hreadable, -⟩ := exists_of_mem_analyzeWaves hr
  exact e ▸ ⟨hacyclic r.1 hmem, m, hm, hreadable⟩

lemma Follows.lookup_take (h : Follows modules waves) (hwave : waves[k]? = some wave)
    (hi : i ∈ wave) (himports : Imports modules i j) : (analyzeWaves modules g options [] (waves.take k)).lookup j =
      (analyzeWaves modules g options [] waves).lookup j := by
  by_cases hj : Analyzable modules j
  · have hmem := h.imported k wave hwave i hi j himports hj
    have hnodup := h.nodup
    rw [← take_append_drop k waves, flatten_append] at hnodup
    have hrest : j ∉ (waves.drop k).flatten := (nodup_append'.mp hnodup).2.2 hmem
    conv_rhs => rw [← take_append_drop k waves]
    rw [analyzeWaves_append, lookup_append, lookup_analyzeWaves_eq_none hrest, Option.or_none]
  · have hacyclic : ∀ i ∈ (waves.take k).flatten, ¬ OnImportCycle modules i :=
      fun i hmem => h.acyclic i ((flatten_take_sublist k waves).subset hmem)
    rw [lookup_eq_none_of_not_analyzable hacyclic hj, lookup_eq_none_of_not_analyzable h.acyclic hj]

lemma Follows.module?_libraryAfter (h : Follows modules waves)
    (hwave : waves[k]? = some wave) (hi : i ∈ wave) (himports : Imports modules i j) {m : ParsedModule}
    (hm : modules[j]? = some m) (hunique : ∀ j' m', modules[j']? = some m' → m'.name = m.name → j' = j) :
    (libraryAfter modules g options (waves.take k)).module? m.name =
      ((analyzeWaves modules g options [] waves).lookup j).map (·.exports) := by
  have hnodup : ((waves.take k).flatten).Nodup := h.nodup.sublist (flatten_take_sublist k waves)
  have hsame : (analyzeWaves modules g options [] (waves.take k)).filter (·.2.exports.module = m.name) =
      (analyzeWaves modules g options [] (waves.take k)).filter (·.1 = j) := by
    refine filter_congr fun r hr => ?_
    obtain ⟨-, m', hm', -, hname⟩ := exists_of_mem_analyzeWaves hr
    rw [hname, decide_eq_decide]
    refine ⟨hunique _ _ hm', fun e => ?_⟩
    rw [e, hm] at hm'
    exact (Option.some.inj hm') ▸ rfl
  rw [libraryAfter, module?_publish, hsame,
    filter_fst_eq_lookup (nodup_map_fst_analyzeWaves hnodup), h.lookup_take hwave hi himports]
  cases (analyzeWaves modules g options [] waves).lookup j with
  | none | some a => rfl

/-! ### Imports -/

lemma moduleIndex?_of_importTarget? {importer path kind} (h : importTarget? modules importer path kind = some j) :
    ∃ m, modules[j]? = some m ∧ moduleIndex? modules m.name = some j := by
  obtain ⟨rfl, -⟩ := importTarget?_eq_some h
  obtain ⟨name, -, hindex⟩ := Option.bind_eq_some_iff.1 h
  obtain ⟨hlt, hname, -⟩ := List.findIdx?_eq_some_iff_getElem.1 hindex
  refine ⟨modules[j], List.getElem?_eq_getElem hlt, ?_⟩
  rw [of_decide_eq_true hname]
  exact hindex

lemma imports_of_mem {r} (hr : r ∈ (build modules).1.imports[i]?.getD []) (hj : r.target = some j) :
    Imports modules i j ∧ ∃ m, modules[j]? = some m ∧ moduleIndex? modules m.name = some j := by
  have himports : (build modules).1.imports =
      modules.map fun m => (m.resolveImports modules).1 := by simp [build]
  rw [himports, List.getElem?_map] at hr
  cases hm : modules[i]? with
  | none => simp [hm] at hr
  | some m =>
    rw [hm] at hr
    have htarget := (target_of_mem_resolveImports hr).symm.trans hj
    exact ⟨⟨m, hm, r, hr, (importTarget?_eq_some htarget).1, hj⟩, moduleIndex?_of_importTarget? htarget⟩

/-- A module is analysed against what earlier waves published. An import leads to the first module of some name and is
bound to that name; it sees what was published last under the name. These are the exports of the module that it
leads to, or nothing if it was not analysed, provided that no other module has its name. -/
theorem import_sees_last_of_name (sources : List SourceModule) (options : AnalysisOptions) :
    let c := compile sources options
    ∀ k wave, c.graph.waves[k]? = some wave → ∀ i ∈ wave,
      let before := analyzeWaves c.modules c.graph options [] (c.graph.waves.take k)
      let library := libraryAfter c.modules c.graph options (c.graph.waves.take k)
      let imports := c.graph.imports[i]?.getD []
      c.analyzed? i = (analyzeAt c.modules c.graph options library i).map (·.2) ∧
      ∀ r ∈ imports, ∀ j, r.target = some j → ∃ m, c.modules[j]? = some m ∧
        moduleIndex? c.modules m.name = some j ∧
        { binding := r.binding, path := r.path, target := some m.name, span := r.span } ∈
          importBindings c.modules imports ∧
        library.module? m.name = (before.filter (·.2.exports.module = m.name)).getLast?.map (·.2.exports) ∧
        ((∀ j' m', c.modules[j']? = some m' → m'.name = m.name → j' = j) →
          library.module? m.name = (c.analyzed? j).map (·.exports)) := by
  intro c k wave hwave i hi before library imports
  have hfollows : Follows c.modules c.graph.waves := follows_build_waves c.modules
  refine ⟨lookup_analyzeWaves hfollows.nodup hwave hi, fun r hr j hj => ?_⟩
  obtain ⟨himports, m, hm, hfirst⟩ := imports_of_mem hr hj
  refine ⟨m, hm, hfirst, ?_, ?_, hfollows.module?_libraryAfter hwave hi himports hm⟩
  · exact List.mem_map.mpr ⟨r, hr, by simpa [hj] using ⟨m, hm, rfl⟩⟩
  · exact (Library.module?_publish [] before m.name).trans (Option.or_none)

lemma eq_of_name_eq (hnodup : (modules.map (·.name)).Nodup) {m m'}
    (hm : modules[i]? = some m) (hm' : modules[j]? = some m') (hname : m.name = m'.name) : i = j := by
  have hi : (modules.map (·.name))[i]? = some m.name := by rw [List.getElem?_map, hm]; rfl
  have hj : (modules.map (·.name))[j]? = some m.name := by rw [List.getElem?_map, hm', hname]; rfl
  obtain ⟨hlti, hi⟩ := List.getElem?_eq_some_iff.1 hi
  obtain ⟨hltj, hj⟩ := List.getElem?_eq_some_iff.1 hj
  exact hnodup.getElem_inj_iff.1 (hi.trans hj.symm)

lemma build_waves_of_cycles_eq_nil {deps} (hdeps : (build modules).1.deps = deps)
    (h : deps.cycles = []) : (build modules).1.waves = deps.waves deps.vertices := by
  subst hdeps
  have hcyclic : (build modules).1.cyclic = [] := by
    refine (filter_eq_nil_iff (p := fun v =>
      (build modules).1.deps.cycles.any (·.contains v))).mpr fun v _ => ?_
    simp [h]
  have hall : scheduled modules = (build modules).1.deps.vertices :=
    filter_eq_self.2 fun v _ => by simp [hcyclic]
  rw [build_waves, hall]

/-- Modules `a` of the given texts, and one that imports `a`. -/
def importerOfA (texts : List String) : List SourceModule :=
  (texts.map fun source => { name := "a", source }) ++ [{ name := "m", source := "package m;import \"./a\";" }]

def exportsX : String := "package a;pub const X: i32 = 1;"

def exportsY : String := "package a;pub const Y: i32 = 1;"

/-- The only module of its name is the one that its importer sees. -/
theorem import_sees_last_of_name_X :
    let c := compile (importerOfA [exportsX]) {}
    c.graph.waves = [[0], [1]] ∧ (c.graph.imports[1]?.getD []).map (·.target) = [some 0] ∧
      (libraryAfter c.modules c.graph {} [[0]]).module? "a" = (c.analyzed? 0).map (·.exports) := by
  intro c
  have hfacts : c.graph.deps = [[], [0]] ∧ (c.graph.imports[1]?.getD []).map (·.target) = [some 0] ∧
      c.modules.map (·.name) = ["a", "m"] := by decide +kernel
  obtain ⟨hdeps, htargets, hnames⟩ := hfacts
  have hwaves : c.graph.waves = [[0], [1]] :=
    (build_waves_of_cycles_eq_nil hdeps (by cbv)).trans (by decide +kernel)
  obtain ⟨r, hr, hj⟩ := List.map_eq_singleton_iff.mp htargets
  obtain ⟨-, himports⟩ := import_sees_last_of_name (importerOfA [exportsX]) {} 1 [1]
    (congrArg (·[1]?) hwaves) 1 List.mem_cons_self
  obtain ⟨m, hm, -, -, -, hunique⟩ := himports r (hr ▸ List.mem_cons_self) 0 hj
  have hnodup : (c.modules.map (·.name)).Nodup := by simp [hnames]
  have hsees := hunique fun j' m' hm' hname => eq_of_name_eq hnodup hm' hm hname
  have hname : some m.name = some "a" := by
    rw [← Option.map_some, ← hm, ← List.getElem?_map, hnames]
    rfl
  rw [Option.some.inj hname, hwaves] at hsees
  exact ⟨hwaves, htargets, hsees⟩

/-- Of two modules of one name the importer is led to the first and sees the second. -/
theorem import_sees_second_of_name :
    let c := compile (importerOfA [exportsX, exportsY]) {}
    let library := libraryAfter c.modules c.graph {} (c.graph.waves.take 1)
    c.graph.waves = [[0, 1], [2]] ∧ (c.graph.imports[2]?.getD []).map (·.target) = [some 0] ∧
      library.module? "a" ≠ (c.analyzed? 0).map (·.exports) ∧
      library.module? "a" = (c.analyzed? 1).map (·.exports) := by
  intro c library
  have hdeps : c.graph.deps = [[], [], [0]] := by decide +kernel
  have hwaves : c.graph.waves = [[0, 1], [2]] :=
    (build_waves_of_cycles_eq_nil hdeps (by cbv)).trans (by decide +kernel)
  have hlibrary : library = libraryAfter c.modules c.graph {} [[0, 1]] := by
    simp only [library, hwaves, List.take_succ_cons, List.take_zero]
  have hanalyzed : ∀ i, c.analyzed? i =
      (analyzeWaves c.modules c.graph {} [] [[0, 1], [2]]).lookup i := by
    intro i
    rw [← hwaves]
    rfl
  rw [hlibrary, hanalyzed, hanalyzed]
  refine ⟨hwaves, ?_⟩
  decide +kernel

end SourceCheck
