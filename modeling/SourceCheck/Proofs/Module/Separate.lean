import SourceCheck.Proofs.Analysis.Interface
import SourceCheck.Proofs.Module.Order

/-!
# Separate compilation

If the text of a module is replaced by one that differs in bodies and places only, it is linked as before and
publishes the same up to places, so all other modules are analysed as before.
-/

namespace SourceCheck

open List ModuleExports
open ModuleGraph (build)

/-- Modules that differ in bodies and in places only. -/
structure ParsedModule.SameOutside (m m' : ParsedModule) : Prop where
  name : m'.name = m.name
  readable : m'.isReadable = m.isReadable
  outline : m'.program.outline = m.program.outline

def ResolvedImport.unplaced (r : ResolvedImport) : ResolvedImport :=
  { r with span := default }

lemma map_set_of_eq {α β : Type} {f : α → β} {l : List α} {i : Nat} {a b : α} (hi : l[i]? = some a)
    (h : f b = f a) :
    (l.set i b).map f = l.map f := by
  obtain ⟨hlt, rfl⟩ := List.getElem?_eq_some_iff.1 hi
  rw [map_set, h, ← map_set, set_getElem_self]

section Graph

variable {modules : List ParsedModule} {i j : Nat} {m m' : ParsedModule}

/-! ### Links -/

lemma moduleIndex?_set (hi : modules[i]? = some m) (h : m.SameOutside m') :
    moduleIndex? (modules.set i m') = moduleIndex? modules := by
  have hindex (l : List ParsedModule) (name : String) :
      moduleIndex? l name = (l.map (·.name)).findIdx? (· = name) := by
    rw [List.findIdx?_map]
    rfl
  funext name
  rw [hindex, hindex, map_set_of_eq hi h.name]

lemma resolveImports_set (hi : modules[i]? = some m) (h : m.SameOutside m') :
    resolveImports (modules.set i m') = resolveImports modules := by
  have htarget : importTarget? (modules.set i m') = importTarget? modules := by
    funext importer path kind
    cases kind with
    | relative => rw [importTarget?, importTarget?, moduleIndex?_set hi h]
    | stdlib | remote => rfl
  funext importer taken imports
  induction imports generalizing taken with
  | nil => rfl
  | cons d imports ih => simp only [resolveImports, ih, htarget]

lemma resolveImports_unplaced (importer taken imports) :
    (resolveImports modules importer taken (imports.map fun d => ⟨d.node.unplaced, default⟩)).1 =
      (resolveImports modules importer taken imports).1.map (·.unplaced) := by
  induction imports generalizing taken with
  | nil => rfl
  | cons d imports ih =>
    have hbinding : (importBinding ⟨d.node.unplaced, default⟩).node = (importBinding d).node := by
      rw [importBinding, importBinding, ImportDecl.unplaced]
      cases d.node.localName <;> rfl
    have hpath : d.node.unplaced.path = d.node.path := rfl
    simp only [map_cons, resolveImports, hbinding, hpath]
    cases ImportPath.classify d.node.path with
    | error reason => exact ih taken
    | ok kind =>
      dsimp only
      split
      · exact ih _
      · exact congrArg _ (ih _)

section

variable (hi : modules[i]? = some m)

include hi

section

variable (h : m.SameOutside m')

include h

lemma imports_set_of_ne (hne : j ≠ i) :
    (build (modules.set i m')).1.imports[j]? = (build modules).1.imports[j]? := by
  simp only [build_imports, List.getElem?_map, List.getElem?_set_ne (Ne.symm hne), ParsedModule.resolveImports,
    resolveImports_set hi h]

lemma unplaced_imports_set :
    (build (modules.set i m')).1.imports.map (List.map (·.unplaced)) =
      (build modules).1.imports.map (List.map (·.unplaced)) := by
  have houtside (modules : List ParsedModule) :
      (build modules).1.imports.map (List.map (·.unplaced)) =
        modules.map fun m => (resolveImports modules m.name [] m.program.outline.imports).1 := by
    rw [build_imports, map_map]
    exact map_congr_left fun m _ => (resolveImports_unplaced m.name [] m.program.imports).symm
  rw [houtside, houtside, resolveImports_set hi h]
  refine map_set_of_eq hi ?_
  rw [h.name, h.outline]

lemma deps_set :
    (build (modules.set i m')).1.deps = (build modules).1.deps := by
  have hdeps (modules : List ParsedModule) : (build modules).1.deps =
      ((build modules).1.imports.map (List.map (·.unplaced))).map (dependencies modules.length) := by
    rw [map_map]
    refine map_congr_left fun imports _ => ?_
    rw [Function.comp_apply, dependencies, dependencies]
    refine filter_congr fun j _ => ?_
    rw [any_map]
    rfl
  rw [hdeps, hdeps, unplaced_imports_set hi h, length_set]

lemma waves_set :
    (build (modules.set i m')).1.waves = (build modules).1.waves := by
  have hwaves (modules : List ParsedModule) : (build modules).1.waves =
      (build modules).1.deps.waves ((build modules).1.deps.vertices.filter fun v =>
        !((build modules).1.deps.vertices.filter fun v =>
          (build modules).1.deps.cycles.any (·.contains v)).contains v) := rfl
  rw [hwaves, hwaves, deps_set hi h]

lemma importBindings_set :
    importBindings (modules.set i m') = importBindings modules := by
  have hname (l : List ParsedModule) (k : Nat) : (l[k]?).map (·.name) = (l.map (·.name))[k]? := by
    rw [List.getElem?_map]
  funext imports
  simp only [importBindings, hname, map_set_of_eq hi h.name]

end

end

end Graph

/-! ### Results -/

/-- Results before and after a change of module `i`: other modules see no difference. -/
structure SeenAlike (i : Nat) (r r' : Nat × AnalyzedModule) : Prop where
  number : r'.1 = r.1
  others : r.1 ≠ i → r'.2 = r.2
  exports : r'.2.exports.unplaced = r.2.exports.unplaced

section Results

variable {modules : List ParsedModule} {options : AnalysisOptions} {l l' : Library} {i j : Nat} {m m' : ParsedModule}

lemma analyzeAt_seenAlike (hi : modules[i]? = some m) (h : m.SameOutside m') (hconfined : ∀ e ∈ l, e.Confined)
    (hl : l'.map unplaced = l.map unplaced) (j) :
    Option.Rel (SeenAlike i) (analyzeAt modules (build modules).1 options l j)
      (analyzeAt (modules.set i m') (build (modules.set i m')).1 options l' j) := by
  rw [analyzeAt, analyzeAt, importBindings_set hi h]
  by_cases hne : j = i
  · subst hne
    have hlt := (List.getElem?_eq_some_iff.1 hi).1
    rw [hi, List.getElem?_set_self hlt]
    dsimp only
    rw [h.readable]
    split
    · refine .some ⟨rfl, fun hne => absurd rfl hne, ?_⟩
      have himports : (importBindings modules ((build (modules.set j m')).1.imports[j]?.getD [])).map
            (·.unplaced) =
          (importBindings modules ((build modules).1.imports[j]?.getD [])).map (·.unplaced) := by
        have hunplaced (rs : List ResolvedImport) : (importBindings modules rs).map (·.unplaced) =
            importBindings modules (rs.map (·.unplaced)) := by
          simp [importBindings, ImportBinding.unplaced, ResolvedImport.unplaced]
        have hgetD (rss : List (List ResolvedImport)) :
            (rss[j]?.getD []).map (·.unplaced) = ((rss.map (List.map (·.unplaced)))[j]?).getD [] := by
          rw [List.getElem?_map]
          cases rss[j]? <;> rfl
        rw [hunplaced, hunplaced, hgetD, hgetD, unplaced_imports_set hi h]
      dsimp only
      rw [exports_unplaced, exports_unplaced, himports, hl, h.outline, h.name]
    · exact .none
  · rw [List.getElem?_set_ne (Ne.symm hne), imports_set_of_ne hi h hne]
    split
    · exact .none
    · split
      · rename_i n hn hreadable
        have hsame : analyzeModule n.program n.name
              (importBindings modules ((build modules).1.imports[j]?.getD [])) l' options =
            analyzeModule n.program n.name
              (importBindings modules ((build modules).1.imports[j]?.getD [])) l options := by
          refine analyzeModule_congr hconfined fun name _ => ?_
          rw [← Library.filter_map_unplaced, ← Library.filter_map_unplaced, hl]
        dsimp only
        rw [hsame]
        exact .some ⟨rfl, fun _ => rfl, rfl⟩
      · exact .none

lemma Library.publish_unplaced {results results'} (h : List.Forall₂ (SeenAlike i) results results')
    (hl : l'.map unplaced = l.map unplaced) :
    (l'.publish results').map unplaced = (l.publish results).map unplaced := by
  have hadd (l : Library) (e : ModuleExports) :
      (l.add e).map unplaced = Library.add (l.map unplaced) e.unplaced := by
    rw [Library.add, Library.add, map_cons, filter_map]
    rfl
  induction h generalizing l l' with
  | nil => exact hl
  | @cons r r' results results' hr _ ih =>
    refine ih ?_
    rw [hadd, hadd, hl, hr.exports]

lemma analyzeWaves_seenAlike (hi : modules[i]? = some m) (h : m.SameOutside m') (hconfined : ∀ e ∈ l, e.Confined)
    (hl : l'.map unplaced = l.map unplaced) (waves) :
    List.Forall₂ (SeenAlike i) (analyzeWaves modules (build modules).1 options l waves)
      (analyzeWaves (modules.set i m') (build (modules.set i m')).1 options l' waves) := by
  induction waves generalizing l l' with
  | nil => exact .nil
  | cons wave waves ih =>
    have hwave : List.Forall₂ (SeenAlike i) (wave.filterMap (analyzeAt modules (build modules).1 options l))
        (wave.filterMap (analyzeAt (modules.set i m') (build (modules.set i m')).1 options l')) :=
      forall₂_filterMap (analyzeAt_seenAlike hi h hconfined hl) wave
    exact rel_append hwave (ih (confined_publish hconfined wave) (Library.publish_unplaced hwave hl))

lemma lookup_of_seenAlike {results results'}
    (h : List.Forall₂ (SeenAlike i) results results') (hne : j ≠ i) : results'.lookup j = results.lookup j := by
  induction h with
  | nil => rfl
  | @cons r r' results results' hr _ ih =>
    obtain ⟨k, a⟩ := r
    obtain ⟨k', a'⟩ := r'
    obtain rfl : k' = k := hr.number
    rw [lookup_cons, lookup_cons, ih]
    split
    · rename_i hk
      rw [show a' = a from hr.others (eq_of_beq hk ▸ hne)]
    · rfl

end Results

lemma parseModules_set (sources i new) :
    parseModules (sources.set i new) = (parseModules sources).set i (.ofSource i new) := by
  refine ext_getElem? fun k => ?_
  simp only [parseModules, List.getElem?_map, List.getElem?_zipIdx, List.getElem?_set, length_map,
    length_zipIdx]
  split
  · rename_i hk
    subst hk
    split <;> simp
  · rfl

/-- The text of a module may be replaced by one that also can be read and that differs in the bodies of functions and
methods, and in places, only. Whatever is wrong with the bodies, the result of every other module stays the same. -/
theorem analyzed?_eq_of_sameOutside (sources : List SourceModule) (options : AnalysisOptions) (i : Nat)
    (old : SourceModule) (text : String) (hi : sources[i]? = some old)
    (hold : (ParsedModule.ofSource i old).isReadable)
    (hnew : (ParsedModule.ofSource i { old with source := text }).isReadable)
    (houtline : (ParsedModule.ofSource i { old with source := text }).program.outline =
      (ParsedModule.ofSource i old).program.outline) :
    ∀ j ≠ i, (compile (sources.set i { old with source := text }) options).analyzed? j =
      (compile sources options).analyzed? j := by
  intro j hne
  have hsame : (ParsedModule.ofSource i old).SameOutside (.ofSource i { old with source := text }) :=
    ⟨rfl, hnew.trans hold.symm, houtline⟩
  have hparsed : (parseModules sources)[i]? = some (.ofSource i old) := by
    simp [parseModules, hi]
  have hresults : List.Forall₂ (SeenAlike i) (compile sources options).analyzed
      (compile (sources.set i { old with source := text }) options).analyzed := by
    simp only [compile]
    rw [parseModules_set, waves_set hparsed hsame]
    exact analyzeWaves_seenAlike hparsed hsame (by simp) rfl _
  exact lookup_of_seenAlike hresults hne

/-- A module `a` with a function of the given body, and a module that calls it. -/
def callerOf (body : String) : List SourceModule :=
  [{ name := "a", source := "package a;pub fn f(none) -> i32 \x7b" ++ body ++ "\x7d" },
    { name := "m", source := "package m;import \"./a\";pub fn g(none) -> i32 \x7breturn a.f(none);\x7d" }]

def rightBody : String := "return 1;"

def wrongBody : String := "let x: bool = true; return y;"

/-- A module whose only declaration is a function without parameters and statements, of a primitive type. -/
def Program.bareFunction? : Program → Option (Name × Visibility × Name × Primitive × Span × Span)
  | { package, imports := [], declarations := [⟨.function f, span⟩] } =>
    match f with
    | { annotations := [], visibility, name, typeParams := [], receiver := none, params := [],
        returnType := .primitive place type, body := [] } => some (package, visibility, name, type, place, span)
    | _ => none
  | _ => none

lemma Program.eq_of_bareFunction? {p p' : Program} (h : p.bareFunction? = p'.bareFunction?)
    (hp : p.bareFunction?.isSome) : p = p' := by
  have hform {p : Program} {x} (hx : p.bareFunction? = some x) :
      p = { package := x.1
            imports := []
            declarations := [⟨.function
              { annotations := [], visibility := x.2.1, name := x.2.2.1, typeParams := [], receiver := none
                params := [], returnType := .primitive x.2.2.2.2.1 x.2.2.2.1, body := [] }, x.2.2.2.2.2⟩] } := by
    unfold bareFunction? at hx
    split at hx
    · split at hx
      · cases hx
        rfl
      · cases hx
    · cases hx
  obtain ⟨x, hx⟩ := Option.isSome_iff_exists.1 hp
  exact (hform hx).trans (hform (h.symm.trans hx)).symm

/-- A body with a problem takes the place of one without, and the caller is analysed as before. -/
theorem analyzed?_eq_of_sameOutside_wrongBody :
    let old : SourceModule := { name := "a", source := "package a;pub fn f(none) -> i32 \x7b" ++ rightBody ++ "\x7d" }
    let new : SourceModule := { name := "a", source := "package a;pub fn f(none) -> i32 \x7b" ++ wrongBody ++ "\x7d" }
    (ParsedModule.ofSource 0 old).isReadable ∧ (ParsedModule.ofSource 0 new).isReadable ∧
      (ParsedModule.ofSource 0 new).program.outline = (ParsedModule.ofSource 0 old).program.outline ∧
      ((compile (callerOf rightBody) {}).analyzed? 0).map (·.diagnostics.length) = some 0 ∧
      ((compile (callerOf wrongBody) {}).analyzed? 0).map (·.diagnostics.length) = some 1 ∧
      (compile (callerOf wrongBody) {}).analyzed? 1 = (compile (callerOf rightBody) {}).analyzed? 1 := by
  intro old new
  have hold : (ParsedModule.ofSource 0 old).isReadable := by decide +kernel
  have hnew : (ParsedModule.ofSource 0 new).isReadable := by decide +kernel
  have houtline : (ParsedModule.ofSource 0 new).program.outline = (ParsedModule.ofSource 0 old).program.outline :=
    Program.eq_of_bareFunction? (by decide +kernel) (by decide +kernel)
  have hanalyzed (body : String) (hdeps : (compile (callerOf body) {}).graph.deps = [[], [0]]) :
      (compile (callerOf body) {}).analyzed =
        analyzeWaves (parseModules (callerOf body)) (ModuleGraph.build (parseModules (callerOf body))).1 {} []
          [[0], [1]] := by
    have hwaves : (compile (callerOf body) {}).graph.waves = [[0], [1]] :=
      (build_waves_of_cycles_eq_nil hdeps (by cbv)).trans (by decide +kernel)
    rw [← hwaves]
    rfl
  refine ⟨hold, hnew, houtline, ?_, ?_, ?_⟩
  · rw [Compilation.analyzed?, hanalyzed rightBody (by decide +kernel)]
    decide +kernel
  · rw [Compilation.analyzed?, hanalyzed wrongBody (by decide +kernel)]
    decide +kernel
  · exact analyzed?_eq_of_sameOutside (callerOf rightBody) {} 0 old new.source rfl hold hnew houtline 1 (by decide)

end SourceCheck
