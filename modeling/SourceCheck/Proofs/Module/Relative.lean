import SourceCheck.Proofs.Module.Published

/-!
# Relative imports

A relative import leads where its path leads from the directory of the importer, unless a remote host is written in
the path or a part before the last has the ending of source files.
-/

namespace SourceCheck

open List ImportPath

/-! ### Texts -/

lemma behindFirst_eq_none_iff {needle text} : behindFirst needle text = none ↔ ¬ needle <:+: text := by
  induction text with
  | nil => cases needle <;> simp [behindFirst]
  | cons c cs ih =>
    rw [behindFirst, infix_cons_iff]
    split
    · rename_i hstart
      simp [List.isPrefixOf_iff_prefix.1 hstart]
    · rename_i hstart
      rw [List.isPrefixOf_iff_prefix] at hstart
      simp [ih, hstart]

def ImportPath.NamesHost (path : String) : Prop :=
  ∃ host ∈ ImportPath.remoteHosts, host.toList <:+: path.toList

def ImportPath.HasEnding (part : String) : Prop :=
  sourceEnding.toList <:+ part.toList

namespace ImportPath

lemma behindHost?_eq_none_iff {path} : behindHost? path = none ↔ ¬ NamesHost path := by
  simp [behindHost?, textBehind?, NamesHost, behindFirst_eq_none_iff]

lemma withoutEnding_of_not_hasEnding {part} (h : ¬ HasEnding part) : withoutEnding sourceEnding part = part :=
  if_neg fun hsuffix => h (isSuffixOf_iff_suffix.1 hsuffix)

lemma classify_of_relative {path} (hstart : startsWith "./" path = true ∨ startsWith "../" path = true)
    (hblanks : hasStrayBlanks path = false) (hhost : ¬ NamesHost path) :
    classify path = .ok .relative := by
  obtain ⟨rest, hpoint⟩ : ∃ rest, path.toList = '.' :: rest := by
    simp only [startsWith, isPrefixOf_iff_prefix] at hstart
    obtain ⟨rest, hrest⟩ | ⟨rest, hrest⟩ := hstart
    · exact ⟨_, hrest.symm⟩
    · exact ⟨_, hrest.symm⟩
  have hne : path ≠ "" := by
    rintro rfl
    cases hpoint
  have hroot (root : String) (c : Char) (cs : List Char) (hc : c ≠ '.') (hroot : root.toList = c :: cs) :
      startsWith root path = false := by
    rw [startsWith, hpoint, hroot]
    simp [List.isPrefixOf, hc]
  have hstdlib := hroot stdlibRoot 's' _ (by decide) rfl
  have hinternal := hroot internalRoot 'i' _ (by decide) rfl
  have hrelative : (startsWith "./" path || startsWith "../" path) = true := by simpa using hstart
  simp [classify, hne, hblanks, hstdlib, hinternal, behindHost?_eq_none_iff.2 hhost, hrelative]

/-! ### Where a path leads -/

/-- The parts of a module's name before the last. -/
def directory (importer : String) : List String :=
  ((segments '/' importer).filter (· ≠ "")).dropLast

/-- Where the parts of a path lead. Only at the end of a path an ending is left out. -/
inductive Leads : List String → List String → List String → Prop where
  | here {dir} :
    Leads dir [] dir
  | stay {dir part parts target} :
    part = "" ∨ part = "." →
    Leads dir parts target →
    Leads dir (part :: parts) target
  | up {dir name parts target} :
    Leads dir parts target →
    Leads (dir ++ [name]) (".." :: parts) target
  | into {dir part parts target} :
    part ∉ ["", ".", ".."] →
    parts ≠ [] →
    Leads (dir ++ [part]) parts target →
    Leads dir (part :: parts) target
  | file {dir part} :
    part ∉ ["", ".", ".."] →
    Leads dir [part] (dir ++ [withoutEnding sourceEnding part])

lemma step_of_stay {part} (h : part = "" ∨ part = ".") (dir) :
    step dir part = some dir :=
  if_pos (by simpa using h)

lemma step_up (dir name) : step (dir ++ [name]) ".." = some dir := by
  have hne : dir ++ [name] ≠ [] := by simp
  unfold step
  rw [if_neg (by simp), if_pos rfl]
  split
  · contradiction
  · rw [dropLast_concat]

lemma step_into {part} (h : part ∉ ["", ".", ".."]) (dir) :
    step dir part = some (dir ++ [withoutEnding sourceEnding part]) := by
  simp only [mem_cons, not_mem_nil, or_false, not_or] at h
  obtain ⟨hempty, hpoint, hpoints⟩ := h
  unfold step
  rw [if_neg (by simp [hempty, hpoint]), if_neg hpoints]

lemma Leads.eq_of_nil {dir target} (h : Leads dir [] target) : target = dir := by
  cases h
  rfl

lemma leads_cons_iff {dir parts target part} (hending : parts ≠ [] → ¬ HasEnding part) :
    Leads dir (part :: parts) target ↔ ∃ dir', step dir part = some dir' ∧ Leads dir' parts target := by
  constructor
  · intro h
    cases h with
    | stay hpart h => exact ⟨dir, step_of_stay hpart dir, h⟩
    | up h => exact ⟨_, step_up _ _, h⟩
    | into hpart hne h =>
      refine ⟨_, step_into hpart dir, ?_⟩
      rwa [withoutEnding_of_not_hasEnding (hending hne)]
    | file hpart => exact ⟨_, step_into hpart dir, .here⟩
  · rintro ⟨dir', hstep, h⟩
    by_cases hstay : part = "" ∨ part = "."
    · cases (step_of_stay hstay dir).symm.trans hstep
      exact .stay hstay h
    by_cases hup : part = ".."
    · subst hup
      obtain rfl | ⟨outer, name, rfl⟩ := eq_nil_or_concat' dir
      · cases hstep
      · cases (step_up outer name).symm.trans hstep
        exact .up h
    · have hpart : part ∉ ["", ".", ".."] := by
        simp only [mem_cons, not_mem_nil, or_false, not_or]
        exact ⟨fun h => hstay (.inl h), fun h => hstay (.inr h), hup⟩
      cases (step_into hpart dir).symm.trans hstep
      cases parts with
      | nil => exact h.eq_of_nil ▸ .file hpart
      | cons next parts =>
        rw [withoutEnding_of_not_hasEnding (hending (by simp))] at h
        exact .into hpart (by simp) h

lemma foldlM_step_eq_some_iff {dir parts target} (hending : ∀ part ∈ parts.dropLast, ¬ HasEnding part) :
    parts.foldlM step dir = some target ↔ Leads dir parts target := by
  induction parts generalizing dir with
  | nil =>
    constructor
    · rintro ⟨⟩
      exact .here
    · exact fun h => congrArg some h.eq_of_nil.symm
  | cons part parts ih =>
    have hpart : parts ≠ [] → ¬ HasEnding part := fun hne =>
      hending part (by rw [dropLast_cons_of_ne_nil hne]; exact mem_cons_self)
    have hparts : ∀ p ∈ parts.dropLast, ¬ HasEnding p := by
      intro p hp
      refine hending p ?_
      rw [dropLast_cons_of_ne_nil (by rintro rfl; cases hp)]
      exact mem_cons_of_mem part hp
    rw [foldlM_cons, leads_cons_iff hpart]
    simp only [Option.bind_eq_bind, Option.bind_eq_some_iff, ih hparts]

/-- The module that a path leads to: the parts of its place below the root. -/
def Names (importer path name : String) : Prop :=
  ∃ parts, Leads (directory importer) (segments '/' path) parts ∧ parts ≠ [] ∧ name = "/".intercalate parts

lemma join_eq_some_iff {importer path name} (hending : ∀ part ∈ (segments '/' path).dropLast, ¬ HasEnding part) :
    join importer path = some name ↔ Names importer path name := by
  unfold join Names
  simp only [← foldlM_step_eq_some_iff hending, directory]
  split
  · rename_i hfold
    rw [hfold]
    simp
  · rename_i parts hne hfold
    rw [hfold]
    constructor
    · rintro ⟨⟩
      exact ⟨parts, rfl, hne, rfl⟩
    · rintro ⟨_, ⟨⟩, -, rfl⟩
      rfl
  · rename_i hfold
    rw [hfold]
    simp

end ImportPath

/-! ### What is recorded -/

section Resolved

variable {modules : List ParsedModule} {importer : String}

def LeavesFree (binding : String) (d : Spanned ImportDecl) : Prop :=
  (∃ kind, ImportPath.classify d.node.path = .ok kind) → (importBinding d).node ≠ binding

lemma find?_resolveImports {taken earlier later i kind} (hkind : classify i.node.path = .ok kind)
    (htaken : (importBinding i).node ∉ taken) (hearlier : ∀ d ∈ earlier, LeavesFree (importBinding i).node d) :
    (resolveImports modules importer taken (earlier ++ i :: later)).1.find? (·.binding = (importBinding i).node) =
      some { path := i.node.path, kind, binding := (importBinding i).node,
             target := importTarget? modules importer i.node.path kind, span := i.span } := by
  induction earlier generalizing taken with
  | nil =>
    rw [nil_append, resolveImports]
    simp [hkind, htaken]
  | cons d earlier ih =>
    have hd := hearlier d mem_cons_self
    have hrest := fun d hd => hearlier d (mem_cons_of_mem _ hd)
    rw [cons_append, resolveImports]
    split
    · exact ih htaken hrest
    · rename_i kind' hkind'
      have hne := hd ⟨kind', hkind'⟩
      have hfree : (importBinding i).node ∉ (importBinding d).node :: taken := by
        simp [htaken, Ne.symm hne]
      dsimp only
      split
      · exact ih hfree hrest
      · rw [List.find?_cons_of_neg (by simpa using hne)]
        exact ih hfree hrest

lemma moduleIndex?_eq_some_iff (hnames : (modules.map (·.name)).Nodup) {name j} :
    moduleIndex? modules name = some j ↔ ∃ m, modules[j]? = some m ∧ m.name = name := by
  constructor
  · intro h
    obtain ⟨hlt, hname, -⟩ := List.findIdx?_eq_some_iff_getElem.1 h
    exact ⟨modules[j], List.getElem?_eq_getElem hlt, by simpa using hname⟩
  · rintro ⟨m, hm, rfl⟩
    obtain ⟨k, hk⟩ : ∃ k, moduleIndex? modules m.name = some k := by
      rw [← Option.isSome_iff_exists, moduleIndex?, List.findIdx?_isSome]
      simpa using ⟨m, mem_of_getElem? hm, rfl⟩
    obtain ⟨hlt, hname, -⟩ := List.findIdx?_eq_some_iff_getElem.1 hk
    have hsame : modules[k].name = m.name := by simpa using hname
    rw [hk, eq_of_name_eq hnames (List.getElem?_eq_getElem hlt) hm hsame]

lemma importTarget?_relative_eq_some_iff (hnames : (modules.map (·.name)).Nodup) {path}
    (hending : ∀ part ∈ (segments '/' path).dropLast, ¬ HasEnding part) {j} :
    importTarget? modules importer path .relative = some j ↔
      ∃ m, modules[j]? = some m ∧ Names importer path m.name := by
  simp only [importTarget?, Option.bind_eq_some_iff, join_eq_some_iff hending,
    moduleIndex?_eq_some_iff hnames]
  constructor
  · rintro ⟨_, hname, m, hm, rfl⟩
    exact ⟨m, hm, hname⟩
  · rintro ⟨m, hm, hname⟩
    exact ⟨m.name, hname, m, hm, rfl⟩

end Resolved

section Graph

variable {modules : List ParsedModule} {k : Nat} {m : ParsedModule}

/-- A relative import under a name of its own is recorded under it, with the module that its path leads to as target
and dependency, or as external if the path leads above the root or to no module. The path must not name a remote host,
and no part before the last may have the ending of source files. -/
theorem build_relative_import (hnames : (modules.map (·.name)).Nodup) (hm : modules[k]? = some m)
    {earlier later : List (Spanned ImportDecl)} {i : Spanned ImportDecl}
    (himports : m.program.imports = earlier ++ i :: later)
    (hearlier : ∀ d ∈ earlier, LeavesFree (importBinding i).node d)
    (hstart : ImportPath.startsWith "./" i.node.path = true ∨ ImportPath.startsWith "../" i.node.path = true)
    (hblanks : ImportPath.hasStrayBlanks i.node.path = false)
    (hhost : ¬ ImportPath.NamesHost i.node.path)
    (hending : ∀ part ∈ (segments '/' i.node.path).dropLast, ¬ ImportPath.HasEnding part) :
    let g := (ModuleGraph.build modules).1
    ∃ imports r, g.imports[k]? = some imports ∧ imports.find? (·.binding = (importBinding i).node) = some r ∧
      r.path = i.node.path ∧ r.span = i.span ∧
      (∀ j m', modules[j]? = some m' → ImportPath.Names m.name i.node.path m'.name →
        r.target = some j ∧ g.deps.Edge k j) ∧
      ((∀ m' ∈ modules, ¬ ImportPath.Names m.name i.node.path m'.name) → r.target = none) := by
  intro g
  have hkind := ImportPath.classify_of_relative hstart hblanks hhost
  have hrecord : (m.resolveImports modules).1.find? (·.binding = (importBinding i).node) = _ :=
    himports ▸ find?_resolveImports hkind List.not_mem_nil hearlier
  have himports : g.imports[k]? = some (m.resolveImports modules).1 := by
    simp [g, build_imports, hm]
  refine ⟨_, _, himports, hrecord, rfl, rfl, fun j m' hm' hname => ?_, fun hnone => ?_⟩
  · have hj := (importTarget?_relative_eq_some_iff hnames hending).mpr ⟨m', hm', hname⟩
    exact ⟨hj, build_deps_edge_iff.mpr ⟨m, hm, _, List.mem_of_find?_eq_some hrecord, rfl, hj⟩⟩
  · refine Option.eq_none_iff_forall_ne_some.mpr fun j hj => ?_
    obtain ⟨m', hm', hname⟩ := (importTarget?_relative_eq_some_iff hnames hending).mp hj
    exact hnone m' (List.mem_of_getElem? hm') hname

def importedFrom (name path : String) : List ParsedModule :=
  parseModules [{ name, source := "package a;" }, { name := "d/m", source := "package m;import \"" ++ path ++ "\";" }]

/-- An import of a file of the directory above. -/
theorem build_relative_import_above :
    let modules := importedFrom "a" "../a.asthra"
    let g := (ModuleGraph.build modules).1
    ImportPath.Names "d/m" "../a.asthra" "a" ∧
      (∃ imports r, g.imports[1]? = some imports ∧ imports.find? (·.binding = "a") = some r ∧
        r.target = some 0) ∧ g.deps.Edge 1 0 := by
  intro modules g
  have hname : ImportPath.Names "d/m" "../a.asthra" "a" :=
    ⟨["a"], .up (@ImportPath.Leads.file [] "a.asthra" (by decide)), by decide, by decide⟩
  have himport : modules[1].program.imports = [] ++ [⟨⟨"../a.asthra", none⟩, ⟨1, 10, 31, 1, 11⟩⟩] := by
    decide +kernel
  have hm : modules[1]? = some modules[1] := rfl
  have hnames : (modules.map (·.name)).Nodup := by decide +kernel
  have hhost : ¬ ImportPath.NamesHost "../a.asthra" := by
    simp only [ImportPath.NamesHost]
    decide
  have hending : ∀ part ∈ (segments '/' "../a.asthra").dropLast, ¬ ImportPath.HasEnding part := by
    simp only [ImportPath.HasEnding]
    decide
  obtain ⟨imports, r, himports, hr, -, -, htarget, -⟩ := build_relative_import hnames hm himport
    (by simp) (.inr (by decide)) (by decide) hhost hending
  obtain ⟨hr', hedge⟩ := htarget 0 modules[0] rfl hname
  exact ⟨hname, ⟨imports, r, himports, hr, hr'⟩, hedge⟩

/-- An import is external, although its module exists, if the path has the name of a remote host in it or a directory
with the ending of source files. -/
theorem relative_import_external :
    (ImportPath.Names "d/m" "../github.com/a" "github.com/a" ∧
      (ModuleGraph.build (importedFrom "github.com/a" "../github.com/a")).1.imports.map (·.map (·.target)) =
        [[], [none]]) ∧
    (ImportPath.Names "d/m" "../e.asthra/a" "e.asthra/a" ∧
      (ModuleGraph.build (importedFrom "e.asthra/a" "../e.asthra/a")).1.imports.map (·.map (·.target)) =
        [[], [none]]) := by
  have hname (dir : String) (h : dir ∉ ["", ".", ".."]) :
      ImportPath.Leads ["d"] ["..", dir, "a"] [dir, "a"] :=
    @ImportPath.Leads.up [] "d" _ _ (.into h (by simp) (@ImportPath.Leads.file [dir] "a" (by decide)))
  refine ⟨⟨⟨_, hname "github.com" (by decide), by simp, by decide⟩, ?_⟩,
    ⟨_, hname "e.asthra" (by decide), by simp, by decide⟩, ?_⟩
  · decide +kernel
  · decide +kernel

end Graph
end SourceCheck
