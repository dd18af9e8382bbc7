import SourceCheck.Proofs.Analysis.TypeParams
import SourceCheck.Proofs.Module.Order

/-!
# Constants without a value

A constant has no value if there is an error in its module, or if it rests on a member of another module that has
none. Following such members, one comes to a module with an error, to an import that leads to no analysed module, or
to a missing member.
-/

namespace SourceCheck

open Check List Option

/-! ### Members that a value rests on -/

/-- The members of imports that a value rests on, directly or through constants of the module. -/
inductive Rests (constants : List ConstDecl) : Expr → Name → Name → Prop where
  | member {span head member} :
    Rests constants (.dotted span head member) head member
  | name {span name decl head member} :
    constants.find? (·.name.node = name) = some decl →
    Rests constants decl.value head member →
    Rests constants (.ident span name) head member
  | paren {span inner head member} :
    Rests constants inner head member →
    Rests constants (.paren span inner) head member
  | operand {span logical pointer operand head member} :
    Rests constants operand head member →
    Rests constants (.unary span logical pointer operand) head member
  | left {span lhs op rhs head member} :
    Rests constants lhs head member →
    Rests constants (.binary span lhs op rhs) head member
  | right {span lhs op rhs head member} :
    Rests constants rhs head member →
    Rests constants (.binary span lhs op rhs) head member

lemma Evaluates.rests {C e v} (h : Evaluates C e v) (hv : v = none) :
    ∃ head member target, Rests C.constants e head member ∧ C.target? head.node = some target ∧
      ∀ p, C.library.member? target member.node = some p → ∃ t, p.2.kind = .const t none := by
  match h with
  | .name hdecl h =>
    obtain ⟨head, member, target, hrests, hmember⟩ := h.rests hv
    exact ⟨head, member, target, .name hdecl hrests, hmember⟩
  | .unknown htarget hunknown =>
    refine ⟨_, _, _, .member, htarget, fun p hp => ?_⟩
    rw [hunknown] at hp
    cases hp
  | .member htarget hmember _ hkind =>
    refine ⟨_, _, _, .member, htarget, fun p hp => ?_⟩
    cases hmember.symm.trans hp
    exact ⟨_, hv ▸ hkind⟩
  | .paren h =>
    obtain ⟨head, member, target, hrests, hmember⟩ := h.rests hv
    exact ⟨head, member, target, .paren hrests, hmember⟩
  | .unaryNone h =>
    obtain ⟨head, member, target, hrests, hmember⟩ := h.rests rfl
    exact ⟨head, member, target, .operand hrests, hmember⟩
  | .leftNone h =>
    obtain ⟨head, member, target, hrests, hmember⟩ := h.rests rfl
    exact ⟨head, member, target, .left hrests, hmember⟩
  | .rightNone _ h =>
    obtain ⟨head, member, target, hrests, hmember⟩ := h.rests rfl
    exact ⟨head, member, target, .right hrests, hmember⟩
  | .literal _ | .plain _ | .logical _ _ | .binary _ _ _ | .sizeof _ _ _ => cases hv

/-! ### Modules without problems -/

section Module

variable {program : Program} {name : String} {imports : List ImportBinding} {library : Library}
  {options : AnalysisOptions}

lemma evaluates_of_problems_eq_nil (hnil : (findingsOf program name imports library options).problems = [])
    {c} (hc : .const c ∈ program.decls) :
    ∃ id s t v, (findingsOf program name imports library options).symbols.global? c.name.node = some (id, s) ∧
      s.kind = .const t v ∧ Evaluates (constContext imports library program.decls) c.value v := by
  let σ := options.setting name program.package.node library
  let decls := program.decls
  let τ : Setting := { σ with constants := constantsOf (collectDeclarations imports decls σ {}).1 }
  obtain ⟨hcollect, hconsts, -⟩ := clean_of_problems_eq_nil hnil
  obtain ⟨-, hsettled⟩ := settled_checkConstDeclarations (S := .any) (σ := σ) rfl hcollect
  obtain ⟨hvalued, hdeclares⟩ := valued_findingsOf program name imports library options
  obtain ⟨id, hid⟩ := mem_collectDeclarations hcollect hc rfl
  obtain ⟨s, t, v, hglobal, hkind, -⟩ := hdeclares.const_found hid
  have hlocal : Local (decls.forM checkDeclaration) := local_forM fun d _ => local_checkDeclaration d
  have hfinal : (constContext imports library decls).Settled (findingsOf program name imports library options) :=
    (hsettled hconsts).steps (hlocal τ _)
  -- The name is that of no other constant.
  have hconstant : (constContext imports library decls).constant? c.name.node = some c := by
    have hmem : c ∈ decls.filterMap (·.const?) := mem_filterMap.2 ⟨_, hc, rfl⟩
    obtain ⟨c', hc'⟩ : ∃ c', (constContext imports library decls).constant? c.name.node = some c' :=
      isSome_iff_exists.1 (List.find?_isSome.2 ⟨c, hmem, decide_eq_true rfl⟩)
    obtain ⟨d, hd, hconst⟩ := mem_filterMap.1 (mem_of_find?_eq_some hc')
    obtain rfl : d = .const c' := by
      cases d <;> cases hconst
      rfl
    have hname : c'.name.node = c.name.node := by simpa using List.find?_some hc'
    cases declaration_eq_of_name_eq hcollect hd hc rfl rfl hname
    exact hc'
  obtain ⟨-, hv⟩ := hfinal _ c hconstant
  have hname : s.name = c.name.node := hdeclares.sound.name_eq hglobal
  have hget := SymbolTable.get?_of_global? hglobal
  have hlookup : (findingsOf program name imports library options).constValues.lookup c.name.node = v := by
    cases hx : (findingsOf program name imports library options).constValues.lookup c.name.node with
    | some x =>
      obtain ⟨s', t', v', hget', -, hkind', hsays⟩ := (hvalued.told hid hc).value hx
      obtain rfl : s = s' := some.inj (hget.symm.trans hget')
      obtain ⟨-, rfl⟩ := SymbolKind.const.inj (hkind.symm.trans hkind')
      obtain ⟨hv, -⟩ | ⟨m, -, hproblem⟩ := hsays
      · exact hv.symm
      · rw [hnil] at hproblem
        cases hproblem
    | none =>
      cases v with
      | none => rfl
      | some y =>
        obtain ⟨hy, -⟩ := hvalued.backed hget hkind
        rw [hname, hx] at hy
        cases hy
  exact ⟨id, s, t, v, hglobal, hkind, hlookup ▸ hv⟩

end Module

/-! ### Compilations -/

def AnalyzedModule.HasValue (a : AnalyzedModule) (name : String) : Prop :=
  ∃ id s t x, a.findings.symbols.global? name = some (id, s) ∧ s.kind = .const t (some x)

def ParsedModule.constants (m : ParsedModule) : List ConstDecl :=
  m.program.decls.filterMap (·.const?)

namespace Compilation

variable (c : Compilation)

/-- The first import with a name gets it. -/
def import? (i : Nat) (name : String) : Option ResolvedImport :=
  (c.graph.imports[i]?.getD []).find? (·.binding = name)

/-- The value of a constant rests on a member of an import. -/
def RestsOn (p : Nat × ConstDecl) (r : ResolvedImport) (member : String) : Prop :=
  ∃ m head name, c.modules[p.1]? = some m ∧ Rests m.constants p.2.value head name ∧
    c.import? p.1 head.node = some r ∧ name.node = member

/-- A module that was analysed, with the name that an import leads to. -/
def Sees (r : ResolvedImport) (k : Nat) (a : AnalyzedModule) : Prop :=
  ∃ j m, r.target = some j ∧ c.modules[j]? = some m ∧ c.analyzed? k = some a ∧ a.exports.module = m.name

/-- The value of a constant comes from one of another module. -/
def Uses (p q : Nat × ConstDecl) : Prop :=
  ∃ r a m, c.RestsOn p r q.2.name.node ∧ c.Sees r q.1 a ∧ c.modules[q.1]? = some m ∧ q.2 ∈ m.constants

/-- The value rests on an import that leads to no analysed module, or on a member that is missing there. -/
def Lacks (p : Nat × ConstDecl) : Prop :=
  ∃ r member, c.RestsOn p r member ∧
    (r.target.bind c.analyzed? = none ∨ ∃ k a, c.Sees r k a ∧ a.exports.item? member = none)

/-- Among the constants that the value comes from, one is in a module with errors, or rests on what is not known. -/
def Explained (p : Nat × ConstDecl) : Prop :=
  ∃ q a, Relation.ReflTransGen c.Uses p q ∧ c.analyzed? q.1 = some a ∧ (0 < a.errorCount ∨ c.Lacks q)

end Compilation

section Waves

variable {modules : List ParsedModule} {g : ModuleGraph} {options : AnalysisOptions} {l : Library}
  {waves : List (List Nat)} {i k : Nat} {name : String}

lemma analyzeAt_eq_analyzeModule {r} (h : analyzeAt modules g options l i = some r) {m} (hm : modules[i]? = some m) :
    r.2 = analyzeModule m.program m.name (importBindings modules (g.imports[i]?.getD [])) l options := by
  rw [analyzeAt, hm] at h
  dsimp only at h
  split at h
  · cases h
    rfl
  · cases h

lemma exists_of_module?_libraryAfter {e}
    (h : (libraryAfter modules g options (waves.take k)).module? name = some e) (hnodup : waves.flatten.Nodup) :
    ∃ j a, j ∈ (waves.take k).flatten ∧ (analyzeWaves modules g options [] waves).lookup j = some a ∧
      a.exports = e ∧ e.module = name := by
  have hname : e.module = name := by simpa using List.find?_some h
  obtain he | ⟨r, hr, rfl⟩ := Library.mem_publish (mem_of_find?_eq_some h)
  · cases he
  · obtain ⟨hj, -⟩ := exists_of_mem_analyzeWaves hr
    refine ⟨r.1, r.2, hj, ?_, rfl, hname⟩
    have hall : r ∈ (analyzeWaves modules g options [] waves).filter (·.1 = r.1) := by
      refine mem_filter.2 ⟨?_, decide_eq_true rfl⟩
      rw [← take_append_drop k waves, analyzeWaves_append]
      exact mem_append_left _ hr
    rw [filter_fst_eq_lookup (nodup_map_fst_analyzeWaves hnodup), mem_toList] at hall
    obtain ⟨a, ha, heq⟩ := map_eq_some_iff.1 hall
    exact ha.trans (congrArg (some ·.2) heq)

lemma module?_libraryAfter_ne_none {r} (hr : r ∈ analyzeWaves modules g options [] (waves.take k))
    (hname : r.2.exports.module = name) : (libraryAfter modules g options (waves.take k)).module? name ≠ none := by
  rw [libraryAfter, Library.module?_publish]
  have hmem : r ∈ (analyzeWaves modules g options [] (waves.take k)).filter (·.2.exports.module = name) :=
    mem_filter.2 ⟨hr, decide_eq_true hname⟩
  cases hlast : ((analyzeWaves modules g options [] (waves.take k)).filter (·.2.exports.module = name)).getLast? with
  | none =>
    rw [List.getLast?_eq_none_iff.1 hlast] at hmem
    cases hmem
  | some last => exact some_ne_none _

end Waves

section Compile

variable {options : AnalysisOptions}

lemma exists_import_of_find? {modules imports name b}
    (h : (importBindings modules imports).find? (·.binding = name) = some b) :
    ∃ r, imports.find? (·.binding = name) = some r ∧
      b.target = r.target.bind fun j => (modules[j]?).map (·.name) := by
  rw [importBindings, List.find?_map] at h
  obtain ⟨r, hr, rfl⟩ := map_eq_some_iff.1 h
  exact ⟨r, hr, rfl⟩

lemma exists_const_of_item? {program name imports library member item t v}
    (hitem : (analyzeModule program name imports library options).exports.item? member = some item)
    (hkind : item.kind = .const t v) :
    ∃ d id s, .const d ∈ program.decls ∧ d.name.node = member ∧
      (findingsOf program name imports library options).symbols.global? member = some (id, s) ∧
      s.kind = .const t v := by
  obtain ⟨id, s, hget, hname, hs⟩ := exists_of_mem_items (mem_of_lookup hitem)
  obtain ⟨-, hdeclares⟩ := valued_findingsOf program name imports library options
  obtain ⟨d, hd, hdname, -⟩ := hdeclares.exists_const hget (hs.trans hkind)
  obtain ⟨s', t', v', hglobal, -, -⟩ := hdeclares.const_found hd
  obtain rfl : s' = s := some.inj ((SymbolTable.get?_of_global? hglobal).symm.trans hget)
  have hmember : d.name.node = member := hdname.trans hname
  exact ⟨d, id, s', mem_of_registerNames hd, hmember, hmember ▸ hglobal, hs.trans hkind⟩

/-- A compilation whose modules were linked and analysed. -/
structure Compilation.Analyzes (c : Compilation) (options : AnalysisOptions) : Prop where
  graph : c.graph = (ModuleGraph.build c.modules).1
  analyzed : c.analyzed = analyzeWaves c.modules c.graph options [] c.graph.waves

lemma Compilation.Analyzes.follows {c : Compilation} (h : c.Analyzes options) : Follows c.modules c.graph.waves :=
  h.graph ▸ follows_build_waves c.modules

variable {c : Compilation} {k i : Nat} {wave : List Nat} {a : AnalyzedModule} {d : ConstDecl}

lemma analyzed?_eq_analyzeModule (hc : c.Analyzes options) (hwave : c.graph.waves[k]? = some wave)
    (hi : i ∈ wave) (ha : c.analyzed? i = some a) :
    ∃ m, c.modules[i]? = some m ∧ a = analyzeModule m.program m.name
      (importBindings c.modules (c.graph.imports[i]?.getD []))
      (libraryAfter c.modules c.graph options (c.graph.waves.take k)) options := by
  rw [Compilation.analyzed?, hc.analyzed, lookup_analyzeWaves hc.follows.nodup hwave hi] at ha
  obtain ⟨r, hr, rfl⟩ := map_eq_some_iff.1 ha
  obtain ⟨-, m, hm, -⟩ := analyzeAt_eq_some hr
  exact ⟨m, hm, analyzeAt_eq_analyzeModule hr hm⟩

section

variable (hc : c.Analyzes options) (hwave : c.graph.waves[k]? = some wave)
  (ih : ∀ j ∈ (c.graph.waves.take k).flatten, ∀ a m d, c.analyzed? j = some a → c.modules[j]? = some m →
    d ∈ m.constants → a.HasValue d.name.node ∨ c.Explained (j, d))
  (hi : i ∈ wave) (ha : c.analyzed? i = some a)

include hc hwave ih hi ha

lemma explained_of_restsOn {r : ResolvedImport} {member}
    (hr : r ∈ c.graph.imports[i]?.getD []) (hrests : c.RestsOn (i, d) r member)
    (hmember : ∀ p, (libraryAfter c.modules c.graph options (c.graph.waves.take k)).member?
      (r.target.bind fun j => (c.modules[j]?).map (·.name)) member = some p → ∃ t, p.2.kind = .const t none) :
    c.Explained (i, d) := by
  cases hbind : r.target.bind c.analyzed? with
  | none => exact ⟨(i, d), a, .refl, ha, .inr ⟨r, member, hrests, .inl hbind⟩⟩
  | some found =>
    obtain ⟨j, hj, hfound⟩ := bind_eq_some_iff.1 hbind
    obtain ⟨himports, m, hm, -⟩ := imports_of_mem (hc.graph ▸ hr) hj
    rw [Compilation.analyzed?, hc.analyzed] at hfound
    -- The module that the import leads to was published, or another one of its name after it.
    have hbefore := mem_of_lookup ((hc.follows.lookup_take hwave hi himports).trans hfound)
    obtain ⟨-, m', hm', -, hname⟩ := exists_of_mem_analyzeWaves hbefore
    obtain rfl : m = m' := some.inj (hm.symm.trans hm')
    obtain ⟨e, he⟩ := ne_none_iff_exists'.mp (module?_libraryAfter_ne_none hbefore hname)
    obtain ⟨n, b, hn, hb, rfl, hmodule⟩ := exists_of_module?_libraryAfter he hc.follows.nodup
    rw [← hc.analyzed] at hb
    have hsees : c.Sees r n b := ⟨j, m, hj, hm, hb, hmodule⟩
    cases hitem : b.exports.item? member with
    | none => exact ⟨(i, d), a, .refl, ha, .inr ⟨r, member, hrests, .inr ⟨n, b, hsees, hitem⟩⟩⟩
    | some item =>
      obtain ⟨t, hkind⟩ := hmember (m.name, item) (by simp [hj, hm, Library.member?, he, hitem])
      obtain ⟨wave', hwave', hn'⟩ := mem_flatten.1 hn
      obtain ⟨k', hk'⟩ := mem_iff_getElem?.mp (mem_of_mem_take hwave')
      obtain ⟨m', hm', rfl⟩ := analyzed?_eq_analyzeModule hc hk' hn' hb
      obtain ⟨d', id, s, hd', hdname, hglobal, hs⟩ := exists_const_of_item? hitem hkind
      have hmem : d' ∈ m'.constants := mem_filterMap.2 ⟨_, hd', rfl⟩
      have huses : c.Uses (i, d) (n, d') := ⟨r, _, m', hdname ▸ hrests, hsees, hm', hmem⟩
      obtain ⟨id', s', t', x, hglobal', hs'⟩ | ⟨q, aq, hq, hreason⟩ := ih n hn _ m' d' hb hm' hmem
      · -- The symbol has no value.
        rw [hdname] at hglobal'
        obtain ⟨-, rfl⟩ := Prod.mk.inj (some.inj (hglobal.symm.trans hglobal'))
        cases hs.symm.trans hs'
      · exact ⟨q, aq, .head huses hq, hreason⟩

lemma hasValue_or_explained_step {m} (hm : c.modules[i]? = some m) (hd : d ∈ m.constants) :
    a.HasValue d.name.node ∨ c.Explained (i, d) := by
  obtain ⟨m', hm', haeq⟩ := analyzed?_eq_analyzeModule hc hwave hi ha
  obtain rfl : m = m' := some.inj (hm.symm.trans hm')
  by_cases hnil : a.findings.problems = []
  · obtain ⟨decl, hdecl, hconst⟩ := mem_filterMap.1 hd
    obtain rfl : decl = .const d := by
      cases decl <;> cases hconst
      rfl
    rw [haeq] at hnil
    obtain ⟨id, s, t, v, hglobal, hkind, hv⟩ := evaluates_of_problems_eq_nil hnil hdecl
    cases v with
    | some x =>
      left
      rw [haeq]
      exact ⟨id, s, t, x, hglobal, hkind⟩
    | none =>
      right
      obtain ⟨head, member, target, hrests, htarget, hmember⟩ := hv.rests rfl
      obtain ⟨b, hb, rfl⟩ := map_eq_some_iff.1 htarget
      obtain ⟨r, hr, hbound⟩ := exists_import_of_find? hb
      exact explained_of_restsOn hc hwave ih hi ha (mem_of_find?_eq_some hr) ⟨m, head, member, hm, hrests, hr, rfl⟩
        (hbound ▸ hmember)
  · refine .inr ⟨(i, d), a, .refl, ha, .inl ?_⟩
    rw [haeq] at hnil ⊢
    rw [errorCount_analyzeModule]
    exact length_pos_iff.2 hnil

end

/-- Every constant has a value, or there is an error in its module or in one that the value comes from, or a
constant on the way rests on an import that leads to no analysed module or on a member that is missing there. -/
theorem hasValue_or_explained (sources : List SourceModule) (options : AnalysisOptions) :
    let c := compile sources options
    ∀ i a m d, c.analyzed? i = some a → c.modules[i]? = some m → d ∈ m.constants →
      a.HasValue d.name.node ∨ c.Explained (i, d) := by
  intro c i a m d ha hm hd
  have hc : c.Analyzes options := ⟨rfl, rfl⟩
  have hall : ∀ k, ∀ j ∈ (c.graph.waves.take k).flatten, ∀ a m d, c.analyzed? j = some a →
    c.modules[j]? = some m →
      d ∈ m.constants → a.HasValue d.name.node ∨ c.Explained (j, d) := by
    intro k
    induction k with
    | zero =>
      intro j hj
      cases hj
    | succ k ih =>
      intro j hj a m d
      rw [List.take_add_one, List.flatten_append] at hj
      obtain hj | hj := List.mem_append.mp hj
      · exact ih j hj a m d
      · cases hwave : c.graph.waves[k]? with
        | none =>
          rw [hwave] at hj
          cases hj
        | some wave =>
          have hj : j ∈ wave := by simpa [hwave] using hj
          exact fun ha hm hd => hasValue_or_explained_step hc hwave ih hj ha hm hd
  -- A module that was analysed is in some wave.
  have hi : i ∈ c.graph.waves.flatten := by
    by_contra hnot
    have hnone : c.analyzed? i = none := lookup_analyzeWaves_eq_none hnot
    rw [hnone] at ha
    cases ha
  refine hall c.graph.waves.length i ?_ a m d ha hm hd
  rw [List.take_length]
  exact hi

end Compile

/-- A module `a` of the given text, and one with the constant `B` from its member `X`. -/
def sourcesOfB (source : String) : List SourceModule :=
  [{ name := "a", source }, { name := "m", source := "package m;import \"./a\";pub const B: i32 = a.X;" }]

/-- The imported module has an error, so that the constant may have no value. -/
theorem hasValue_or_explained_unknown :
    let c := compile (sourcesOfB "package a;pub const X: i32 = Z;") {}
    ∃ a m d, c.analyzed? 1 = some a ∧ c.modules[1]? = some m ∧ d ∈ m.constants ∧ d.name.node = "B" ∧
      (a.HasValue d.name.node ∨ c.Explained (1, d)) := by
  intro c
  have hdeps : c.graph.deps = [[], [0]] := by decide +kernel
  have hwaves : c.graph.waves = [[0], [1]] :=
    (build_waves_of_cycles_eq_nil hdeps (by cbv)).trans (by decide +kernel)
  have hanalyzed : c.analyzed? 1 = (analyzeWaves c.modules c.graph {} [] [[0], [1]]).lookup 1 := by
    rw [← hwaves]
    rfl
  obtain ⟨a, ha⟩ : ∃ a, c.analyzed? 1 = some a := by
    rw [hanalyzed]
    exact Option.isSome_iff_exists.mp (by decide +kernel)
  obtain ⟨m, hm⟩ : ∃ m, c.modules[1]? = some m := Option.isSome_iff_exists.mp (by decide +kernel)
  have hnames : (c.modules[1]?.map fun m => m.constants.map (·.name.node)) = some ["B"] := by decide +kernel
  rw [hm, Option.map_some, Option.some_inj] at hnames
  obtain ⟨d, hd, hname⟩ := List.mem_map.mp (hnames ▸ List.mem_singleton_self "B")
  exact ⟨a, m, d, ha, hm, hd, hname, hasValue_or_explained _ _ 1 a m d ha hm hd⟩

/-- A member missing in an analysed module leaves a constant without a value and without an error. -/
theorem not_hasValue_of_missing :
    let c := compile (sourcesOfB "package a;") {}
    c.analyzed.map (fun r => (r.1, r.2.errorCount)) = [(0, 0), (1, 0)] ∧
      (c.graph.imports[1]?.getD []).map (·.target) = [some 0] ∧
      (c.analyzed? 1).bind (fun a => (a.findings.symbols.global? "B").map (·.2.kind)) =
        some (.const (.primitive .i32) none) := by
  intro c
  have hdeps : c.graph.deps = [[], [0]] := by decide +kernel
  have hwaves : c.graph.waves = [[0], [1]] :=
    (build_waves_of_cycles_eq_nil hdeps (by cbv)).trans (by decide +kernel)
  have hanalyzed : c.analyzed = analyzeWaves c.modules c.graph {} [] [[0], [1]] := by
    rw [← hwaves]
    rfl
  rw [Compilation.analyzed?, hanalyzed]
  decide +kernel

end SourceCheck
