import SourceCheck.Proofs.Analysis.Cycles
import SourceCheck.Proofs.Module.Explained

/-!
# Constants that depend on themselves

Every constant is folded to an end. One that refers to itself, outside of `sizeof`, gets no value, and without
constants of other modules that is an error. Without a cycle of references no cycle is told.
-/

namespace SourceCheck

open Check Relation

lemma transGen_of_isChain {r : String → String → Prop} {first last between}
    (h : (first :: (between ++ [last])).IsChain r) : TransGen r first last := by
  induction between generalizing first with
  | nil => exact .single (List.isChain_pair.1 h)
  | cons next between ih =>
    obtain ⟨hfirst, hrest⟩ := List.isChain_cons_cons.1 h
    exact .head hfirst (ih hrest)

lemma not_transGen_of_acc {r : String → String → Prop} {name} (h : Acc r name) : ¬ TransGen r name name := by
  have htrans := h.transGen
  induction htrans with
  | intro name _ ih => exact fun hcycle => ih name hcycle h hcycle

/-- A member that a value rests on is named in the expression or in a constant. -/
lemma Rests.exists_dotted {constants e head member} (h : Rests constants e head member) :
    (∃ span, .expr (.dotted span head member) ∈ e.nodes) ∨
      ∃ c ∈ constants, ∃ span, .expr (.dotted span head member) ∈ c.value.nodes := by
  induction h with
  | @member span => exact .inl ⟨span, by simp [Expr.nodes]⟩
  | name hfind _ ih => exact .inr (ih.elim (fun h => ⟨_, List.mem_of_find?_eq_some hfind, h⟩) id)
  | paren _ ih | operand _ ih | left _ ih | right _ ih =>
    refine ih.imp_left ?_
    rintro ⟨span, hspan⟩
    exact ⟨span, by simp [Expr.nodes, hspan]⟩

/-- Cycles of constants. All constants are folded to an end. One on a cycle of references outside of `sizeof` has
no value, neither in the table nor in its symbol. If there is such a cycle and no constant is computed from members of
imports, a problem is noted. Without cycles none is told. -/
theorem cycles_findingsOf (program : Program) (name : String) (imports : List ImportBinding) (library : Library)
    (options : AnalysisOptions) :
    let σ := options.setting name program.package.node library
    let decls := program.declarations.map (·.node)
    let constants := constantsOf (collectDeclarations imports decls σ {}).1
    let f := findingsOf program name imports library options
    (f.inProgress = [] ∧
      (options.constDepth ≠ 0 → ∀ c ∈ constants, f.folding.lookup c.name.node = some .finished)) ∧
    (∀ constant, TransGen (RefersTo constants) constant constant →
      f.constValues.lookup constant = none ∧
        ∀ id s t v, f.symbols.global? constant = some (id, s) → s.kind = .const t v → v = none) ∧
    ((∃ constant, TransGen (RefersTo constants) constant constant) →
      (∀ c span head member, .const c ∈ decls → .expr (.dotted span head member) ∈ c.value.nodes →
        ∀ i ∈ imports, i.binding ≠ head.node) → f.problems ≠ []) ∧
    ((∀ constant, ¬ TransGen (Mentions constants) constant constant) →
      ∀ r ∈ f.problems, ∀ path, r.cause ≠ .constCycle path) := by
  intro σ decls constants f
  obtain ⟨hvalued, hdeclares⟩ := valued_findingsOf program name imports library options
  obtain ⟨hprogress, htells⟩ := tellsCycles_findingsOf program name imports library options
  have hvalueless (constant : String) (hcycle : TransGen (RefersTo constants) constant constant) :
      f.constValues.lookup constant = none := by
    cases hlookup : f.constValues.lookup constant with
    | none => rfl
    | some v =>
      have hacc := (hvalued.founded _ (mem_of_lookup hlookup)).acc
      exact absurd (transGen_swap.mpr hcycle) (not_transGen_of_acc hacc)
  refine ⟨⟨hprogress, fun hdepth c hc => ?_⟩,
    fun constant hcycle => ⟨hvalueless constant hcycle, ?_⟩, ?_, ?_⟩
  · obtain ⟨⟨d, id⟩, hd, hconst⟩ := List.mem_filterMap.mp hc
    obtain rfl : d = .const c := by
      cases d <;> cases hconst
      rfl
    cases hfolding : f.folding.lookup c.name.node with
    | none => exact absurd ((hvalued.told hd (mem_of_registerNames hd)).entered hfolding) hdepth
    | some p =>
      cases p with
      | finished => rfl
      | started =>
        have hmem := Findings.mem_inProgress.mpr hfolding
        rw [hprogress] at hmem
        cases hmem
  · intro id s t v hglobal hkind
    cases v with
    | none => rfl
    | some x =>
      obtain ⟨hx, -⟩ := hvalued.backed (SymbolTable.get?_of_global? hglobal) hkind
      rw [hdeclares.sound.name_eq hglobal, hvalueless constant hcycle] at hx
      cases hx
  · rintro ⟨constant, hcycle⟩ hown hnil
    -- Without problems every constant is evaluated, and only members of imports keep it from having a value.
    obtain ⟨_, ⟨c, hfind, -⟩, -⟩ := TransGen.head'_iff.mp hcycle
    have hname : c.name.node = constant := by simpa using List.find?_some hfind
    obtain ⟨⟨d, id⟩, hd, hconst⟩ := List.mem_filterMap.mp (List.mem_of_find?_eq_some hfind)
    obtain rfl : d = .const c := by
      cases d <;> cases hconst
      rfl
    have hc := mem_of_registerNames hd
    obtain ⟨id, s, t, v, hglobal, hkind, hv⟩ := evaluates_of_problems_eq_nil hnil hc
    cases v with
    | some x =>
      obtain ⟨hx, -⟩ := hvalued.backed (SymbolTable.get?_of_global? hglobal) hkind
      rw [hdeclares.sound.name_eq hglobal, hname, hvalueless constant hcycle] at hx
      cases hx
    | none =>
      obtain ⟨head, member, target, hrests, htarget, -⟩ := hv.rests rfl
      obtain ⟨i, hi, -⟩ := Option.map_eq_some_iff.mp htarget
      have hbinding : i.binding = head.node := by simpa using List.find?_some hi
      have hmem := List.mem_of_find?_eq_some hi
      obtain ⟨span, hspan⟩ | ⟨c', hc', span, hspan⟩ := hrests.exists_dotted
      · exact hown c span head member hc hspan i hmem hbinding
      · obtain ⟨d, hd', hconst⟩ := List.mem_filterMap.mp hc'
        obtain rfl : d = .const c' := by
          cases d <;> cases hconst
          rfl
        exact hown c' span head member hd' hspan i hmem hbinding
  · intro hacyclic r hr path hpath
    obtain ⟨outer, constant, between, hcycle, hchain, -⟩ := (htells r hr path hpath).cycle
    rw [hcycle] at hchain
    exact hacyclic constant (transGen_of_isChain hchain)

theorem cycles_findingsOf_ring :
    let f := findingsOf (moduleOfRing false) "t" [] [] {}
    f.constValues.lookup "A" = none ∧ f.problems ≠ [] := by
  intro f
  have hcycle : TransGen (RefersTo (constantsOf (collectDeclarations []
      ((moduleOfRing false).declarations.map (·.node)) (({} : AnalysisOptions).setting "t" "t" []) {}).1)) "A" "A" :=
    .head ⟨_, rfl, rfl⟩ (.single ⟨_, rfl, rfl⟩)
  obtain ⟨-, hvalueless, hproblem, -⟩ := cycles_findingsOf (moduleOfRing false) "t" [] [] {}
  exact ⟨(hvalueless "A" hcycle).1, hproblem ⟨"A", hcycle⟩ fun _ _ _ _ _ _ i hi => absurd hi List.not_mem_nil⟩

end SourceCheck
