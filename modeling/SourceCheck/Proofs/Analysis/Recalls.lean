import SourceCheck.Proofs.Analysis.Frame

/-!
# A constant is folded once

What is known about a constant that was folded, or is being folded, is recalled by every later fold and step.
-/

namespace SourceCheck

open Check List

/-! ### What a fold recalls -/

/-- A fold keeps all values found before, and finds none if no constant may be entered. -/
structure Findings.Recalls (depth : Nat) (f g : Findings) : Prop where
  symbols : g.symbols = f.symbols
  folding : ∀ {name p}, f.folding.lookup name = some p → g.folding.lookup name = some p
  values : ∀ {name p}, f.folding.lookup name = some p → g.constValues.lookup name = f.constValues.lookup name
  idle : depth = 0 → g.folding = f.folding ∧ g.constValues = f.constValues

lemma Findings.Recalls.trans {depth} {f g h : Findings} (hf : f.Recalls depth g) (hg : g.Recalls depth h) :
    f.Recalls depth h where
  symbols := hg.symbols.trans hf.symbols
  folding hname := hg.folding (hf.folding hname)
  values hname := (hg.values (hf.folding hname)).trans (hf.values hname)
  idle hdepth := ⟨(hg.idle hdepth).1.trans (hf.idle hdepth).1, (hg.idle hdepth).2.trans (hf.idle hdepth).2⟩

lemma Findings.recalls_of_eq {depth} {f g : Findings} (hsymbols : g.symbols = f.symbols)
    (hfolding : g.folding = f.folding) (hvalues : g.constValues = f.constValues) : f.Recalls depth g where
  symbols := hsymbols
  folding hname := hfolding ▸ hname
  values _ := by rw [hvalues]
  idle _ := ⟨hfolding, hvalues⟩

/-- A fold that keeps all values found before. -/
abbrev Frame.recalling (depth : Nat) : Frame :=
  .alone (·.constDepth = depth) (Findings.Recalls depth)

instance (depth : Nat) : (Frame.recalling depth).Lawful := by
  refine Frame.Notes.lawful ⟨fun f => ?_, .trans, fun f r => ?_, fun f span t => ?_, fun f span target => ?_,
    fun f span n => ?_, fun _ _ _ => trivial⟩ <;> exact Findings.recalls_of_eq rfl rfl rfl

/-! ### The fold of one constant -/

section Demand

variable {remaining : List ConstDecl} {stack : List String} {name : String} {span : Span} {σ : Setting} {f : Findings}

/-- Find a constant, if those behind it are found in a given way. -/
def demandBy (inner : Demand) (remaining : List ConstDecl) : Demand := fun stack name span σ f =>
  match f.folding.lookup name with
  | some .finished => (f.constValues.lookup name, f)
  | some .started =>
    let place := ((σ.constants.find? (·.name.node = name)).map (·.name.span)).getD span
    (none, { f with problems := ⟨.constCycle (cycleFrom stack name ++ [name]), place⟩ :: f.problems })
  | none =>
    if σ.constDepth ≤ stack.length then
      (none, { f with problems := ⟨.constTooDeep σ.constDepth, span⟩ :: f.problems })
    else
      match remaining.find? (·.name.node = name) with
      | none => (none, f)
      | some decl =>
        let r := foldWith inner (stack ++ [name]) decl.value σ (f.start name)
        (r.1, r.2.finish name r.1)

lemma run_demandConst (remaining stack name span σ f) : demandConst remaining stack name span σ f =
      demandBy (demandConst (otherConstants remaining name)) remaining stack name span σ f := by
  have hfold (fold : Check (Option ConstValue)) : (do
      recordFolding name .started
      let v ← fold
      recordFolding name .finished
      v.forM (recordConst name)
      return v : Check (Option ConstValue)) σ f =
        let r := fold σ (f.start name)
        (r.1, r.2.finish name r.1) := by
    show (fold >>= fun v => do
      recordFolding name .finished
      v.forM (recordConst name)
      return v) σ (f.start name) = _
    rw [run_bind]
    generalize fold σ (f.start name) = r
    obtain ⟨_ | v, g⟩ := r <;> rfl
  rw [demandConst, demandBy, run_get_bind]
  cases f.folding.lookup name with
  | some p => cases p <;> rfl
  | none =>
    dsimp only
    rw [run_read_bind]
    split
    · rfl
    · split
      · rename_i hfind
        rw [hfind]
        rfl
      · rename_i decl hfind
        rw [hfind]
        exact hfold _

/-- The ways a constant is found, if those behind it are found in a given way. -/
inductive Demand.Finds (inner : Demand) (remaining : List ConstDecl) (stack : List String) (name : String)
    (σ : Setting) (f : Findings) : Option ConstValue × Findings → Prop where
  | finished :
    f.folding.lookup name = some .finished →
    Finds inner remaining stack name σ f (f.constValues.lookup name, f)
  | cycle (place : Span) :
    f.folding.lookup name = some .started →
    Finds inner remaining stack name σ f
      (none, { f with problems := ⟨.constCycle (cycleFrom stack name ++ [name]), place⟩ :: f.problems })
  | deep (place : Span) :
    f.folding.lookup name = none →
    σ.constDepth ≤ stack.length →
    Finds inner remaining stack name σ f
      (none, { f with problems := ⟨.constTooDeep σ.constDepth, place⟩ :: f.problems })
  | unknown :
    f.folding.lookup name = none →
    remaining.find? (·.name.node = name) = none →
    Finds inner remaining stack name σ f (none, f)
  | entered {decl v g} :
    f.folding.lookup name = none →
    stack.length < σ.constDepth →
    remaining.find? (·.name.node = name) = some decl →
    foldWith inner (stack ++ [name]) decl.value σ (f.start name) = (v, g) →
    Finds inner remaining stack name σ f (v, g.finish name v)

lemma finds_demandBy (inner remaining stack name span σ f) :
    Demand.Finds inner remaining stack name σ f (demandBy inner remaining stack name span σ f) := by
  unfold demandBy
  split
  · exact .finished ‹_›
  · exact .cycle _ ‹_›
  · rename_i hname
    split
    · exact .deep _ hname ‹_›
    · split
      · exact .unknown hname ‹_›
      · exact .entered hname (by omega) ‹_› rfl

lemma finds_demandConst (remaining stack name span σ f) :
    Demand.Finds (demandConst (otherConstants remaining name)) remaining stack name σ f
      (demandConst remaining stack name span σ f) := by
  rw [run_demandConst]
  exact finds_demandBy _ _ _ _ _ _ _

lemma Findings.lookup_finish (g : Findings) (v) : (g.finish name v).folding.lookup name = some .finished :=
  lookup_cons_self

lemma Findings.lookup_finish_of_ne (g : Findings) (v) {other} (h : other ≠ name) :
    (g.finish name v).folding.lookup other = g.folding.lookup other ∧
      (g.finish name v).constValues.lookup other = g.constValues.lookup other := by
  have hne : (other == name) = false := beq_false_of_ne h
  constructor
  · show List.lookup other ((name, .finished) :: g.folding) = _
    rw [lookup_cons, hne]
  · cases v with
    | none => rfl
    | some v =>
      show List.lookup other ((name, v) :: g.constValues) = _
      rw [lookup_cons, hne]

/-- Once it is folded, the value of a constant is the one that was given. -/
structure Findings.Demanded (f : Findings) (name : String) (v : Option ConstValue) (g : Findings) : Prop where
  value : g.folding.lookup name = some .finished →
    (f.folding.lookup name = none → f.constValues.lookup name = none) → g.constValues.lookup name = v
  finished : v ≠ none → g.folding.lookup name = some .finished
  kept : f.folding.lookup name ≠ none → g.folding = f.folding ∧ g.constValues = f.constValues

lemma demanded_demandConst (remaining : List ConstDecl) (stack : List String) (name span) (σ : Setting)
    (f : Findings) :
    f.Recalls σ.constDepth (demandConst remaining stack name span σ f).2 ∧
      f.Demanded name (demandConst remaining stack name span σ f).1 (demandConst remaining stack name span σ f).2 ∧
      (stack.length < σ.constDepth → (remaining.find? (·.name.node = name)).isSome →
        (demandConst remaining stack name span σ f).2.folding.lookup name ≠ none) := by
  have hfinds := finds_demandConst remaining stack name span σ f
  have hnone (problems) (h : f.folding.lookup name ≠ some .finished) : f.Demanded name none { f with problems } :=
    ⟨fun hfinished _ => absurd hfinished h, fun h => absurd rfl h, fun _ => ⟨rfl, rfl⟩⟩
  generalize demandConst remaining stack name span σ f = result at hfinds ⊢
  cases hfinds with
  | finished hname =>
    refine ⟨Findings.recalls_of_eq rfl rfl rfl, ⟨fun _ _ => rfl, fun _ => hname, fun _ => ⟨rfl, rfl⟩⟩,
      fun _ _ => ?_⟩
    simp [hname]
  | cycle place hname =>
    exact ⟨Findings.recalls_of_eq rfl rfl rfl, hnone _ (by simp [hname]), fun _ _ => by simp [hname]⟩
  | deep place hname hdepth =>
    exact ⟨Findings.recalls_of_eq rfl rfl rfl, hnone _ (by simp [hname]), fun h => by omega⟩
  | unknown hname hfind =>
    exact ⟨Findings.recalls_of_eq rfl rfl rfl, hnone _ (by simp [hname]), fun _ h => by simp [hfind] at h⟩
  | @entered decl v g hname hdepth hfind hfold =>
    have hdemand : Demand.Runs (.recalling σ.constDepth) (demandConst (otherConstants remaining name))
        (demandConst (otherConstants remaining name)) := by
      refine fun stack' name' span' _ => runs_alone fun σ' f' hdepth => ?_
      obtain ⟨hrecalls, -⟩ := demanded_demandConst (otherConstants remaining name) stack' name' span' σ' f'
      exact ⟨hdepth ▸ hrecalls, fun _ => hrecalls.symbols⟩
    have hrecalls := (infers_foldWith_all hdemand (stack ++ [name]) decl.value).goes_alone rfl
      (f.start name)
    rw [hfold] at hrecalls
    have hother {other : String} {p : FoldProgress} (h : f.folding.lookup other = some p) :
        other ≠ name ∧ ((name, FoldProgress.started) :: f.folding).lookup other = some p := by
      have hne : other ≠ name := by
        rintro rfl
        rw [hname] at h
        cases h
      exact ⟨hne, by rw [lookup_cons, beq_false_of_ne hne, h]⟩
    refine ⟨⟨hrecalls.symbols, fun {other p} h => ?_, fun {other p} h => ?_, fun h => ?_⟩,
      ⟨fun _ hfresh => ?_, fun _ => ?_, fun h => absurd hname h⟩, fun _ _ => ?_⟩
    · rw [(g.lookup_finish_of_ne v (hother h).1).1]
      exact hrecalls.folding (hother h).2
    · rw [(g.lookup_finish_of_ne v (hother h).1).2]
      exact hrecalls.values (hother h).2
    · omega
    · cases v with
      | some v => exact lookup_cons_self
      | none => exact (hrecalls.values lookup_cons_self).trans (hfresh hname)
    · exact g.lookup_finish v
    · rw [g.lookup_finish v]
      exact Option.some_ne_none _
termination_by remaining.length
decreasing_by exact length_otherConstants_lt ‹_›

end Demand

lemma recalls_demandConst (remaining depth) :
    Demand.Runs (.recalling depth) (demandConst remaining) (demandConst remaining) := by
  refine fun stack name span _ => runs_alone fun σ f hdepth => ?_
  obtain ⟨hrecalls, -⟩ := demanded_demandConst remaining stack name span σ f
  exact ⟨hdepth ▸ hrecalls, fun _ => hrecalls.symbols⟩

lemma recalls_foldWith (remaining stack e) (σ : Setting) (f : Findings) :
    f.Recalls σ.constDepth (foldWith (demandConst remaining) stack e σ f).2 :=
  (infers_foldWith_all (recalls_demandConst remaining σ.constDepth) stack e).goes_alone rfl f

lemma lookup_demandConst {remaining stack name span σ f v}
    (h : (demandConst remaining stack name span σ f).1 = some v) :
    (demandConst remaining stack name span σ f).2.constValues.lookup name = some v := by
  have hfinds := finds_demandConst remaining stack name span σ f
  generalize demandConst remaining stack name span σ f = result at h hfinds ⊢
  cases hfinds with
  | finished _ => exact h
  | @entered decl w g _ _ _ _ =>
    obtain rfl : w = some v := h
    exact lookup_cons_self
  | _ => cases h

/-! ### Steps of checking -/

lemma Findings.Step.lookup_finished {f g} (h : Findings.Step f g) {name}
    (hname : f.folding.lookup name = some .finished) :
    g.folding.lookup name = some .finished ∧ g.constValues.lookup name = f.constValues.lookup name := by
  cases h with
  | @start other hfree =>
    have hne : name ≠ other := by
      rintro rfl
      rw [hname] at hfree
      cases hfree
    exact ⟨by rw [lookup_cons, beq_false_of_ne hne, hname], rfl⟩
  | @finish other v hstarted =>
    have hne : name ≠ other := by
      rintro rfl
      rw [hname] at hstarted
      cases hstarted
    rw [(f.lookup_finish_of_ne v hne).1]
    exact ⟨hname, (f.lookup_finish_of_ne v hne).2⟩
  | @value other v hvalue =>
    refine ⟨hname, ?_⟩
    rw [lookup_cons]
    by_cases hne : name = other
    · subst hne
      simp [hvalue]
    · rw [beq_false_of_ne hne]
  | _ => exact ⟨hname, rfl⟩

lemma Findings.Steps.lookup_finished {f g} (h : Findings.Steps f g) {name}
    (hname : f.folding.lookup name = some .finished) :
    g.folding.lookup name = some .finished ∧ g.constValues.lookup name = f.constValues.lookup name := by
  induction h with
  | refl => exact ⟨hname, rfl⟩
  | tail _ hstep ih =>
    obtain ⟨hfolding, hvalue⟩ := hstep.lookup_finished ih.1
    exact ⟨hfolding, hvalue.trans ih.2⟩

end SourceCheck
