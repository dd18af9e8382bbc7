import Mathlib.Data.List.Chain
import Mathlib.Data.List.DropRight
import SourceCheck.Proofs.Analysis.Values

/-!
# Constants that are being folded

A constant is asked for behind those that are being folded. Their list starts anew at the size of an array, so a cycle
through it is told from there on, and the limit counts from there.
-/

namespace SourceCheck

open Check List

/-! ### Constants in progress -/

def Findings.inProgress (f : Findings) : List String :=
  ((f.folding.filter fun p => f.folding.lookup p.1 = some .started).map (·.1)).reverse

namespace Findings

variable {f : Findings} {name : String}

lemma mem_inProgress : name ∈ f.inProgress ↔ f.folding.lookup name = some .started := by
  simp only [inProgress, mem_reverse, mem_map, mem_filter, decide_eq_true_eq]
  constructor
  · rintro ⟨p, ⟨-, hp⟩, rfl⟩
    exact hp
  · intro h
    exact ⟨(name, .started), ⟨mem_of_lookup h, h⟩, rfl⟩

lemma inProgress_start (h : f.folding.lookup name = none) : inProgress (f.start name) = f.inProgress ++ [name] := by
  have hsame : ∀ p ∈ f.folding, ((name, FoldProgress.started) :: f.folding).lookup p.1 = f.folding.lookup p.1 := by
    intro p hp
    have hne : p.1 ≠ name := fun hname => by
      simpa [hname] using lookup_eq_none_iff.1 h p hp
    rw [lookup_cons, beq_false_of_ne hne]
  simp only [inProgress, filter_cons, lookup_cons_self, decide_true, if_true, map_cons,
    reverse_cons]
  rw [filter_congr fun p hp => by rw [hsame p hp]]

lemma inProgress_finish {p} (h : f.inProgress = p ++ [name]) (hp : name ∉ p) (v) :
    (f.finish name v).inProgress = p := by
  have hfilter : (f.finish name v).inProgress = f.inProgress.filter (· ≠ name) := by
    rw [inProgress, inProgress, filter_reverse, filter_map, filter_filter,
      show (f.finish name v).folding = (name, .finished) :: f.folding from rfl, filter_cons_of_neg (by simp)]
    congr 2
    refine filter_congr fun q _ => ?_
    rw [lookup_cons]
    by_cases hq : q.1 = name
    · simp [hq]
    · simp [hq, beq_false_of_ne hq]
  rw [hfilter, h, filter_append, filter_eq_self.2 fun q hq => ?_]
  · simp
  · simp only [decide_eq_true_eq]
    rintro rfl
    exact hp hq

end Findings

/-! ### References between constants -/

section

variable {constants : List ConstDecl} {depth : Nat} {progress stack path : List String} {name : String}

def Mentions (constants : List ConstDecl) (name other : String) : Prop :=
  ∃ c ∈ constants, c.name.node = name ∧ ∃ span, .expr (.ident span other) ∈ c.value.nodes

def Measuring (constants : List ConstDecl) : Prop :=
  ∃ c ∈ constants, ∃ span elem size, .type (.array span elem size) ∈ c.value.nodes

/-- A constant asked for behind `stack` while those of `progress` are folded: each mentions the next. The list is
complete unless arrays are measured. -/
structure Stacked (constants : List ConstDecl) (depth : Nat) (progress stack : List String) (name : String) : Prop where
  suffix : stack <:+ progress
  complete : ¬ Measuring constants → stack = progress
  chain : (progress ++ [name]).IsChain (Mentions constants)
  length_le : stack.length ≤ depth

/-- A path that ends a cycle, and is all of it unless arrays are measured. -/
structure EndsCycle (constants : List ConstDecl) (depth : Nat) (path : List String) : Prop where
  cycle : ∃ outer name between, outer ++ path = name :: (between ++ [name]) ∧
    (outer ++ path).IsChain (Mentions constants) ∧ (¬ Measuring constants → outer = [])
  length_le : path.length ≤ depth + 1

lemma Stacked.initial (constants depth name) : Stacked constants depth [] [] name :=
  ⟨suffix_rfl, fun _ => rfl, .singleton _, Nat.zero_le _⟩

lemma dropWhile_ne_of_mem {l : List String} (h : name ∈ l) : ∃ rest, l.dropWhile (· ≠ name) = name :: rest := by
  induction l with
  | nil => cases h
  | cons x l ih =>
    by_cases hx : x = name
    · exact ⟨l, by rw [dropWhile_cons_of_neg (by simpa using hx), hx]⟩
    · rw [dropWhile_cons_of_pos (by simpa using hx)]
      exact ih ((mem_cons.1 h).resolve_left (Ne.symm hx))

lemma Stacked.endsCycle (h : Stacked constants depth progress stack name) (hname : name ∈ progress) :
    EndsCycle constants depth (cycleFrom stack name ++ [name]) := by
  have hlength := h.length_le
  by_cases hstack : name ∈ stack
  · obtain ⟨rest, hrest⟩ := dropWhile_ne_of_mem hstack
    have hsuffix : name :: rest <:+ stack := hrest ▸ dropWhile_suffix _
    rw [cycleFrom, if_pos (by simpa using hstack), hrest]
    obtain ⟨before, hbefore⟩ := hsuffix.trans h.suffix
    refine ⟨⟨[], name, rest, rfl, h.chain.suffix ⟨before, ?_⟩, fun _ => rfl⟩, ?_⟩
    · rw [nil_append, ← hbefore, append_assoc]
    · rw [length_append, length_singleton]
      exact Nat.succ_le_succ (hsuffix.length_le.trans hlength)
  · obtain ⟨before, rfl⟩ := h.suffix
    obtain ⟨first, between, rfl⟩ := append_of_mem ((mem_append.1 hname).resolve_right hstack)
    rw [cycleFrom, if_neg (by simpa using hstack)]
    refine ⟨⟨name :: between, name, between ++ stack, by simp, h.chain.suffix ⟨first, by simp⟩,
      fun hno => ?_⟩, ?_⟩
    · exact absurd (h.complete hno ▸ hname) hstack
    · simpa using hlength

end

/-! ### Calls -/

open scoped Classical in
/-- Find a constant as long as calls fit and nest at most so many times. Others go to `other`. -/
noncomputable def demandFitting (other : Demand) : Nat → List ConstDecl → Demand
  | 0, _ => other
  | n + 1, remaining => fun stack name span σ f =>
    if Stacked σ.constants σ.constDepth f.inProgress stack name then
      demandBy (demandFitting other n (otherConstants remaining name)) remaining stack name span σ f
    else other stack name span σ f

def Findings.TellsCycles (constants : List ConstDecl) (depth : Nat) (f : Findings) : Prop :=
  ∀ r ∈ f.problems, ∀ path, r.cause = .constCycle path → EndsCycle constants depth path

lemma Findings.TellsCycles.of_problems {constants depth} {f g : Findings} (h : f.TellsCycles constants depth)
    (hproblems : ∀ r ∈ g.problems, r ∈ f.problems ∨ ∀ path, r.cause ≠ .constCycle path) :
    g.TellsCycles constants depth := by
  intro r hr path hpath
  obtain hr | hother := hproblems r hr
  · exact h r hr path hpath
  · exact absurd hpath (hother path)

lemma Findings.TellsCycles.mono {constants constants' depth} {f : Findings}
    (h : f.TellsCycles constants depth) (hsub : constants ⊆ constants') : f.TellsCycles constants' depth := by
  intro r hr path hpath
  obtain ⟨⟨outer, name, between, hcycle, hchain, houter⟩, hlength⟩ := h r hr path hpath
  refine ⟨⟨outer, name, between, hcycle, hchain.imp ?_, fun hno => houter ?_⟩, hlength⟩
  · rintro a b ⟨c, hc, hmentions⟩
    exact ⟨c, hsub hc, hmentions⟩
  · rintro ⟨c, hc, hmeasures⟩
    exact hno ⟨c, hsub hc, hmeasures⟩

/-- A run in which the constants of `progress` are being folded. -/
abbrev Frame.nesting (constants : List ConstDecl) (depth : Nat) (progress : List String) : Frame :=
  .alone (fun σ => σ.constants = constants ∧ σ.constDepth = depth) (fun _ _ => True)
    fun f => f.inProgress = progress ∧ f.TellsCycles constants depth

section Nesting

variable {constants : List ConstDecl} {depth : Nat} {progress : List String}

lemma scopes_nesting : Frame.Scopes (fun _ _ => True) fun f =>
    f.inProgress = progress ∧ f.TellsCycles constants depth where
  refl _ := trivial
  trans _ _ := trivial
  problem _ _ := trivial
  type _ _ _ := trivial
  call _ _ _ := trivial
  size _ _ _ := trivial
  holds hf hfolding hproblems := ⟨by rw [Findings.inProgress, hfolding]; exact hf.1, hf.2.of_problems hproblems⟩
  define _ _ _ := trivial
  enter _ _ := trivial
  leave _ := trivial

instance : (Frame.nesting constants depth progress).Lawful :=
  scopes_nesting.lawful

/-- What the expression of a constant mentions is asked for behind it. -/
lemma Stacked.covers {stack name} (h : Stacked constants depth progress stack name)
    (hdepth : stack.length < depth) {c} (hc : c ∈ constants) (hname : c.name.node = name) :
    Demand.Covers (Stacked constants depth (progress ++ [name])) (stack ++ [name]) c.value.nodes := by
  have hchain (place : Span) (other : String) (hother : .expr (.ident place other) ∈ c.value.nodes) :
      (progress ++ [name] ++ [other]).IsChain (Mentions constants) := by
    refine h.chain.append (.singleton other) fun x hx y hy => ?_
    obtain rfl : name = x := by simpa using hx
    obtain rfl : other = y := by simpa using hy
    exact ⟨c, hc, hname, place, hother⟩
  refine ⟨fun place other hother => ⟨?_, fun hno => by rw [h.complete hno], hchain place other hother, ?_⟩,
    fun span elem size harray place other hother => ⟨nil_suffix, ?_, hchain place other hother, Nat.zero_le _⟩⟩
  · obtain ⟨before, hbefore⟩ := h.suffix
    exact ⟨before, by rw [← hbefore, append_assoc]⟩
  · rw [length_append, length_singleton]
    omega
  · exact fun hno => absurd ⟨c, hc, span, elem, size, harray⟩ hno

/-- Calls fit, and nest no more times than there are constants, or the limit says. -/
lemma runs_demandFitting (other n) {remaining : List ConstDecl} (hsub : remaining ⊆ constants)
    (hn : remaining.length < n ∨ ¬ Measuring constants ∧ depth < progress.length + n) :
    Demand.Runs (.nesting constants depth progress) (demandConst remaining) (demandFitting other n remaining)
      (Stacked constants depth progress) := by
  induction n generalizing remaining progress with
  | zero =>
    intro stack name span hnested
    obtain hn | ⟨hno, hn⟩ := hn
    · exact absurd hn (Nat.not_lt_zero _)
    · have hlength := hnested.length_le
      rw [hnested.complete hno] at hlength
      omega
  | succ n ih =>
    rintro stack name span hnested _ σ _ f ⟨rfl, hconstants, hdepth⟩ ⟨rfl, hprogress, htells⟩
    have hrun : demandFitting other (n + 1) remaining stack name span σ f =
        demandBy (demandFitting other n (otherConstants remaining name)) remaining stack name span σ f :=
      if_pos (by rw [hconstants, hdepth, hprogress]; exact hnested)
    rw [run_demandConst, hrun]
    unfold demandBy
    split
    · exact ⟨rfl, trivial, ⟨rfl, hprogress, htells⟩, trivial, fun _ => rfl⟩
    · rename_i hstarted
      refine ⟨rfl, trivial, ⟨rfl, hprogress, fun r hr path hpath => ?_⟩, trivial, fun _ => rfl⟩
      obtain rfl | hr := mem_cons.1 hr
      · cases hpath
        exact hnested.endsCycle (hprogress ▸ Findings.mem_inProgress.2 hstarted)
      · exact htells r hr path hpath
    · rename_i hname
      split
      · refine ⟨rfl, trivial, ⟨rfl, hprogress, htells.of_problems fun r hr => ?_⟩, trivial, fun _ => rfl⟩
        obtain rfl | hr := mem_cons.1 hr
        · exact .inr fun path => SemanticProblem.noConfusion
        · exact .inl hr
      · split
        · exact ⟨rfl, trivial, ⟨rfl, hprogress, htells⟩, trivial, fun _ => rfl⟩
        · rename_i hlength _ decl hfind
          have hlower : (otherConstants remaining name).length < n ∨
              ¬ Measuring constants ∧ depth < (progress ++ [name]).length + n := by
            have hless := length_otherConstants_lt hfind
            refine hn.imp (fun hn => by omega) fun hn => ⟨hn.1, ?_⟩
            rw [length_append, length_singleton]
            omega
          have hstarted : ((f.start name) : Findings).inProgress = progress ++ [name] := by
            rw [Findings.inProgress_start hname, hprogress]
          have hbehind : otherConstants remaining name ⊆ constants := fun c hc => hsub (mem_of_mem_filter hc)
          have hends := infers_foldWith (ih hbehind hlower) (stack ++ [name])
            decl.value (Frame.looks_all _) (hnested.covers (by omega) (hsub (mem_of_find?_eq_some hfind))
              (by simpa using List.find?_some hfind)) (σ := σ) ⟨rfl, hconstants, hdepth⟩
                ⟨rfl, hstarted, htells⟩
          obtain ⟨hsame, -, ⟨hfound, hdone, htold⟩, -, hsymbols⟩ := hends
          have hfresh : name ∉ progress := fun hmem => by
            rw [← hprogress, Findings.mem_inProgress, hname] at hmem
            cases hmem
          rw [Prod.ext hsame hfound]
          exact ⟨rfl, trivial, ⟨rfl, Findings.inProgress_finish hdone hfresh _, htold⟩, trivial, hsymbols⟩

lemma Check.Runs.alone {reads : Setting → Prop} {goes : Findings → Findings → Prop}
    {holds : Findings → Prop} {α : Type}
    {still : Prop} {c c'} {Q : α → Prop} (h : Runs (.alone reads goes holds) still c c' Q) :
    Runs (.alone reads goes holds) still c c Q := by
  rintro _ σ _ f ⟨rfl, hσ⟩ ⟨rfl, hf⟩
  have hends := h (σ := σ) (f := f) ⟨rfl, hσ⟩ ⟨rfl, hf⟩
  exact { hends with same := rfl, knows := ⟨rfl, hends.knows.2⟩ }

lemma runs_constValue (other) {n} (hn : constants.length < n ∨ ¬ Measuring constants ∧ depth < n) (name span) :
    Runs (.nesting constants depth []) True (constValue [] name span) (demandFitting other n constants [] name span)
      fun _ => True := by
  rintro _ σ _ f ⟨rfl, hσ⟩ ⟨rfl, hf⟩
  have hends := runs_demandFitting other n (List.Subset.refl constants) (by simpa using hn) [] name span
    (.initial constants depth name) (σ := σ) ⟨rfl, hσ⟩ ⟨rfl, hf⟩
  rw [← hσ.1] at hends ⊢
  exact hends

instance : (Frame.nesting constants depth []).Folding where
  demand stack name span hstack := by
    rw [hstack]
    exact (runs_constValue constValue (.inl (Nat.lt_succ_self _)) name span).alone

instance : (Frame.nesting constants depth []).Declares :=
  scopes_nesting.declares fun _ _ hσ => hσ

instance : (Frame.nesting constants depth []).Collects where
  value _ _ hf := ⟨⟨by rw [hf.1], hf.2⟩, trivial⟩
  define hf _ hdefine := ⟨_, hf.1 ▸ hdefine, ⟨by rw [hf.1], hf.2⟩, trivial⟩
  reshape _ hf _ := ⟨⟨by rw [hf.1], hf.2⟩, trivial⟩
  own _ _ _ := ⟨trivial, trivial⟩
  isInfinite hσ hf _ := by rw [hσ.1, hf.1]

end Nesting

/-- No constant is left in progress, and every cycle that is told ends a cycle of references. -/
lemma tellsCycles_findingsOf (program name imports library options) :
    let σ := options.setting name program.package.node library
    let constants := constantsOf (collectDeclarations imports program.decls σ {}).1
    let f := findingsOf program name imports library options
    f.inProgress = [] ∧ f.TellsCycles constants options.constDepth := by
  intro σ constants f
  let decls := program.decls
  have hnames : Obeys (.nesting [] options.constDepth []) (imports.forM (fun i => declareFirst i.symbol) >>= fun _ =>
        registerNames decls >>= fun declared => pure (reannotateDeclared id declared))
      (imports.forM (fun i => declareFirst i.symbol) >>= fun _ => registerNames (decls.map (·.reannotate id))) :=
    (scoped_declareImports fun _ _ _ _ => trivial).bind fun _ _ => scoped_registerNames decls
  obtain ⟨-, hprogress, htells⟩ := (hnames (σ := σ) (f := {}) ⟨rfl, rfl, rfl⟩
    ⟨rfl, rfl, fun r hr => absurd hr not_mem_nil⟩).knows
  have hchecked := scoped_checkNamed (F := .nesting constants options.constDepth []) decls
    (collectDeclarations imports decls σ {}).1 (σ := { σ with constants }) ⟨rfl, rfl, rfl⟩
    ⟨rfl, hprogress, htells.mono (nil_subset _)⟩
  exact hchecked.knows.2

/-- Calls for constants fit, and every cycle that is told ends a cycle of references. Calls nest no more times
than there are constants, or than the limit says if no array is measured. -/
theorem stacked_findingsOf (program : Program) (name : String) (imports : List ImportBinding) (library : Library)
    (options : AnalysisOptions) :
    let σ := options.setting name program.package.node library
    let constants := constantsOf (collectDeclarations imports (program.declarations.map (·.node)) σ {}).1
    let f := findingsOf program name imports library options
    f.inProgress = [] ∧ f.TellsCycles constants options.constDepth ∧
      ∀ (τ : Setting) (g : Findings), τ.constants = constants → τ.constDepth = options.constDepth →
        g.inProgress = [] → g.TellsCycles constants options.constDepth →
        ∀ other n constant span, constants.length < n ∨ ¬ Measuring constants ∧ options.constDepth < n →
          demandFitting other n constants [] constant span τ g = constValue [] constant span τ g := by
  intro σ constants f
  obtain ⟨hprogress, htells⟩ := tellsCycles_findingsOf program name imports library options
  refine ⟨hprogress, htells, fun τ g hconstants hdepth hg htold other n constant span hn => ?_⟩
  have hends := runs_constValue other hn constant span (σ := τ) (f := g) ⟨rfl, hconstants, hdepth⟩
    ⟨rfl, hg, htold⟩
  exact Prod.ext hends.same hends.knows.1

/-- Two constants that depend on each other, the first through the size of an array if it measures. -/
def moduleOfRing (measures : Bool) : Program :=
  let constant (name : String) (start : Nat) (value : Expr) : Spanned Declaration :=
    ⟨.const ⟨[], .pub, ⟨name, { start }⟩, .primitive default .usize, value⟩, default⟩
  let size : Expr := .ident { start := 3 } "B"
  { package := ⟨"t", default⟩
    imports := []
    declarations := [
      constant "A" 1 (if measures then .sizeof { start := 2 } (.array default (.primitive default .u8) size) else size),
      constant "B" 4 (.ident { start := 5 } "A")] }

theorem stacked_findingsOf_ring :
    let σ := ({} : AnalysisOptions).setting "t" "t" []
    let constants := constantsOf (collectDeclarations [] ((moduleOfRing false).declarations.map (·.node)) σ {}).1
    let f := findingsOf (moduleOfRing false) "t" [] [] {}
    (∃ r ∈ f.problems, r.cause = .constCycle ["A", "B", "A"]) ∧ EndsCycle constants 64 ["A", "B", "A"] ∧
      demandFitting (fun _ _ _ => pure none) 3 constants [] "A" default { σ with constants } {} =
        constValue [] "A" default { σ with constants } {} := by
  intro σ constants f
  obtain ⟨-, htells, hcalls⟩ := stacked_findingsOf (moduleOfRing false) "t" [] [] {}
  have htold : ∃ r ∈ f.problems, r.cause = .constCycle ["A", "B", "A"] := by
    refine ⟨⟨.constCycle ["A", "B", "A"], { start := 1 }⟩, ?_, rfl⟩
    decide +kernel
  refine ⟨htold, ?_, ?_⟩
  · obtain ⟨r, hr, hcause⟩ := htold
    exact htells r hr _ hcause
  · exact hcalls _ _ rfl rfl rfl (fun r hr => absurd hr List.not_mem_nil) _ 3 "A" default (.inl (by decide +kernel))

/-- A cycle through the size of an array is told from there on only. -/
theorem constCycle_of_measured :
    ∃ r ∈ (findingsOf (moduleOfRing true) "t" [] [] {}).problems, ∃ path, r.cause = .constCycle path ∧
      path.head? ≠ path.getLast? := by
  refine ⟨⟨.constCycle ["B", "A"], { start := 1 }⟩, ?_, _, rfl, by decide⟩
  decide +kernel

end SourceCheck
