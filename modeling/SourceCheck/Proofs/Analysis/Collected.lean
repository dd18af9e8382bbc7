import Mathlib.Data.List.Nodup
import SourceCheck.Proofs.Analysis.Local
import SourceCheck.Proofs.Coverage.Value

/-!
# The table of a module whose declarations are collected

Collecting declarations builds a sound table, and checking them keeps it so. In every state in which bodies are
checked (`InModule`), the variants of an enum have different names, and whatever names an enum leads to its
declaration.
-/

namespace SourceCheck

open Check List SymbolTable SymbolKind

variable {module : String} {s : Symbol} {f g : Findings} {d : Declaration} {σ : Setting}

namespace Findings

/-! ### Local steps -/

lemma placed_of_isLocal (h : s.kind.isLocal = true) : s.Placed module := by
  intro info variants hkind
  simp [hkind, isLocal] at h

lemma Step.sound (h : Step f g) (hs : f.symbols.Sound module) : g.symbols.Sound module := by
  cases h with
  | enter kind => exact hs.enter kind
  | leave => exact hs.leave
  | define hlocal hdefine => exact hs.define hdefine (placed_of_isLocal hlocal)
  | constant hg =>
    refine hs.modifyKind fun s _ hp info variants hkind => ?_
    obtain hsame | ⟨t, v, w, -, hconst⟩ := hg s.kind
    · exact hp info variants (hsame.symm.trans hkind)
    · simp [hconst] at hkind
  | _ => exact hs

lemma Steps.sound {f g} (h : Steps f g) {module} (hs : f.symbols.Sound module) : g.symbols.Sound module := by
  induction h with
  | refl => exact hs
  | tail _ hstep ih => exact hstep.sound ih

lemma Steps.forall_get? {P : Nat → Symbol → Prop} (hlocal : ∀ id s, s.kind.isLocal = true → P id s)
    (hconst : ∀ id s t v w, s.kind = .const t v → P id s → P id { s with kind := .const t w }) (h : Steps f g)
    (hP : ∀ id s, f.symbols.get? id = some s → P id s) : ∀ id s, g.symbols.get? id = some s → P id s := by
  induction h with
  | refl => exact hP
  | tail _ hstep ih =>
    intro k s hget
    cases hstep with
    | leave =>
      obtain ⟨i, hleave⟩ := leave_eq _
      rw [hleave] at hget
      exact ih k s hget
    | define hkind hdefine =>
      rw [get?_define hdefine] at hget
      split at hget
      · cases hget
        exact hlocal k _ hkind
      · exact ih k s hget
    | constant hg =>
      rw [get?_modifySymbol] at hget
      split at hget
      · obtain ⟨s₀, hs₀, rfl⟩ := Option.map_eq_some_iff.1 hget
        obtain hsame | ⟨t, v, w, hold, hnew⟩ := hg s₀.kind
        · rw [hsame]
          exact ih k s₀ hs₀
        · rw [hnew]
          exact hconst k s₀ t v w hold (ih k s₀ hs₀)
      · exact ih k s hget
    | _ => exact ih k s hget

lemma Steps.forall_symbols {P : Symbol → Prop} (hlocal : ∀ s, s.kind.isLocal = true → P s)
    (hconst : ∀ s t v w, s.kind = .const t v → P s → P { s with kind := .const t w })
    (h : Steps f g) (hP : ∀ id s, f.symbols.get? id = some s → P s) :
    ∀ id s, g.symbols.get? id = some s → P s :=
  h.forall_get? (P := fun _ s => P s) (fun _ => hlocal) (fun _ => hconst) hP

def ownEnum? (f : Findings) (name : String) : Option (List String × List VariantInfo) :=
  (f.symbols.global? name).bind fun g => g.2.kind.enum?

lemma enum?_eq (f : Findings) (σ n) :
    f.enum? σ n =
      if n.module = σ.module then f.ownEnum? n.name
      else ((σ.library.module? n.module).bind (·.item? n.name)).bind fun item => item.kind.enum? := by
  rw [enum?_eq_bind, nominal?]
  split
  · rw [Option.bind_map]
    rfl
  · rw [Option.bind_map]
    rfl

lemma Step.global?_bind_eq {γ : Type} (view : Symbol → Option γ)
    (hlocal : ∀ s, s.kind.isLocal = true → view s = none)
    (hconst : ∀ s t v w, s.kind = .const t v → view { s with kind := .const t w } = view s)
    (h : Step f g) (hs : f.symbols.Sound module) (name) :
    (g.symbols.global? name).bind (fun p => view p.2) = (f.symbols.global? name).bind fun p => view p.2 := by
  cases h with
  | enter kind => rw [global?_enter]
  | leave => rw [global?_leave]
  | @define s id table hkind hdefine =>
    obtain hsame | ⟨hnone, hnew⟩ := hs.global?_define hdefine name
    · rw [hsame]
    · rw [hnone, hnew]
      exact hlocal _ hkind
  | @constant id g hg =>
    rw [global?_modifySymbol]
    cases f.symbols.global? name with
    | none => rfl
    | some p =>
      obtain ⟨k, s⟩ := p
      by_cases hk : id = k
      · obtain hsame | ⟨t, v, w, hold, hnew⟩ := hg s.kind
        · simp [hk, hsame]
        · simp [hk, hnew, hconst s t v w hold]
      · simp [hk]
  | _ => rfl

lemma Step.ownEnum?_eq (h : Step f g) (hs : f.symbols.Sound module) (name) : g.ownEnum? name = f.ownEnum? name := by
  refine h.global?_bind_eq (·.kind.enum?) (fun s hlocal => ?_) (fun s t v w hkind => ?_) hs name
  · cases hk : s.kind <;> simp [hk, SymbolKind.isLocal, SymbolKind.enum?] at hlocal ⊢
  · simp [hkind, SymbolKind.enum?]

lemma Steps.enum?_eq {f g} (h : Steps f g) {σ} (hs : f.symbols.Sound σ.module) : g.enum? σ = f.enum? σ := by
  induction h with
  | refl => rfl
  | @tail b c hb hstep ih =>
    rw [← ih]
    funext n
    rw [Findings.enum?_eq, Findings.enum?_eq, hstep.ownEnum?_eq (Steps.sound hb hs)]

end Findings

/-! ### Collecting -/

namespace Check

variable {α β : Type}

def Keeps (c : Check α) : Prop :=
  ∀ σ f, f.symbols.Sound σ.module → (c σ f).2.symbols.Sound σ.module

lemma Local.keeps {c : Check α} (h : Local c) : Keeps c :=
  fun σ f hs => (h σ f).sound hs

lemma Keeps.withReader {c : Check α} {g} (h : Keeps c) (hg : ∀ σ, (g σ).module = σ.module) :
    Keeps (withReader g c) :=
  fun σ f hs => hg σ ▸ h (g σ) f ((hg σ).symm ▸ hs)

end Check

lemma withTypeParams_fst {α : Type} (params) (step : Check α) (σ f) :
    ∃ g, (withTypeParams params step σ f).1 = (step σ g).1 := by
  unfold withTypeParams
  split
  · exact ⟨f, rfl⟩
  · exact ⟨_, rfl⟩

lemma nodup_resolveVariants (enum seen vs σ f) :
    ((resolveVariants enum seen vs σ f).1.map (·.name)).Nodup ∧
      ∀ v ∈ (resolveVariants enum seen vs σ f).1, seen.lookup v.name = none := by
  induction vs generalizing seen f with
  | nil => simp [resolveVariants, run_pure]
  | cons v vs ih =>
    unfold resolveVariants
    cases hseen : seen.lookup v.name with
    | some previous => exact ih _ _
    | none =>
      -- The rest is resolved with this name seen, so it differs from the names that follow.
      have hcons : ∀ (payload : List Ty) (discriminant : Option Int) (g : Findings),
          let rest := (resolveVariants enum ((v.name, v.span) :: seen) vs σ g).1
          (({ name := v.name, payload, discriminant } :: rest).map (·.name)).Nodup ∧
            ∀ w ∈ { name := v.name, payload, discriminant } :: rest, seen.lookup w.name = none := by
        intro payload discriminant g
        obtain ⟨hnodup, hfresh⟩ := ih ((v.name, v.span) :: seen) g
        have hne : ∀ w ∈ (resolveVariants enum ((v.name, v.span) :: seen) vs σ g).1,
            w.name ≠ v.name ∧ seen.lookup w.name = none := by
          intro w hw
          have hlookup := hfresh w hw
          rw [lookup_cons] at hlookup
          split at hlookup
          · cases hlookup
          · rename_i hne
            exact ⟨by simpa using hne, hlookup⟩
        refine ⟨nodup_cons.2 ⟨?_, hnodup⟩, ?_⟩
        · intro hmem
          obtain ⟨w, hw, hname⟩ := mem_map.1 hmem
          exact (hne w hw).1 hname
        · intro w hw
          obtain rfl | hw := mem_cons.1 hw
          · exact hseen
          · exact (hne w hw).2
      cases v.value with
      | none | some value => exact hcons _ _ _

/-! ### What the collection of declarations does -/

/-- A change that makes no variables and keeps values of constants and names of enums. -/
structure SymbolKind.Reshaping (g : SymbolKind → SymbolKind) : Prop where
  bound {k t mutable origin} : g k = .variable t mutable origin → k = .variable t mutable origin := by
    intro k _ _ _ h; cases k <;> cases h; rfl
  const {k t v} : g k = .const t v → ∃ t', k = .const t' v := by
    intro k _ _ h; cases k <;> cases h; exact ⟨_, rfl⟩
  enum {k info variants} : g k = .enum info variants → (∃ info' variants', k = .enum info' variants' ∧
      info'.nominal = info.nominal ∧ ((variants'.map (·.name)).Nodup → (variants.map (·.name)).Nodup)) := by
    intro k _ _ h; cases k <;> cases h; exact ⟨_, _, rfl, rfl, fun h => h⟩

lemma SymbolKind.reshaping_withSignature (sig) : Reshaping (·.withSignature sig) where

lemma SymbolKind.reshaping_addMethods (methods) : Reshaping (·.addMethods methods) where

/-- To resolve a shape is to look up types, then to change a symbol. -/
lemma resolveShape_cases (d id) : resolveShape d id = pure () ∨
    ∃ (α : Type) (params : List Name) (step : Check α) (k : α → SymbolKind → SymbolKind),
      resolveShape d id = (withTypeParams params step >>= fun a => setKind id (k a)) ∧
        (∀ (F : Frame) [F.Declares], Heeds F step) ∧ ∀ σ f, Reshaping (k (step σ f).1) := by
  cases d with
  | function f =>
    exact .inr ⟨_, f.typeParams, _, fun sig => (·.withSignature sig), rfl,
      fun F _ => (infers_resolveSignature _ _ _).heeds,
      fun _ _ => reshaping_withSignature _⟩
  | externFunction f =>
    exact .inr ⟨_, [], _, fun sig => (·.withSignature sig), rfl, fun F _ => (infers_resolveSignature _ _ _).heeds,
      fun _ _ => reshaping_withSignature _⟩
  | struct s =>
    exact .inr ⟨_, s.typeParams, _, _, rfl, fun F _ => (infers_resolveFields _ _).heeds, fun _ _ => {}⟩
  | enum e =>
    refine .inr ⟨_, e.typeParams, _, _, rfl, fun F _ => (infers_resolveVariants _ _ _).heeds,
      fun σ f => { enum := ?_ }⟩
    have hnodup := (nodup_resolveVariants e.name.node [] e.variants σ f).1
    exact fun {k _ _} h => by cases k <;> cases h; exact ⟨_, _, rfl, rfl, fun _ => hnodup⟩
  | const c =>
    exact .inr ⟨_, [], _, _, rfl, fun F _ => (infers_resolveType _).heeds, fun _ _ => {}⟩
  | impl block => exact .inl rfl

/-- A judgement that passes from the parts of the collection to the whole. -/
structure Check.Gathers (J : ∀ {α : Type}, Check α → Prop) : Prop where
  bind {α β : Type} {c : Check α} {k : α → Check β} (P : α → Prop) :
    J c → (∀ σ f, P (c σ f).1) → (∀ a, P a → J (k a)) → J (c >>= k)
  quiet {α : Type} {c : Check α} : (∀ σ f, (c σ f).2 = f) → J c
  typed {α : Type} (params) {c : Check α} : (∀ (F : Frame) [F.Declares], Heeds F c) → J (withTypeParams params c)
  setKind (id) {g} : SymbolKind.Reshaping g → J (setKind id g)

namespace Check.Gathers

variable {J : ∀ {α : Type}, Check α → Prop} (h : Gathers J)

include h

lemma next {α β : Type} {c : Check α} {k : α → Check β} (hc : J c) (hk : ∀ a, J (k a)) : J (c >>= k) :=
  h.bind (fun _ => True) hc (fun _ _ => trivial) fun a _ => hk a

lemma reports (p span) (hp : p.isSpecial = false) : J (report p span) :=
  h.typed [] fun _ _ => runs_report p span hp

lemma forM {α : Type} {l : List α} {k : α → Check Unit} (hk : ∀ a, J (k a)) : J (l.forM k) := by
  induction l with
  | nil => exact h.quiet fun _ _ => rfl
  | cons a l ih => exact h.next (hk a) fun _ => ih

lemma resolveShape (d id) : J (SourceCheck.resolveShape d id) := by
  obtain heq | ⟨α, params, step, k, heq, hstep, hk⟩ := resolveShape_cases d id
  · rw [heq]
    exact h.quiet fun _ _ => rfl
  · rw [heq]
    refine h.bind (fun a => Reshaping (k a)) (h.typed params hstep) (fun σ f => ?_) fun a => h.setKind id
    obtain ⟨g, hg⟩ := withTypeParams_fst params step σ f
    exact hg ▸ hk σ g

lemma checkSize (d) : J (SourceCheck.checkSize d) := by
  refine h.next (h.quiet fun _ _ => rfl) fun σ => ?_
  cases d with
  | struct | enum =>
    refine h.next (h.quiet fun _ _ => rfl) fun _ => h.next (h.quiet fun _ _ => rfl) fun _ => ?_
    exact h.typed [] fun _ _ => runs_reportIf _ _ _ rfl
  | _ => exact h.quiet fun _ _ => rfl

lemma resolveMethods (owner seen fs) : J (SourceCheck.resolveMethods owner seen fs) := by
  induction fs generalizing seen with
  | nil => exact h.quiet fun _ _ => rfl
  | cons f fs ih =>
    unfold SourceCheck.resolveMethods
    split
    · exact h.next (h.reports _ _ rfl) fun _ => ih _
    · refine h.next (h.typed _ fun _ _ => (infers_resolveSignature _ _ _).heeds) fun _ => ?_
      exact h.next (ih _) fun _ => h.quiet fun _ _ => rfl

lemma collectImpl (block) : J (SourceCheck.collectImpl block) := by
  refine h.next (h.quiet fun _ _ => rfl) fun g => ?_
  unfold addImpl
  split
  · exact h.reports _ _ rfl
  · refine h.next (h.resolveMethods _ _ _) fun methods => ?_
    refine h.next (h.setKind _ (reshaping_addMethods _)) fun _ => h.forM fun m => ?_
    unfold reportSecond
    split
    · exact h.reports _ _ rfl
    · exact h.quiet fun _ _ => rfl

lemma collectMethods (d) : J (SourceCheck.collectMethods d) := by
  cases d with
  | impl block => exact h.collectImpl block
  | _ => exact h.quiet fun _ _ => rfl

lemma resolveShapes (declared : List (Declaration × Nat)) :
    J (declared.forM fun (d, id) => SourceCheck.resolveShape d id) :=
  h.forM fun p => h.resolveShape p.1 p.2

lemma collectShapes (decls declared) : J (SourceCheck.collectShapes decls declared) :=
  h.next (h.resolveShapes declared) fun _ => h.next (h.forM h.checkSize) fun _ => h.forM h.collectMethods

end Check.Gathers

lemma gathers_keeps : Gathers Keeps where
  bind _ hc hP hk σ f hs := hk _ (hP σ f) σ _ (hc σ f hs)
  quiet hc σ f hs := (hc σ f).symm ▸ hs
  typed params _ hc := (local_withTypeParams params (hc .steps).isLocal).keeps
  setKind _ _ hg _ _ hs := hs.modifyKind fun s _ hp info variants hkind => by
    obtain ⟨info', variants', hk, hnominal, hnodup⟩ := hg.enum hkind
    obtain ⟨hscope, hn, hold⟩ := hp info' variants' hk
    exact ⟨hscope, hnominal ▸ hn, hnodup hold⟩

/-! ### Names of declarations -/

/-- A sound table whose current scope is that of the module. -/
structure SymbolTable.AtModule (module : String) (t : SymbolTable) : Prop where
  sound : t.Sound module
  current : t.current = moduleScope
  scope : (t.scope? moduleScope).isSome = true

lemma SymbolTable.AtModule.define {module} {t t' : SymbolTable} {s id} (ht : t.AtModule module)
    (h : t.define s = .ok (id, t'))
    (hs : ∀ info variants, s.kind = .enum info variants → info.nominal = ⟨module, s.name⟩ ∧ variants = []) :
    t'.AtModule module := by
  refine ⟨ht.sound.define h fun info variants hkind => ?_, ?_, ?_⟩
  · obtain ⟨hnominal, rfl⟩ := hs info variants hkind
    exact ⟨ht.current, hnominal, nodup_nil⟩
  · obtain ⟨-, -, rfl⟩ := define_eq_ok h
    exact ht.current
  · rw [scope?_define h]
    split
    · rw [Option.isSome_map]
      exact ht.scope
    · exact ht.scope

lemma Declaration.symbol?_enum (h : d.symbol? module = some s) {info variants} (hkind : s.kind = .enum info variants) :
    info.nominal = ⟨module, s.name⟩ ∧ variants = [] := by
  cases d with
  | enum e =>
    simp only [symbol?, Option.some.injEq] at h
    subst h
    simp only [SymbolKind.enum.injEq] at hkind
    obtain ⟨rfl, rfl⟩ := hkind
    exact ⟨rfl, rfl⟩
  | impl block => simp [symbol?] at h
  | _ =>
    simp only [symbol?, Option.some.injEq] at h
    subst h
    simp at hkind

lemma run_registerName_none (h : d.symbol? σ.module = none) (f) : registerName d σ f = (none, f) := by
  rw [registerName, run_read_bind, h]
  rfl

lemma run_registerName_ok {id table} (h : d.symbol? σ.module = some s)
    (hdefine : f.symbols.define s = .ok (id, table)) :
    registerName d σ f = (some id, { f with symbols := table }) := by
  rw [registerName, run_read_bind, h]
  simp only [run_bind, run_define_ok hdefine, run_pure]

lemma run_registerName_error {previous} (h : d.symbol? σ.module = some s)
    (hdefine : f.symbols.define s = .error previous) : registerName d σ f =
      (none, { f with problems := ⟨.duplicate s.name previous, s.span⟩ :: f.problems }) := by
  rw [registerName, run_read_bind, h]
  simp only [run_bind, run_define_error hdefine, run_pure]
  rfl

/-- A name is entered, unless it is taken. -/
lemma registerName_induction {P : Findings → Prop} (hf : P f)
    (hok : ∀ {s id table}, d.symbol? σ.module = some s → f.symbols.define s = .ok (id, table) →
      P { f with symbols := table })
    (herror : ∀ r, P { f with problems := r :: f.problems }) : P (registerName d σ f).2 := by
  cases hsym : d.symbol? σ.module with
  | none =>
    rw [run_registerName_none hsym]
    exact hf
  | some s =>
    cases hdefine : f.symbols.define s with
    | ok p =>
      rw [run_registerName_ok hsym hdefine]
      exact hok hsym hdefine
    | error previous =>
      rw [run_registerName_error hsym hdefine]
      exact herror _

lemma registerNames_induction {P : Findings → Prop} {ds}
    (hstep : ∀ d ∈ ds, ∀ f, P f → P (registerName d σ f).2) (hf : P f) : P (registerNames ds σ f).2 := by
  induction ds generalizing f with
  | nil => exact hf
  | cons d ds ih =>
    have hrest := ih (fun e he => hstep e (mem_cons_of_mem _ he)) (hstep d mem_cons_self f hf)
    simp only [registerNames, run_bind]
    cases (registerName d σ f).1 with
    | none | some id => exact hrest

lemma atModule_registerName (d σ f)
    (hf : f.symbols.AtModule σ.module) : (registerName d σ f).2.symbols.AtModule σ.module :=
  registerName_induction (P := fun g => g.symbols.AtModule σ.module) hf
    (fun hsym hdefine => hf.define hdefine fun _ _ hkind => Declaration.symbol?_enum hsym hkind) fun _ => hf

lemma atModule_registerNames (ds σ f)
    (hf : f.symbols.AtModule σ.module) : (registerNames ds σ f).2.symbols.AtModule σ.module :=
  registerNames_induction (P := fun g => g.symbols.AtModule σ.module) (fun d _ g => atModule_registerName d σ g) hf

/-- Imports are entered, unless their names are taken. -/
lemma imports_induction {P : Findings → Prop} {imports : List ImportBinding}
    (h : ∀ i ∈ imports, ∀ {f id table}, P f → f.symbols.define i.symbol = .ok (id, table) →
      P { f with symbols := table }) (hf : P f) : P ((imports.forM fun i => declareFirst i.symbol) σ f).2 := by
  refine forM_induction (fun i hi f hf => ?_) hf
  rw [run_declareFirst]
  cases hdefine : f.symbols.define i.symbol with
  | ok p =>
    rw [run_define_ok hdefine]
    exact h i hi hf hdefine
  | error previous =>
    rw [run_define_error hdefine]
    exact hf

lemma atModule_imports (imports : List ImportBinding) (σ f) (hf : f.symbols.AtModule σ.module) :
    ((imports.forM fun i => declareFirst i.symbol) σ f).2.symbols.AtModule σ.module :=
  imports_induction (P := fun g => g.symbols.AtModule σ.module)
    (fun i _ _ _ _ hg hdefine => hg.define hdefine fun info variants hkind =>
      by simp [ImportBinding.symbol] at hkind) hf

lemma SymbolTable.Sound.defineAll {module} {t : SymbolTable} (ht : t.Sound module) {symbols}
    (h : ∀ s ∈ symbols, s.kind.enum? = none) : (t.defineAll symbols).Sound module := by
  unfold SymbolTable.defineAll
  induction symbols generalizing t with
  | nil => exact ht
  | cons s symbols ih =>
    rw [foldl_cons]
    refine ih ?_ fun s' hs' => h s' (by simp [hs'])
    split
    · rename_i hdefine
      refine ht.define hdefine fun info variants hkind => ?_
      have hnone := h s (by simp)
      rw [show s.kind = .enum info variants from hkind] at hnone
      simp [enum?] at hnone
    · exact ht

lemma atModule_initial (module) : initial.AtModule module := by
  have hbare : bare.Sound module := by
    constructor
    · intro i s name id hscope hmem
      obtain rfl : s = { parent := none, kind := .root } := by
        cases i with
        | zero => exact (Option.some.inj hscope).symm
        | succ i => simp [scope?, bare] at hscope
      simp at hmem
    · intro id sym hget
      simp [get?, bare] at hget
  refine ⟨(hbare.defineAll ?_).enter .module, by decide +kernel, by decide +kernel⟩
  intro s hs
  obtain ⟨p, -, rfl⟩ := mem_map.1 hs
  rfl

/-! ### Modules -/

/-- Resolve the shapes of declarations with their constants known. -/
def collectNamed (decls : List Declaration) (declared : List (Declaration × Nat)) :
    Check (List (Declaration × Nat)) := do
  withReader (fun s => { s with constants := constantsOf declared }) (collectShapes decls declared)
  return declared

def collectDeclarations (imports : List ImportBinding) (decls : List Declaration) :
    Check (List (Declaration × Nat)) := do
  imports.forM fun i => declareFirst i.symbol
  collectNamed decls (← registerNames decls)

lemma checkProgram_eq (program imports) :
    checkProgram program imports = (do
      let declared ← collectDeclarations imports program.decls
      withReader (fun s => { s with constants := constantsOf declared }) (checkDeclarations program.decls)) :=
  rfl

lemma sound_collectDeclarations (imports decls)
    (σ : Setting) : (collectDeclarations imports decls σ {}).2.symbols.Sound σ.module := by
  have himports := atModule_imports imports σ {} (atModule_initial σ.module)
  have hnames := atModule_registerNames decls σ _ himports
  have hshapes (declared : List (Declaration × Nat)) :
      Keeps (withReader (fun s => { s with constants := constantsOf declared }) (collectShapes decls declared)) :=
    (gathers_keeps.collectShapes decls declared).withReader fun _ => rfl
  exact hshapes _ σ _ hnames.sound

/-- What is known while a module is checked: declarations are collected, and local steps follow. -/
def InModule (σ : Setting) (f : Findings) : Prop :=
  ∃ σ₀ imports decls, σ₀.module = σ.module ∧ Findings.Steps (collectDeclarations imports decls σ₀ {}).2 f

lemma InModule.sound {σ f} (h : InModule σ f) : f.symbols.Sound σ.module := by
  obtain ⟨σ₀, imports, decls, hmodule, hsteps⟩ := h
  rw [← hmodule]
  exact Findings.Steps.sound hsteps (sound_collectDeclarations imports decls σ₀)

lemma InModule.steps (h : InModule σ f) (hs : Findings.Steps f g) : InModule σ g := by
  obtain ⟨σ₀, imports, decls, hmodule, hsteps⟩ := h
  exact ⟨σ₀, imports, decls, hmodule, hsteps.trans hs⟩

lemma inModule_findingsOf (program name imports library options) :
    InModule (options.setting name program.package.node library) (findingsOf program name imports library options) :=
  ⟨options.setting name program.package.node library, imports, program.decls, rfl, local_checkDeclarations _ _ _⟩

/-! ### Variants -/

/-- The exports of modules that were analysed, each against such exports. -/
inductive Library.Analyzed : Library → Prop where
  | nil : Analyzed []
  | add {l library} (program : Program) (name : String) (imports : List ImportBinding)
    (options : AnalysisOptions) :
    Analyzed l →
    Analyzed library →
    Analyzed (l.add (analyzeModule program name imports library options).exports)

lemma Library.Analyzed.nodup {l : Library} (h : l.Analyzed) {e} (he : e ∈ l)
    {name item} (hitem : (name, item) ∈ e.items) {info variants}
    (hkind : item.kind = .enum info variants) : (variants.map (·.name)).Nodup := by
  induction h with
  | nil => simp at he
  | @add l library program name imports options _ _ ih _ =>
    obtain rfl | he := mem_cons.1 he
    · have hs := (inModule_findingsOf program name imports library options).sound
      obtain ⟨s, hglobal, hexport⟩ := mem_filterMap.1 hitem
      have hsymbol : s ∈ (findingsOf program name imports library options).symbols.symbols :=
        Array.mem_toList_iff.1 (mem_of_mem_filter hglobal)
      obtain ⟨id, hid⟩ := Array.mem_iff_getElem?.mp hsymbol
      refine (hs.placed hid info variants ?_).2.2
      split at hexport
      · cases hexport
      · cases hexport
      · simp only [Option.some.injEq, Prod.mk.injEq] at hexport
        obtain ⟨-, rfl⟩ := hexport
        exact hkind
    · exact ih (mem_of_mem_filter he)

lemma InModule.nodup_variants (h : InModule σ f) (hl : σ.library.Analyzed) {n} {params variants}
    (henum : f.enum? σ n = some (params, variants)) : (variants.map (·.name)).Nodup := by
  have hkind : ∀ {k : SymbolKind}, k.enum? = some (params, variants) → ∃ info, k = .enum info variants := by
    intro k hk
    cases k with
    | enum info vs =>
      simp only [enum?, Option.some.injEq, Prod.mk.injEq] at hk
      exact ⟨info, by rw [hk.2]⟩
    | _ => simp [enum?] at hk
  rw [Findings.enum?_eq] at henum
  split at henum
  · obtain ⟨⟨id, s⟩, hglobal, hs⟩ := Option.bind_eq_some_iff.1 henum
    obtain ⟨info, hinfo⟩ := hkind hs
    obtain ⟨id', -, hmap⟩ := Option.bind_eq_some_iff.1 hglobal
    obtain ⟨s', hget, heq⟩ := Option.map_eq_some_iff.1 hmap
    obtain ⟨-, rfl⟩ := Prod.mk.inj heq
    exact (h.sound.placed hget info variants hinfo).2.2
  · obtain ⟨item, hitem, hs⟩ := Option.bind_eq_some_iff.1 henum
    obtain ⟨info, hinfo⟩ := hkind hs
    obtain ⟨e, he, hlookup⟩ := Option.bind_eq_some_iff.1 hitem
    obtain ⟨before, after, heq, -⟩ := lookup_eq_some_iff.1 hlookup
    have hmem : (n.name, item) ∈ e.items := by simp [heq]
    exact hl.nodup (mem_of_find?_eq_some he) hmem hinfo

lemma InModule.distinct (h : InModule σ f) (hl : σ.library.Analyzed) : (constructorsOf (f.enum? σ)).Distinct := by
  intro t all hall
  unfold constructorsOf at hall
  split at hall
  · cases hall
    decide
  · cases hall
    simp
  · cases hall
    simp
  · cases hall
    simp
  · obtain ⟨⟨params, variants⟩, henum, rfl⟩ := Option.map_eq_some_iff.1 hall
    rename_i n args
    have hnames := (h.nodup_variants hl henum).map (f := Ctor.variant n.name) fun a b hab => by
      simpa using hab
    simpa [map_map, Function.comp_def] using hnames
  · cases hall

end SourceCheck
