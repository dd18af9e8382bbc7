import SourceCheck.Proofs.Analysis.Collected
import SourceCheck.Proofs.Symbol.Scopes

/-!
# The types that are in scope

What a body may mention: type parameters in scope, and structs and enums with their arities. `TypeScope.Knows` and
`TypeScope.Reads` say that the table and the setting tell of no other types. A run that starts so stays so: it keeps
to `TypeScope.frame`.
-/

namespace SourceCheck

open SymbolTable

variable {S : TypeScope} {σ : Setting} {name module : String} {s : Symbol} {k : SymbolKind} {f : Findings}

/-! ### Scopes -/

structure TypeScope where
  module : String
  params : String → Prop
  declared : Nominal → List String
  generic : String → Bool
  imports : String → Prop
  place : Nat × Nat → Prop

namespace TypeScope

/-- A struct or enum with as many arguments as type parameters. -/
def nominal (S : TypeScope) (n : Nominal) (k : Nat) : Prop :=
  k = (S.declared n).length

abbrev Admits (S : TypeScope) (t : Ty) : Prop :=
  t.Formed S.params S.nominal

def Unrestricted (S : TypeScope) : Prop :=
  ∀ x, S.params x

/-- A generic name. Where every type parameter is in scope, it need not be known. -/
def Generic (S : TypeScope) (name : String) : Prop :=
  S.generic name = true ∨ S.Unrestricted

structure Kind (S : TypeScope) (module name : String) (k : SymbolKind) : Prop where
  formed : k.Formed False S.nominal
  nominal : ∀ info, k.nominalInfo? = some info →
    info.nominal = ⟨module, name⟩ ∧ info.typeParams = S.declared info.nominal
  generic : ∀ n ∈ k.generics name, S.Generic n

def Local (S : TypeScope) (name : String) : SymbolKind → Prop
  | .variable t _ _ => S.Admits t
  | .typeParam => S.params name
  | _ => True

/-- A setting that tells of types in scope only. -/
structure Reads (S : TypeScope) (σ : Setting) : Prop where
  module : σ.module = S.module
  exported : ∀ target e member item, target ≠ S.module → σ.library.module? target = some e →
    e.item? member = some item → S.Kind target member item.kind
  returned : ∀ c ∈ σ.function, S.Admits c.returnType

lemma Reads.withConstants (h : S.Reads σ) {constants} : S.Reads { σ with constants } :=
  ⟨h.module, h.exported, h.returned⟩

structure Knows (S : TypeScope) (t : SymbolTable) : Prop where
  sound : t.Sound S.module
  kinds : ∀ id s, t.get? id = some s → S.Kind S.module s.name s.kind
  imported : ∀ id s, t.get? id = some s → ∀ path target, s.kind = .module path (some target) → S.imports target
  visible : ∀ name s, t.symbol? name = some s → S.Local name s.kind

variable {S : TypeScope} {t t' : SymbolTable} {σ : Setting}

/-! ### What names stand for -/

lemma Knows.symbol? (h : S.Knows t) (hs : t.symbol? name = some s) :
    S.Kind S.module name s.kind ∧ S.Local name s.kind ∧
      ∀ path target, s.kind = .module path (some target) → S.imports target := by
  obtain ⟨id, hlookup, hget⟩ := Option.bind_eq_some_iff.1 hs
  obtain ⟨i, hin⟩ := lookupIn_of_lookupFrom hlookup
  obtain ⟨c, hscope, hmem⟩ := mem_of_lookupIn hin
  obtain ⟨s', hget', hname, -⟩ := h.sound.linked hscope hmem
  obtain rfl : s' = s := Option.some.inj (hget'.symm.trans hget)
  exact ⟨hname ▸ h.kinds id s' hget, h.visible name s' hs, h.imported id s' hget⟩

lemma Knows.global? (h : S.Knows t) {id} (hs : t.global? name = some (id, s)) : S.Kind S.module name s.kind :=
  h.sound.name_eq hs ▸ h.kinds id s (get?_of_global? hs)

lemma Knows.nominal? {f : Findings} (h : S.Knows f.symbols) (hσ : S.Reads σ) {n : Nominal} {k}
    (hk : f.nominal? σ n = some k) : S.Kind n.module n.name k := by
  rw [Findings.nominal?] at hk
  split at hk
  · rename_i hmodule
    obtain ⟨p, hp, rfl⟩ := Option.map_eq_some_iff.1 hk
    rw [hmodule, hσ.module]
    exact h.global? hp
  · rename_i hmodule
    obtain ⟨item, hitem, rfl⟩ := Option.map_eq_some_iff.1 hk
    obtain ⟨e, he, hitem⟩ := Option.bind_eq_some_iff.1 hitem
    exact hσ.exported _ e _ item (hσ.module ▸ hmodule) he hitem

/-! ### New scopes and names -/

lemma Knows.enter (h : S.Knows t) (hopen : t.Open) (kind) : S.Knows (t.enter kind) where
  sound := h.sound.enter kind
  kinds := h.kinds
  imported := h.imported
  visible name s hs := h.visible name s (by rwa [symbol?_enter hopen kind] at hs)

lemma Knows.leave (h : S.Knows t) (hopen : t.Open) (h' : S.Knows t') (hr : t.Restores t'.leave) : S.Knows t'.leave where
  sound := h'.sound.leave
  kinds id s hget := by
    obtain ⟨i, hleave⟩ := leave_eq t'
    rw [hleave] at hget
    exact h'.kinds id s hget
  imported id s hget := by
    obtain ⟨i, hleave⟩ := leave_eq t'
    rw [hleave] at hget
    exact h'.imported id s hget
  visible name s hs := h.visible name s (by rwa [hr.symbol? h.sound hopen] at hs)

structure Declarable (S : TypeScope) (s : Symbol) : Prop where
  isLocal : s.kind.isLocal = true
  admitted : S.Local s.name s.kind

lemma kind_of_isLocal (h : k.isLocal = true) (module name) : S.Kind module name k := by
  match k with
  | .variable .. | .typeParam =>
    exact { formed := trivial, nominal := nofun, generic := fun _ hn => absurd hn List.not_mem_nil }

lemma Knows.define (h : S.Knows t) (hopen : t.Open) {s id}
    (hdefine : t.define s = .ok (id, t')) (hs : S.Declarable s) : S.Knows t' where
  sound := h.sound.define hdefine (Findings.placed_of_isLocal hs.isLocal)
  kinds k sym hget := by
    rw [get?_define hdefine] at hget
    split at hget
    · cases hget
      exact kind_of_isLocal hs.isLocal _ _
    · exact h.kinds k sym hget
  imported k sym hget path target hkind := by
    rw [get?_define hdefine] at hget
    split at hget
    · cases hget
      have hlocal := hs.isLocal
      rw [show s.kind = .module path (some target) from hkind] at hlocal
      cases hlocal
    · exact h.imported k sym hget path target hkind
  visible name sym hsym := by
    rw [symbol?_define h.sound hopen hdefine] at hsym
    split at hsym
    · rename_i hname
      cases hsym
      exact hname ▸ hs.admitted
    · exact h.visible name sym hsym

/-! ### Declarations that are checked -/

lemma Kind.const {u v w} (h : S.Kind module name (.const u v)) : S.Kind module name (.const u w) where
  formed := h.formed
  nominal := nofun
  generic _ hn := absurd hn List.not_mem_nil

lemma Knows.steps {g} (h : S.Knows f.symbols) (hsteps : Findings.Steps f g)
    (hvisible : ∀ name s, g.symbols.symbol? name = some s → S.Local name s.kind) : S.Knows g.symbols where
  sound := hsteps.sound h.sound
  kinds := by
    refine hsteps.forall_symbols (P := fun s => S.Kind S.module s.name s.kind)
      (fun s hs => kind_of_isLocal hs _ _) (fun s u v w hs hk => ?_) h.kinds
    rw [hs] at hk
    exact hk.const
  imported := by
    refine hsteps.forall_symbols
      (P := fun s => ∀ path target, s.kind = .module path (some target) → S.imports target)
      (fun s hs path target hk => ?_) (fun s u v w _ _ path target hk => by cases hk) h.imported
    rw [hk] at hs
    cases hs
  visible := hvisible

/-! ### Scopes in scopes -/

/-- A scope in which at least the same is known. -/
structure Inner (S B : TypeScope) : Prop where
  module : B.module = S.module
  declared : B.declared = S.declared
  imports : B.imports = S.imports
  params : ∀ x, S.params x → B.params x
  generic : ∀ n, S.Generic n → B.Generic n

namespace Inner

variable {B : TypeScope}

lemma nominal (h : S.Inner B) {n k} (hn : S.nominal n k) : B.nominal n k := by
  rw [TypeScope.nominal, h.declared]
  exact hn

lemma admits (h : S.Inner B) {t} (ht : S.Admits t) : B.Admits t :=
  ht.imp h.params fun _ _ => h.nominal

lemma kind (h : S.Inner B) (hk : S.Kind module name k) : B.Kind module name k where
  formed := hk.formed.imp id fun _ _ => h.nominal
  nominal := h.declared ▸ hk.nominal
  generic n hn := h.generic n (hk.generic n hn)

lemma reads (h : S.Inner B) (hσ : S.Reads σ) : B.Reads σ where
  module := hσ.module.trans h.module.symm
  exported target e member item htarget he hitem :=
    h.kind (hσ.exported target e member item (h.module ▸ htarget) he hitem)
  returned c hc := h.admits (hσ.returned c hc)

lemma knows (h : S.Inner B) (ht : S.Knows t) : B.Knows t where
  sound := h.module ▸ ht.sound
  kinds id s hget := h.module ▸ h.kind (ht.kinds id s hget)
  imported := h.imports ▸ ht.imported
  visible name s hs := by
    have hlocal := ht.visible name s hs
    cases hk : s.kind with
    | typeParam =>
      rw [hk] at hlocal
      exact h.params name hlocal
    | _ =>
      rw [hk] at hlocal
      first | exact h.admits hlocal | exact trivial

end Inner

/-! ### Runs in a scope -/

/-- A noted type may be mentioned, and its place is one of the scope. -/
def Noted (S : TypeScope) (f g : Findings) : Prop :=
  ∀ entry ∈ g.exprTypes, entry ∈ f.exprTypes ∨ S.place entry.1 ∧ S.Admits entry.2

lemma Noted.refl (f) : S.Noted f f :=
  fun _ h => .inl h

lemma Noted.trans {g h} (hfg : S.Noted f g) (hgh : S.Noted g h) : S.Noted f h :=
  fun entry hentry => (hgh entry hentry).elim (hfg entry) .inr

/-- A single run in a scope: what is declared and noted mentions what is in scope. -/
def frame (S : TypeScope) : Frame where
  params := S.params
  nominal := S.nominal
  declared n params := params = S.declared n
  own _ := True
  generic := S.generic
  imports := S.imports
  place := S.place
  reads σ σ' := σ' = σ ∧ S.Reads σ
  knows f f' := f' = f ∧ S.Knows f.symbols ∧ f.symbols.Open
  goes f g := f.symbols.Extends g.symbols ∧ S.Noted f g

lemma Kind.frame (h : S.Kind module name k) : S.frame.Kind name k where
  formed := h.formed.imp False.elim fun _ _ hn => hn
  generic := h.generic

lemma Knows.seen (h : S.Knows t) (hs : t.symbol? name = some s) : S.frame.Seen name s.kind := by
  obtain ⟨hkind, hlocal, himported⟩ := h.symbol? hs
  refine ⟨hkind.formed.imp False.elim fun _ _ hn => ⟨hn, trivial⟩, fun info hinfo => ?_, hkind.generic,
    ?_, himported⟩
  · exact ⟨(hkind.nominal info hinfo).2, trivial⟩
  · cases hk : s.kind <;> rw [hk] at hlocal <;> exact hlocal

instance : S.frame.Lawful where
  length_eq hn hparams := .inl (by rw [hparams]; exact hn)
  params_eq hparams hothers := .inl (hparams.trans hothers.symm)
  nominal hparams := by rw [hparams]; rfl
  refl f := ⟨.refl _, .refl f⟩
  trans hfg hgh := ⟨hfg.1.trans hgh.1, hfg.2.trans hgh.2⟩
  report p span hf _ := ⟨⟨by rw [hf.1], hf.2⟩, .refl _, .refl _⟩
  type {_ _ span t} hf hspan ht := by
    refine ⟨⟨by rw [hf.1], hf.2⟩, .refl _, fun entry hentry => ?_⟩
    obtain rfl | hentry := List.mem_cons.mp hentry
    · exact .inr ⟨hspan, ht⟩
    · exact .inl hentry
  call span target hf := ⟨⟨by rw [hf.1], hf.2⟩, .refl _, .refl _⟩
  size span n hf := ⟨⟨by rw [hf.1], hf.2⟩, .refl _, .refl _⟩
  module hσ := by rw [hσ.1]
  inside kind hf := by rw [hf.1]
  placeProblem? usage root hf := by rw [hf.1]
  exprTypes hf := by rw [hf.1]
  seen hf hs := hf.2.1.seen hs
  symbol? name hf := by rw [hf.1]
  nominalKind hσ hf hn hk := by
    have hkind := hf.2.1.nominal? hσ.2 hk
    refine ⟨hkind.frame, fun info hinfo => ?_⟩
    obtain ⟨hnominal, hparams⟩ := hkind.nominal info hinfo
    exact hparams.trans (congrArg S.declared hnominal)
  nominal? hσ hf _ := by rw [hσ.1, hf.1]
  library hσ _ := by rw [hσ.1]
  layout hσ hf _ := by rw [hσ.1, hf.1]

lemma foldable : S.frame.Foldable id where
  name _ := rfl
  value _ := rfl
  reads hσ := by simp [hσ.1]
  knows hf := by simp [hf.1]
  changes folding constValues hf := ⟨⟨by rw [hf.1], hf.2⟩, .refl _, .refl _⟩
  cycle path span hf := ⟨⟨by rw [hf.1], hf.2⟩, .refl _, .refl _⟩

instance : S.frame.Folding :=
  foldable.folding

instance : S.frame.Declaring where
  define_ok hf hs hdefine := by
    have hextends := SymbolTable.extends_define hdefine
    refine ⟨_, by rw [hf.1, hdefine], ⟨by rw [hf.1], ?_, hextends.isOpen hf.2.2⟩, hextends, .refl _⟩
    exact hf.2.1.define hf.2.2 hdefine ⟨hs.isLocal, hs.admitted⟩
  define_error hf hdefine := by rw [hf.1, hdefine]

lemma checking (h : ¬ S.imports S.module) : S.frame.Checking :=
  have : S.frame.Inferring :=
    { exported := fun hσ htarget he hitem => (hσ.2.exported _ _ _ _ (fun e => h (e ▸ htarget)) he hitem).frame }
  { remark := fun p span hf _ => ⟨⟨by rw [hf.1]; rfl, hf.2⟩, .refl _, .refl _⟩
    enter := fun kind hf => ⟨by rw [hf.1], hf.2.1.enter hf.2.2 kind, isOpen_enter _ kind⟩
    leave := fun kind hf hgoes hg => by
      have hrestores := hgoes.1.restores_leave hf.2.2
      refine ⟨⟨by rw [hg.1], hf.2.1.leave hf.2.2 hg.2.1 hrestores, hrestores.isOpen hf.2.2⟩,
        hrestores.toExtends, ?_⟩
      exact hgoes.2
    returned := fun hσ => ⟨by rw [hσ.1], hσ.2.returned⟩
    function := fun {_ _ c} hσ hc =>
      ⟨by rw [hσ.1], hσ.2.module, hσ.2.exported, fun d hd => by cases hd; exact hc⟩
    armPattern := fun p ht => scoped_checkArmPattern (fun _ _ hf => by rw [hf.1]) ht p }

end TypeScope

open TypeScope Check

lemma Check.Runs.restores {α : Type} {still : Prop} {c c'} {Q : α → Prop} (h : Runs S.frame still c c' Q) (kind)
    (hσ : S.Reads σ) (hf : S.Knows f.symbols) (hopen : f.symbols.Open) :
    Q (Check.inScope kind c σ f).1 ∧ S.Knows (Check.inScope kind c σ f).2.symbols ∧
      f.symbols.Restores (Check.inScope kind c σ f).2.symbols ∧ S.Noted f (Check.inScope kind c σ f).2 := by
  have hends := @h σ σ (f.enter kind) _ ⟨rfl, hσ⟩ ⟨rfl, hf.enter hopen kind, isOpen_enter _ kind⟩
  have hrestores := hends.goes.1.restores_leave hopen
  exact ⟨hends.result, hf.leave hopen hends.knows.2.1 hrestores, hrestores, hends.goes.2⟩

lemma noted_checkBody {B} (hinner : S.Inner B) (himports : ¬ B.imports B.module) {d sig owner}
    (h : B.frame.Hosts d sig owner) (hguard : Stmt.allGuarded B.generic d.body = true)
    (hcovers : B.frame.Covers (Stmt.listNodes (fun _ => true) d.body)) (hσ : S.Reads σ) (hf : S.Knows f.symbols)
    (hopen : f.symbols.Open) :
    f.symbols.Restores (checkBody d sig owner σ f).2.symbols ∧ B.Noted f (checkBody d sig owner σ f).2 := by
  have := B.checking himports
  have hrest : Heeds B.frame (do
      checkConstantTime d.annotations d.body
      reportIf (sig.returnType.mustReturn && !Stmt.anyReturns (← get).exprTypes d.body)
        (.missingReturn d.name.node sig.returnType) d.name.span) := by
    have htime := infers_checkConstantTime (F := B.frame) d.annotations d.body
    rw [show B.frame.annotations = id from rfl, Stmt.reannotateAll_id] at htime
    refine htime.bind fun _ _ => runs_get_bind fun f f' hf => ?_
    rw [hf.1]
    exact runs_reportIf _ _ _ rfl
  obtain ⟨-, hafter, hrestores, hnoted⟩ := (scoped_checkBodyScope h hguard hcovers).restores
    (if owner.isSome then .method else .function) (hinner.reads hσ) (hinner.knows hf) hopen
  have hends := hrest ⟨rfl, hinner.reads hσ⟩ ⟨rfl, hafter, hrestores.isOpen hopen⟩
  exact ⟨hends.symbols trivial ▸ hrestores, hnoted.trans hends.goes.2⟩

end SourceCheck
