import SourceCheck.Analysis.Declaration
import SourceCheck.Proofs.Analysis.Steps
import SourceCheck.Proofs.Symbol.Unplaced
import SourceCheck.Proofs.Ty.Formed

/-!
# Frames for runs of the analysis

Each step of the analysis keeps to a frame: it mentions certain types, runs alike in two settings, and changes what is
known in certain ways. `Check.Runs` says that two steps keep to a frame. The checkers keep to every frame whose single
steps do (`Frame.Lawful`).
-/

namespace SourceCheck

open Option

attribute [local simp] TypeExpr.nodes Expr.nodes

/-! ### Declarations -/

def NominalInfo.unowned (info : NominalInfo) : NominalInfo :=
  { info with ownership := none }

def SymbolKind.unowned : SymbolKind → SymbolKind
  | .struct info fields => .struct info.unowned fields
  | .enum info variants => .enum info.unowned variants
  | k => k

/-- Types mention own type parameters and those of the owner only, unless all are free. -/
def Signature.Formed (free : Prop) (N : Nominal → Nat → Prop) (owner : List String) (s : Signature) : Prop :=
  (∀ p ∈ s.params, p.2.Formed (fun x => free ∨ x ∈ owner ++ s.typeParams) N) ∧
    s.returnType.Formed (fun x => free ∨ x ∈ owner ++ s.typeParams) N

def Signature.isGeneric (s : Signature) : Bool :=
  !s.typeParams.isEmpty

/-- Types mention no other type parameters than they may. -/
def SymbolKind.Formed (free : Prop) (N : Nominal → Nat → Prop) : SymbolKind → Prop
  | .const t _ => t.Formed (fun _ => free) N
  | .function info => ∀ s ∈ info.signatures, s.Formed free N []
  | .struct info fields =>
    (∀ m ∈ info.methods, m.2.signature.Formed free N info.typeParams) ∧
      ∀ f ∈ fields, f.type.Formed (fun x => free ∨ x ∈ info.typeParams) N
  | .enum info variants =>
    (∀ m ∈ info.methods, m.2.signature.Formed free N info.typeParams) ∧
      ∀ v ∈ variants, Ty.AllFormed (fun x => free ∨ x ∈ info.typeParams) N v.payload
  | .variable .. | .typeParam | .module .. => True

section

variable {free free' : Prop} {N N' : Nominal → Nat → Prop} (hfree : free → free') (hN : ∀ n k, N n k → N' n k)

include hfree hN

lemma Signature.Formed.imp {owner} {s : Signature} (h : s.Formed free N owner) : s.Formed free' N' owner :=
  ⟨fun p hp => (h.1 p hp).imp (fun _ => .imp_left hfree) hN, h.2.imp (fun _ => .imp_left hfree) hN⟩

lemma SymbolKind.Formed.imp {k : SymbolKind} (h : k.Formed free N) : k.Formed free' N' := by
  match k with
  | .const .. => exact Ty.Formed.imp (fun _ => hfree) hN h
  | .function _ => exact fun s hs => (h s hs).imp hfree hN
  | .struct .. =>
    exact ⟨fun m hm => (h.1 m hm).imp hfree hN, fun f hf => (h.2 f hf).imp (fun _ => .imp_left hfree) hN⟩
  | .enum .. =>
    exact ⟨fun m hm => (h.1 m hm).imp hfree hN, fun v hv => (h.2 v hv).imp (fun _ => .imp_left hfree) hN⟩
  | .variable .. | .typeParam | .module .. => exact trivial

end

lemma SymbolKind.formed_of_forall {free : Prop} {N : Nominal → Nat → Prop} (hfree : free) (hN : ∀ n k, N n k)
    (k : SymbolKind) : k.Formed free N := by
  have htype {P : String → Prop} (t : Ty) : t.Formed (fun x => free ∨ P x) N :=
    Ty.formed_of_forall (fun _ => .inl hfree) hN t
  match k with
  | .const t _ => exact Ty.formed_of_forall (fun _ => hfree) hN t
  | .function _ => exact fun s _ => ⟨fun _ _ => htype _, htype _⟩
  | .struct .. => exact ⟨fun m _ => ⟨fun _ _ => htype _, htype _⟩, fun _ _ => htype _⟩
  | .enum .. =>
    refine ⟨fun m _ => ⟨fun _ _ => htype _, htype _⟩, fun v _ => ?_⟩
    exact Ty.allFormed_of_forall (fun _ => .inl hfree) hN v.payload
  | .variable .. | .typeParam | .module .. => exact trivial

/-- The generic names of a declaration: its own and those of its methods. -/
def SymbolKind.generics (name : String) : SymbolKind → List String
  | .function info => if info.signatures.any Signature.isGeneric then [name] else []
  | .struct info _ | .enum info _ =>
    (if info.typeParams.isEmpty then [] else [name]) ++ (info.methods.filter (·.2.signature.isGeneric)).map (·.1)
  | _ => []

/-- Problems with rules of their own: cycles of constants, and annotations. -/
def SemanticProblem.isSpecial : SemanticProblem → Bool
  | .constCycle _ => true
  | p => p.kind = .annotationConflict

/-! ### Frames -/

/-- What runs may mention, what they are compared with, and how they may change what is known. -/
structure Frame where
  params : String → Prop
  /-- The structs and enums that may be mentioned, with their arities. -/
  nominal : Nominal → Nat → Prop
  declared : Nominal → List String → Prop
  own : Nominal → Prop
  generic : String → Bool
  imports : String → Prop
  place : Nat × Nat → Prop
  /-- Whether the second run is that of a tree without annotations. -/
  bare : Bool := false
  reads : Setting → Setting → Prop
  knows : Findings → Findings → Prop
  goes : Findings → Findings → Prop

namespace Frame

variable {F : Frame}

def annotations (F : Frame) : List Annotation → List Annotation :=
  if F.bare then fun _ => [] else id

abbrev Admits (F : Frame) (t : Ty) : Prop :=
  t.Formed F.params F.nominal

/-- A struct or enum that may be written, with an arity. -/
def Names (F : Frame) (n : Nominal) (k : Nat) : Prop :=
  F.nominal n k ∧ F.own n

abbrev Writes (F : Frame) (t : Ty) : Prop :=
  t.Formed F.params F.Names

def Expects (F : Frame) (expected : Option Ty) : Prop :=
  ∀ t ∈ expected, F.Admits t

def Unrestricted (F : Frame) : Prop :=
  ∀ x, F.params x

/-- A generic name. Where every type parameter is in scope, it need not be known. -/
def Generic (F : Frame) (name : String) : Prop :=
  F.generic name = true ∨ F.Unrestricted

structure Kind (F : Frame) (name : String) (k : SymbolKind) : Prop where
  formed : k.Formed F.Unrestricted F.nominal
  generic : ∀ n ∈ k.generics name, F.Generic n

def Local (F : Frame) (name : String) : SymbolKind → Prop
  | .variable t _ _ => F.Admits t
  | .typeParam => F.params name
  | _ => True

structure Seen (F : Frame) (name : String) (k : SymbolKind) : Prop where
  owned : k.Formed F.Unrestricted F.Names
  declared : ∀ info, k.nominalInfo? = some info → F.declared info.nominal info.typeParams ∧ F.own info.nominal
  generic : ∀ n ∈ k.generics name, F.Generic n
  isLocal : F.Local name k
  imported : ∀ path target, k = .module path (some target) → F.imports target

lemma Seen.kind {name k} (h : F.Seen name k) : F.Kind name k where
  formed := h.owned.imp id fun _ _ => And.left
  generic := h.generic

lemma admits_of_writes {t} (h : F.Writes t) : F.Admits t :=
  h.imp (fun _ => id) fun _ _ => And.left

lemma allAdmits_of_allWrites {ts} (h : Ty.AllFormed F.params F.Names ts) : Ty.AllFormed F.params F.nominal ts :=
  h.imp (fun _ => id) fun _ _ => And.left

lemma expects_none : F.Expects none :=
  fun _ h => by cases h

lemma expects_some {t} (h : F.Admits t) : F.Expects (some t) := by
  intro u hu
  cases hu
  exact h

lemma expects_resolved? {t} (h : F.Admits t) : F.Expects t.resolved? := by
  unfold Ty.resolved?
  split
  · exact expects_none
  · exact expects_some h

lemma Expects.element? {expected} (h : F.Expects expected) : F.Expects (expected.bind Ty.element?) := by
  intro t ht
  obtain ⟨u, hu, hut⟩ := bind_eq_some_iff.1 ht
  have hu := h u hu
  cases u with
  | slice elem | array elem n =>
    cases hut
    exact hu
  | _ => cases hut

lemma Expects.payload? {expected} (h : F.Expects expected) (v : BuiltinVariant) :
    F.Expects (expected.bind v.payload?) := by
  intro t ht
  obtain ⟨u, hu, hut⟩ := bind_eq_some_iff.1 ht
  have hu := h u hu
  unfold BuiltinVariant.payload? at hut
  split at hut <;> cases hut
  · exact hu.1
  · exact hu.2
  · exact hu

/-- A frame that the steps in types and constants keep to, but for the look-up of names. -/
class Tame (F : Frame) : Prop where
  nominal {n params} : F.declared n params → F.nominal n params.length
  refl (f) : F.goes f f
  trans {f g h} : F.goes f g → F.goes g h → F.goes f h
  report {f f'} (p : SemanticProblem) (span) : F.knows f f' → p.isSpecial = false →
    F.knows (f.noted p span) (f'.noted p span) ∧ F.goes f (f.noted p span)
  size {f f'} (span n) : F.knows f f' →
    F.knows { f with arraySizes := f.arraySizes.set span n } { f' with arraySizes := f'.arraySizes.set span n } ∧
      F.goes f { f with arraySizes := f.arraySizes.set span n }
  library {σ σ' target} : F.reads σ σ' → F.imports target →
    (σ'.library.module? target).map (·.unplaced) = (σ.library.module? target).map (·.unplaced)
  layout {σ σ' f f' t} :
    F.reads σ σ' → F.knows f f' → F.Writes t → t.layout (f'.nominals σ') = t.layout (f.nominals σ)

/-- A frame that single steps keep to. Places in other modules and memory strategies make no difference. -/
class Lawful (F : Frame) : Prop extends F.Tame where
  /-- The arity is the number of type parameters, unless these do not matter. -/
  length_eq {n k params} : F.nominal n k → F.declared n params → k = params.length ∨ F.Unrestricted
  params_eq {n params others} : F.declared n params → F.declared n others → params = others ∨ F.Unrestricted
  type {f f'} {span : Span} {t} : F.knows f f' → F.place span.key → F.Admits t →
    F.knows { f with exprTypes := f.exprTypes.set span t } { f' with exprTypes := f'.exprTypes.set span t } ∧
      F.goes f { f with exprTypes := f.exprTypes.set span t }
  call {f f'} (span target) : F.knows f f' → F.knows { f with callTargets := f.callTargets.set span target }
        { f' with callTargets := f'.callTargets.set span target } ∧
      F.goes f { f with callTargets := f.callTargets.set span target }
  module {σ σ'} : F.reads σ σ' → σ'.module = σ.module
  inside {f f'} (kind) : F.knows f f' → f'.symbols.inside kind = f.symbols.inside kind
  placeProblem? {f f'} (usage root) : F.knows f f' → placeProblem? f' usage root = placeProblem? f usage root
  exprTypes {f f'} : F.knows f f' → f'.exprTypes = f.exprTypes
  seen {f f'} {name : String} {s} : F.knows f f' → f.symbols.symbol? name = some s → F.Seen name s.kind
  symbol? {f f'} (name : String) : F.knows f f' →
    (f'.symbols.symbol? name).map (·.kind.unowned) = (f.symbols.symbol? name).map (·.kind.unowned)
  nominalKind {σ σ' f f' n m k} : F.reads σ σ' → F.knows f f' → F.nominal n m → f.nominal? σ n = some k →
    F.Kind n.name k ∧ ∀ info, k.nominalInfo? = some info → F.declared n info.typeParams
  nominal? {σ σ' f f' n m} : F.reads σ σ' → F.knows f f' → F.nominal n m →
    (f'.nominal? σ' n).map (·.unowned.unplaced) = (f.nominal? σ n).map (·.unowned.unplaced)

/-- A name that both runs look up alike. -/
def Finds (F : Frame) (name : String) : Prop :=
  ∀ ⦃f f'⦄, F.knows f f' → (∀ s, f.symbols.symbol? name = some s → F.Seen name s.kind) ∧
    (f'.symbols.symbol? name).map (·.kind.unowned) = (f.symbols.symbol? name).map (·.kind.unowned)

lemma Lawful.finds [F.Lawful] (name) : F.Finds name :=
  fun _ _ hf => ⟨fun _ => Lawful.seen hf, Lawful.symbol? name hf⟩

end Frame

namespace Check

open SourceCheck.Frame

variable {α β : Type} {F : Frame} {still : Prop} {c c' : Check α} {Q : α → Prop} {R : β → Prop}

/-- How two runs from `f` end that keep to a frame. -/
structure Ends (F : Frame) (still : Prop) (f : Findings) (r r' : α × Findings) (Q : α → Prop) : Prop where
  same : r'.1 = r.1
  result : Q r.1
  knows : F.knows r.2 r'.2
  goes : F.goes f r.2
  symbols : still → r.2.symbols = f.symbols

/-- Two steps that keep to a frame, declare nothing if still, and give the same, as `Q` says. -/
def Runs (F : Frame) (still : Prop) (c c' : Check α) (Q : α → Prop) : Prop :=
  ∀ ⦃σ σ' f f'⦄, F.reads σ σ' → F.knows f f' → Ends F still f (c σ f) (c' σ' f') Q

abbrev Infers (F : Frame) (c : Check α) (Q : α → Prop) : Prop :=
  Runs F True c c Q

abbrev Scoped (F : Frame) (c c' : Check α) (Q : α → Prop) : Prop :=
  Runs F False c c' Q

abbrev Heeds (F : Frame) (c : Check α) : Prop :=
  Infers F c fun _ => True

abbrev Obeys (F : Frame) (c c' : Check α) : Prop :=
  Scoped F c c' fun _ => True

lemma Runs.scoped (h : Runs F still c c' Q) : Scoped F c c' Q :=
  fun _ _ _ _ hσ hf => { h hσ hf with symbols := False.elim }

lemma Runs.heeds (h : Runs F still c c' Q) : Runs F still c c' fun _ => True :=
  fun _ _ _ _ hσ hf => { h hσ hf with result := trivial }

/-! ### Ways of putting steps together -/

lemma runs_ite {p : Prop} [Decidable p] {d d'} (hc : Runs F still c c' Q) (hd : Runs F still d d' Q) :
    Runs F still (if p then c else d) (if p then c' else d') Q := by
  split
  · exact hc
  · exact hd

section

variable [F.Tame]

lemma runs_pure {a} (h : Q a) : Runs F still (pure a) (pure a) Q :=
  fun _ _ f _ _ hf => ⟨rfl, h, hf, Tame.refl f, fun _ => rfl⟩

lemma Runs.bind {k k'} (h : Runs F still c c' Q) (hk : ∀ a, Q a → Runs F still (k a) (k' a) R) :
    Runs F still (c >>= k) (c' >>= k') R := by
  intro σ σ' f f' hσ hf
  have hc := h hσ hf
  have hrest := hk _ hc.result hσ hc.knows
  rw [run_bind, run_bind, hc.same]
  exact { hrest with
    goes := Tame.trans hc.goes hrest.goes
    symbols := fun hstill => (hrest.symbols hstill).trans (hc.symbols hstill) }

lemma runs_forM {l : List α} {k k'} (h : ∀ a ∈ l, Runs F still (k a) (k' a) fun _ => True) :
    Runs F still (l.forM k) (l.forM k') fun _ => True := by
  induction l with
  | nil => exact runs_pure trivial
  | cons a l ih => exact (h a (by simp)).bind fun _ _ => ih fun b hb => h b (by simp [hb])

lemma runs_option_forM {o : Option α} {k k'}
    (h : ∀ a ∈ o, Runs F still (k a) (k' a) fun _ => True) : Runs F still (o.forM k) (o.forM k') fun _ => True := by
  cases o with
  | none => exact runs_pure trivial
  | some a => exact h a rfl

lemma infers_mapM {l : List α} {k} (h : ∀ a ∈ l, Infers F (k a) R) :
    Infers F (l.mapM k) fun bs => ∀ b ∈ bs, R b := by
  induction l with
  | nil => exact runs_pure (by simp)
  | cons a l ih =>
    rw [List.mapM_cons]
    refine (h a (by simp)).bind fun b hb => ?_
    refine (ih fun c hc => h c (by simp [hc])).bind fun bs hbs => runs_pure ?_
    exact List.forall_mem_cons.2 ⟨hb, hbs⟩

lemma infers_foldlM {l : List α} {k b} (hb : R b)
    (h : ∀ b, R b → ∀ a ∈ l, Infers F (k b a) R) : Infers F (l.foldlM k b) R := by
  induction l generalizing b with
  | nil => exact runs_pure hb
  | cons a l ih =>
    rw [List.foldlM_cons]
    exact (h b hb a (by simp)).bind fun c hc => ih hc fun d hd e he => h d hd e (by simp [he])

end

lemma runs_get_bind {k k'} (h : ∀ f f', F.knows f f' → Runs F still (k f) (k' f') Q) :
    Runs F still (get >>= k) (get >>= k') Q :=
  fun _ _ f f' hσ hf => h f f' hf hσ hf

lemma runs_read_bind {k k'} (h : ∀ σ σ', F.reads σ σ' → Runs F still (k σ) (k' σ') Q) :
    Runs F still (read >>= k) (read >>= k') Q :=
  fun σ σ' _ _ hσ hf => h σ σ' hσ hσ hf

/-! ### Single steps -/

lemma runs_kind?_bind_of_finds {name k k'} (hname : F.Finds name)
    (h : ∀ o, (∀ kind ∈ o, F.Seen name kind) → Runs F still (k o) (k' o) Q)
    (howned : ∀ kind : SymbolKind, k' (some kind.unowned) = k' (some kind) := by intro kind; cases kind <;> rfl) :
    Runs F still (kind? name >>= k) (kind? name >>= k') Q := by
  intro σ σ' f f' hσ hf
  have hsame : k' ((f'.symbols.symbol? name).map (·.kind)) = k' ((f.symbols.symbol? name).map (·.kind)) :=
    eq_of_map_unplaced_eq (by rw [map_map, map_map]; exact (hname hf).2) k' howned
  rw [run_kind?_bind, run_kind?_bind, hsame]
  refine h _ (fun kind hkind => ?_) hσ hf
  obtain ⟨s, hs, rfl⟩ := map_eq_some_iff.1 hkind
  exact (hname hf).1 s hs

section

variable [F.Tame]

lemma runs_report (p span) (hp : p.isSpecial = false) : Runs F still (report p span) (report p span) fun _ => True :=
  fun _ _ _ _ _ hf => ⟨rfl, trivial, (Tame.report p span hf hp).1, (Tame.report p span hf hp).2, fun _ => rfl⟩

lemma runs_reportIf (wrong p span) (hp : p.isSpecial = false) :
    Runs F still (reportIf wrong p span) (reportIf wrong p span) fun _ => True :=
  runs_ite (runs_report p span hp) (runs_pure trivial)

lemma runs_report_bind {p span a} (h : Q a) (hp : p.isSpecial = false) :
    Runs F still (report p span >>= fun _ => pure a) (report p span >>= fun _ => pure a) Q :=
  (runs_report p span hp).bind fun _ _ => runs_pure h

lemma runs_refuse (p span) (hp : p.isSpecial = false) : Runs F still (refuse p span) (refuse p span) F.Writes :=
  runs_report_bind trivial hp

lemma infers_refuse (p span) (hp : p.isSpecial = false) : Infers F (refuse p span) F.Admits :=
  runs_report_bind trivial hp

lemma infers_recordArraySize (span n) : Heeds F (recordArraySize span n) :=
  fun _ _ _ _ _ hf => ⟨rfl, trivial, (Tame.size span n hf).1, (Tame.size span n hf).2, fun _ => rfl⟩

end

variable [F.Lawful]

lemma infers_recordType {span t} (hspan : F.place span.key) (ht : F.Admits t) : Heeds F (recordType span t) :=
  fun _ _ _ _ _ hf => ⟨rfl, trivial, (Lawful.type hf hspan ht).1, (Lawful.type hf hspan ht).2, fun _ => rfl⟩

lemma infers_recordCall (span target) : Heeds F (recordCall span target) :=
  fun _ _ _ _ _ hf => ⟨rfl, trivial, (Lawful.call span target hf).1, (Lawful.call span target hf).2, fun _ => rfl⟩

lemma infers_inside (kind) : Heeds F (inside kind) :=
  fun _ _ f _ _ hf => ⟨Lawful.inside kind hf, trivial, hf, Tame.refl f, fun _ => rfl⟩

lemma runs_kind?_bind {name k k'} (h : ∀ o, (∀ kind ∈ o, F.Seen name kind) → Runs F still (k o) (k' o) Q)
    (howned : ∀ kind : SymbolKind, k' (some kind.unowned) = k' (some kind) := by intro kind; cases kind <;> rfl) :
    Runs F still (kind? name >>= k) (kind? name >>= k') Q :=
  runs_kind?_bind_of_finds (Lawful.finds name) h howned

lemma infers_nominal?_bind {n m} (hn : F.nominal n m) {k}
    (hplain : ∀ kind : SymbolKind, k (some kind.unowned.unplaced) = k (some kind))
    (h : ∀ o, (∀ kind ∈ o, F.Kind n.name kind ∧
      ∀ info, kind.nominalInfo? = some info → F.declared n info.typeParams) → Infers F (k o) Q) :
    Infers F (nominal? n >>= k) Q := by
  have hrun (σ : Setting) (f : Findings) : (nominal? n >>= k) σ f = k (f.nominal? σ n) σ f := rfl
  intro σ σ' f f' hσ hf
  have hsame : k (f'.nominal? σ' n) = k (f.nominal? σ n) :=
    eq_of_map_unplaced_eq (Lawful.nominal? hσ hf hn) k hplain
  rw [hrun, hrun, hsame]
  exact h _ (fun kind hkind => Lawful.nominalKind hσ hf hn hkind) hσ hf

end Check

/-! ### Constants and types -/

open Check

variable {F : Frame}

/-- Two ways to find constants that keep to a frame, for the names asked for. -/
def Demand.Runs (F : Frame) (demand demand' : Demand)
    (asked : List String → String → Prop := fun _ _ => True) : Prop :=
  ∀ stack name span, asked stack name →
    Check.Runs F True (demand stack name span) (demand' stack name span) fun _ => True

/-- Names in the sizes of arrays are asked for behind no constant. -/
def Demand.Measures (asked : List String → String → Prop) (nodes : List Node) : Prop :=
  ∀ span elem size, .type (.array span elem size) ∈ nodes → ∀ span name, .expr (.ident span name) ∈ nodes →
    asked [] name

/-- The names that may be asked for behind given constants, and in the sizes of arrays. -/
structure Demand.Covers (asked : List String → String → Prop) (stack : List String) (nodes : List Node) : Prop where
  names : ∀ span name, .expr (.ident span name) ∈ nodes → asked stack name
  sizes : Demand.Measures asked nodes

lemma Demand.Measures.mono {asked : List String → String → Prop} {nodes nodes'}
    (h : Demand.Measures asked nodes) (hsub : nodes' ⊆ nodes) : Demand.Measures asked nodes' :=
  fun span elem size harray span' name hname => h span elem size (hsub harray) span' name (hsub hname)

lemma Demand.Covers.mono {asked : List String → String → Prop} {stack nodes nodes'}
    (h : Demand.Covers asked stack nodes) (hsub : nodes' ⊆ nodes) : Demand.Covers asked stack nodes' :=
  ⟨fun span name hname => h.names span name (hsub hname), h.sizes.mono hsub⟩

lemma Demand.covers_nil (nodes) : Demand.Covers (fun stack _ => stack = []) [] nodes :=
  ⟨fun _ _ _ => rfl, fun _ _ _ _ _ _ _ => rfl⟩

lemma Demand.covers_all (stack nodes) : Demand.Covers (fun _ _ => True) stack nodes :=
  ⟨fun _ _ _ => trivial, fun _ _ _ _ _ _ _ => trivial⟩

/-- A name that is looked up in parts of a program. -/
inductive LooksUp (nodes : List Node) : String → Prop
  | ident (span name) : .expr (.ident span name) ∈ nodes → LooksUp nodes name
  | dotted (span head member) : .expr (.dotted span head member) ∈ nodes → LooksUp nodes head.node
  | type (span name args) : .type (.named span name args) ∈ nodes → LooksUp nodes name

/-- Names in parts of a program are looked up alike. -/
def Frame.Looks (F : Frame) (nodes : List Node) : Prop :=
  ∀ name, LooksUp nodes name → F.Finds name

lemma Frame.looks_all [F.Lawful] (nodes) : F.Looks nodes :=
  fun name _ => Lawful.finds name

lemma Frame.Looks.mono {nodes nodes'} (h : F.Looks nodes) (hsub : nodes' ⊆ nodes) : F.Looks nodes' := by
  intro name hname
  cases hname with
  | ident _ _ hmem => exact h _ (.ident _ _ (hsub hmem))
  | dotted _ _ _ hmem => exact h _ (.dotted _ _ _ (hsub hmem))
  | type _ _ _ hmem => exact h _ (.type _ _ _ (hsub hmem))

section

variable [F.Tame]

lemma infers_notFoldable {α : Type} {P : Option α → Prop} (failure span) (h : P none) :
    Infers F (notFoldable failure span : Check (Option α)) P :=
  runs_report_bind h rfl

lemma infers_folded (span r) : Heeds F (folded span r) := by
  cases r with
  | ok v => exact runs_pure trivial
  | error p => exact infers_notFoldable _ _ trivial

lemma infers_foldLiteral (span value) : Heeds F (foldLiteral span value) := by
  cases value with
  | int n => exact runs_ite (runs_pure trivial) (infers_notFoldable _ _ trivial)
  | unit => exact infers_notFoldable _ _ trivial
  | _ => exact runs_pure trivial

lemma Library.map_unplaced_member? {l l' : Library} {target} (member)
    (h : ∀ name ∈ target, (l'.module? name).map (·.unplaced) = (l.module? name).map (·.unplaced)) :
    (l'.member? target member).map (fun p => (p.1, p.2.unplaced)) =
      (l.member? target member).map fun p => (p.1, p.2.unplaced) := by
  rw [← Library.member?_unplaced, ← Library.member?_unplaced]
  cases target with
  | none => rfl
  | some name => simp only [Library.member?, bind, bind_some, Library.module?_unplaced, h name rfl]

lemma infers_foldExported (span head member o) : Heeds F (foldExported span head member o) := by
  unfold foldExported
  split
  · exact runs_pure trivial
  · refine runs_ite (runs_report_bind trivial rfl) ?_
    split
    · exact runs_pure trivial
    · exact runs_report_bind trivial rfl

lemma infers_foldMember (span) {head : Name} (hhead : F.Finds head.node) (member) :
    Heeds F (foldMember span head member) := by
  refine runs_kind?_bind_of_finds hhead fun k hk => ?_
  split
  · rename_i path target
    refine runs_read_bind fun σ σ' hσ => ?_
    have hsame : foldExported span head member (σ'.library.member? target member.node) =
        foldExported span head member (σ.library.member? target member.node) := by
      refine eq_of_map_unplaced_eq (Library.map_unplaced_member? member.node fun name hname => ?_) _ ?_
      · obtain rfl := mem_def.1 hname
        exact Frame.Tame.library hσ ((hk _ rfl).imported _ _ rfl)
      · rintro ⟨module, item⟩
        cases hkind : item.kind <;> simp [foldExported, ExportedItem.unplaced, SymbolKind.unplaced, hkind]
    show Runs F True (foldExported span head member (σ.library.member? target member.node))
      (foldExported span head member (σ'.library.member? target member.node)) fun _ => True
    rw [hsame]
    exact infers_foldExported _ _ _ _
  · exact infers_notFoldable _ _ trivial
  · exact runs_report_bind trivial rfl

lemma infers_arraySize (span v) : Heeds F (arraySize span v) := by
  unfold arraySize
  split
  · exact runs_pure trivial
  · split
    · exact (infers_recordArraySize _ _).bind fun _ _ => runs_pure trivial
    · exact infers_notFoldable _ _ trivial
  · exact infers_notFoldable _ _ trivial

lemma infers_typeArguments {P : String → Prop} {N : Nominal → Nat → Prop} (name params)
    {args} (h : Ty.AllFormed P N args) (span) :
    Infers F (typeArguments name params args span) fun ts => ts.length = params.length ∧ Ty.AllFormed P N ts := by
  unfold typeArguments
  split
  · rename_i hlength
    exact runs_pure ⟨hlength, h⟩
  · exact runs_report_bind ⟨by simp, Ty.allFormed_unknowns params⟩ rfl

variable {demand demand' : Demand} {asked : List String → String → Prop}

lemma infers_foldName (h : demand.Runs F demand' asked) {stack} (span) {name} (hfinds : F.Finds name)
    (hname : asked stack name) :
    Runs F True (foldName demand stack span name) (foldName demand' stack span name) fun _ => True := by
  refine runs_kind?_bind_of_finds hfinds fun k _ => ?_
  split
  · exact h _ _ _ hname
  · exact runs_report_bind trivial rfl
  · exact runs_report_bind trivial rfl

lemma Frame.Seen.names {name} {k : SymbolKind} (h : F.Seen name k) {info : NominalInfo}
    (hinfo : k.nominalInfo? = some info) {ts : List Ty} (hts : ts.length = info.typeParams.length) :
    F.Names info.nominal ts.length := by
  obtain ⟨hdeclared, hown⟩ := h.declared info hinfo
  exact ⟨hts ▸ Frame.Tame.nominal hdeclared, hown⟩

mutual

lemma infers_resolveTypeWith (h : demand.Runs F demand' asked) (t) (hn : F.Looks t.nodes)
    (ht : Demand.Measures asked t.nodes) :
    Runs F True (resolveTypeWith demand t) (resolveTypeWith demand' t) F.Writes := by
  match t with
  | .primitive .. => exact runs_pure trivial
  | .slice _ a | .pointer _ _ a | .option _ a | .taskHandle _ a =>
    exact (infers_resolveTypeWith h a (hn.mono (by simp)) (ht.mono (by simp))).bind fun _ ht => runs_pure ht
  | .array span elem size =>
    refine (infers_resolveTypeWith h elem (hn.mono (by simp)) (ht.mono (by simp))).bind fun _ helem => ?_
    have hsize : Demand.Covers asked [] size.nodes :=
      ⟨fun place name hname => ht span elem size (by simp) place name (by simp [hname]),
        ht.mono (by simp)⟩
    refine (infers_foldWith h [] size (hn.mono (by simp)) hsize).bind fun v _ => ?_
    exact (infers_arraySize _ v).bind fun _ _ => runs_pure helem
  | .result _ ok err =>
    refine (infers_resolveTypeWith h ok (hn.mono (by simp)) (ht.mono (by simp))).bind fun _ hok => ?_
    refine (infers_resolveTypeWith h err (hn.mono (by simp)) (ht.mono (by simp))).bind fun _ herr => ?_
    exact runs_pure ⟨hok, herr⟩
  | .tuple _ elems =>
    exact (infers_resolveTypesWith h elems (hn.mono (by simp)) (ht.mono (by simp))).bind fun _ hts => runs_pure hts
  | .named span name args =>
    have hargs := infers_resolveTypesWith h args (hn.mono (by simp)) (ht.mono (by simp))
    refine runs_kind?_bind_of_finds (hn name (.type span name args (by simp))) fun k hk => ?_
    split
    · exact (runs_reportIf _ _ _ rfl).bind fun _ _ => runs_pure (hk _ rfl).isLocal
    · refine hargs.bind fun _ hts => (infers_typeArguments _ _ hts _).bind fun _ hts => ?_
      exact runs_pure ⟨(hk _ rfl).names rfl hts.1, hts.2⟩
    · refine hargs.bind fun _ hts => (infers_typeArguments _ _ hts _).bind fun _ hts => ?_
      exact runs_pure ⟨(hk _ rfl).names rfl hts.1, hts.2⟩
    · exact runs_refuse _ _ rfl
    · exact runs_refuse _ _ rfl

lemma infers_resolveTypesWith (h : demand.Runs F demand' asked) (ts) (hn : F.Looks (TypeExpr.listNodes ts))
    (hts : Demand.Measures asked (TypeExpr.listNodes ts)) :
    Runs F True (resolveTypesWith demand ts) (resolveTypesWith demand' ts) (Ty.AllFormed F.params F.Names) := by
  match ts with
  | [] => exact runs_pure trivial
  | t :: ts =>
    refine (infers_resolveTypeWith h t (hn.mono (by simp [TypeExpr.listNodes]))
      (hts.mono (by simp [TypeExpr.listNodes]))).bind fun _ ht => ?_
    refine (infers_resolveTypesWith h ts (hn.mono (by simp [TypeExpr.listNodes]))
      (hts.mono (by simp [TypeExpr.listNodes]))).bind fun _ hts => ?_
    exact runs_pure ⟨ht, hts⟩

lemma infers_foldWith (h : demand.Runs F demand' asked) (stack e) (hn : F.Looks e.nodes)
    (he : Demand.Covers asked stack e.nodes) :
    Runs F True (foldWith demand stack e) (foldWith demand' stack e) fun _ => True := by
  match e with
  | .literal .. => exact infers_foldLiteral _ _
  | .ident span name =>
    exact infers_foldName h _ (hn name (.ident span name (by simp))) (he.names span name (by simp))
  | .dotted span head member => exact infers_foldMember _ (hn _ (.dotted span head member (by simp))) _
  | .paren _ inner => exact infers_foldWith h stack inner (hn.mono (by simp)) (he.mono (by simp))
  | .unary _ logical pointer operand =>
    have hoperand := infers_foldWith h stack operand (hn.mono (by simp)) (he.mono (by simp))
    refine runs_ite (infers_notFoldable _ _ trivial) (hoperand.bind fun v _ => ?_)
    split
    · exact runs_pure trivial
    · split
      · exact runs_pure trivial
      · exact infers_folded _ _
  | .binary _ lhs _ rhs =>
    refine (infers_foldWith h stack lhs (hn.mono (by simp)) (he.mono (by simp))).bind fun l _ => ?_
    split
    · exact runs_pure trivial
    · refine (infers_foldWith h stack rhs (hn.mono (by simp)) (he.mono (by simp))).bind fun r _ => ?_
      split
      · exact runs_pure trivial
      · exact infers_folded _ _
  | .sizeof _ type =>
    have htype := infers_resolveTypeWith h type (hn.mono (by simp)) (he.sizes.mono (by simp))
    refine htype.bind fun t ht => runs_get_bind fun f f' hf => ?_
    refine runs_read_bind fun σ σ' hσ => ?_
    rw [Frame.Tame.layout hσ hf ht]
    split
    · exact runs_pure trivial
    · exact infers_notFoldable _ _ trivial
  | .call .. | .assocCall .. | .dottedCall .. | .structLit .. | .await .. | .selfRef .. | .field ..
  | .tupleIndex .. | .index .. | .slice .. | .tuple .. | .array .. | .arrayRepeat .. =>
    exact infers_notFoldable _ _ trivial

end

end

lemma infers_foldWith_all [F.Lawful] {demand demand'} (h : Demand.Runs F demand demand') (stack e) :
    Runs F True (foldWith demand stack e) (foldWith demand' stack e) fun _ => True :=
  infers_foldWith h stack e (Frame.looks_all _) (Demand.covers_all _ _)

/-- A frame that the folding of constants keeps to. -/
class Frame.Folding (F : Frame) : Prop extends F.Lawful where
  demand : Demand.Runs F constValue constValue fun stack _ => stack = []

/-- A frame that members of other modules keep to. -/
class Frame.Inferring (F : Frame) : Prop extends F.Folding where
  exported {σ σ' target e member item} :
    F.reads σ σ' → F.imports target → σ.library.module? target = some e →
    e.item? member = some item → F.Kind member item.kind

section

variable [F.Folding]

lemma infers_foldExpr (e) : Heeds F (foldExpr e) :=
  infers_foldWith Frame.Folding.demand [] e (Frame.looks_all _) (Demand.covers_nil _)

lemma infers_foldArraySize (e) : Heeds F (foldArraySize e) :=
  (infers_foldExpr e).bind fun v _ => infers_arraySize _ v

lemma infers_resolveType (t) : Infers F (resolveType t) F.Writes :=
  infers_resolveTypeWith Frame.Folding.demand t (Frame.looks_all _) (Demand.covers_nil _).sizes

lemma infers_resolveTypes (ts) : Infers F (resolveTypes ts) (Ty.AllFormed F.params F.Names) :=
  infers_resolveTypesWith Frame.Folding.demand ts (Frame.looks_all _) (Demand.covers_nil _).sizes

end

/-! ### Frames that do not look at constants -/

/-- The progress of constants has no part in a frame. Constants of the runs may differ in what has no part in values. -/
structure Frame.Foldable (F : Frame) (other : ConstDecl → ConstDecl) : Prop where
  name (c : ConstDecl) : (other c).name = c.name
  value (c : ConstDecl) : (other c).value = c.value
  reads {σ σ'} : F.reads σ σ' → σ'.constDepth = σ.constDepth ∧ σ'.constants = σ.constants.map other
  knows {f f'} : F.knows f f' → f'.folding = f.folding ∧ f'.constValues = f.constValues
  changes {f f'} (folding constValues) : F.knows f f' →
    F.knows { f with folding, constValues } { f' with folding, constValues } ∧
      F.goes f { f with folding, constValues }
  cycle {f f'} (path span) : F.knows f f' → F.knows { f with problems := ⟨.constCycle path, span⟩ :: f.problems }
        { f' with problems := ⟨.constCycle path, span⟩ :: f'.problems } ∧
      F.goes f { f with problems := ⟨.constCycle path, span⟩ :: f.problems }

namespace Frame.Foldable

variable {other : ConstDecl → ConstDecl}

lemma records (h : F.Foldable other) (folding values) : Heeds F (modify fun f =>
    { f with folding := folding ++ f.folding, constValues := values ++ f.constValues }) := by
  intro σ σ' f f' _ hf
  obtain ⟨hfolding, hvalues⟩ := h.knows hf
  obtain ⟨hknows, hgoes⟩ := h.changes (folding ++ f.folding) (values ++ f.constValues) hf
  refine ⟨rfl, trivial, ?_, hgoes, fun _ => rfl⟩
  change F.knows _ { f' with folding := folding ++ f'.folding, constValues := values ++ f'.constValues }
  rw [hfolding, hvalues]
  exact hknows

lemma recordFolding (h : F.Foldable other) (name p) : Heeds F (recordFolding name p) :=
  h.records [(name, p)] []

lemma recordConst (h : F.Foldable other) (name v) : Heeds F (recordConst name v) :=
  h.records [] [(name, v)]

lemma find?_map (h : F.Foldable other) (decls : List ConstDecl) (name) :
    (decls.map other).find? (·.name.node = name) = (decls.find? (·.name.node = name)).map other := by
  rw [List.find?_map]
  congr 2
  funext c
  simp [h.name c]

lemma otherConstants_map (h : F.Foldable other) (decls name) :
    otherConstants (decls.map other) name = (otherConstants decls name).map other := by
  rw [otherConstants, otherConstants, List.filter_map]
  congr 2
  funext c
  simp [h.name c]

lemma demandConst [F.Tame] (h : F.Foldable other) (remaining : List ConstDecl)
    (hn : ∀ c ∈ remaining, F.Looks c.value.nodes) :
    Demand.Runs F (demandConst remaining) (demandConst (remaining.map other)) := by
  intro stack name span _
  rw [SourceCheck.demandConst, SourceCheck.demandConst]
  refine runs_get_bind fun f f' hf => ?_
  rw [(h.knows hf).1]
  cases f.folding.lookup name with
  | some p =>
    cases p with
    | finished =>
      refine runs_get_bind fun g g' hg => ?_
      rw [(h.knows hg).2]
      exact runs_pure trivial
    | started =>
      refine runs_read_bind fun σ σ' hσ => ?_
      have hdecl : ((σ.constants.map other).find? (·.name.node = name)).map (·.name.span) =
          (σ.constants.find? (·.name.node = name)).map (·.name.span) := by
        rw [h.find?_map, map_map]
        congr 1
        funext c
        simp [h.name c]
      simp only [(h.reads hσ).2, hdecl]
      refine Runs.bind (Q := fun _ => True) (fun _ _ f f' _ hf => ?_) fun _ _ => runs_pure trivial
      exact ⟨rfl, trivial, (h.cycle _ _ hf).1, (h.cycle _ _ hf).2, fun _ => rfl⟩
  | none =>
    refine runs_read_bind fun σ σ' hσ => ?_
    simp only [(h.reads hσ).1]
    refine runs_ite (runs_report_bind trivial rfl) ?_
    split
    · rename_i hnone
      split
      · exact runs_pure trivial
      · rename_i hsome
        rw [h.find?_map, hnone] at hsome
        cases hsome
    · rename_i decl hfind
      split
      · rename_i hnone
        rw [h.find?_map, hfind] at hnone
        cases hnone
      · rename_i decl' hfind'
        obtain rfl : other decl = decl' := by
          rw [h.find?_map, hfind] at hfind'
          exact some.inj hfind'
        rw [h.value, h.otherConstants_map]
        refine (h.recordFolding _ _).bind fun _ _ => ?_
        have hdemand := h.demandConst (otherConstants remaining name) fun c hc => hn c (List.mem_filter.1 hc).1
        have hvalue := hn decl (List.mem_of_find?_eq_some hfind)
        refine (infers_foldWith hdemand _ _ hvalue (Demand.covers_all _ _)).bind fun v _ => ?_
        refine (h.recordFolding _ _).bind fun _ _ => ?_
        exact (runs_option_forM fun v _ => h.recordConst name v).bind fun _ _ => runs_pure trivial
termination_by remaining.length
decreasing_by exact length_otherConstants_lt ‹_›

lemma folding [F.Lawful] (h : F.Foldable other) : F.Folding where
  demand stack name span _ := runs_read_bind fun σ σ' hσ => by
    rw [(h.reads hσ).2]
    exact h.demandConst σ.constants (fun _ _ => Frame.looks_all _) stack name span trivial

end Frame.Foldable

/-! ### Frames of one run -/

namespace Frame

/-- A single run that may mention anything, in which something holds all the time. -/
def alone (reads : Setting → Prop) (goes : Findings → Findings → Prop)
    (holds : Findings → Prop := fun _ => True) :
    Frame where
  params _ := True
  nominal _ _ := True
  declared _ _ := True
  own _ := True
  generic _ := false
  imports _ := True
  place _ := True
  reads σ σ' := σ' = σ ∧ reads σ
  knows f f' := f' = f ∧ holds f
  goes := goes

variable {reads : Setting → Prop} {goes : Findings → Findings → Prop} {holds : Findings → Prop}

lemma admits_alone (t) : (alone reads goes holds).Admits t :=
  Ty.formed_of_forall (fun _ => trivial) (fun _ _ => trivial) t

lemma seen_alone (name k) : (alone reads goes holds).Seen name k where
  owned := k.formed_of_forall (fun _ => trivial) fun _ _ => ⟨trivial, trivial⟩
  declared _ _ := ⟨trivial, trivial⟩
  generic _ _ := .inr fun _ => trivial
  isLocal := by
    match k with
    | .variable t .. => exact admits_alone t
    | .function _ | .struct .. | .enum .. | .const .. | .typeParam | .module .. => exact trivial
  imported _ _ _ := trivial

/-- Changes by which problems, types, calls and sizes may be noted. -/
structure Notes (goes : Findings → Findings → Prop) (holds : Findings → Prop := fun _ => True) : Prop where
  refl (f) : goes f f
  trans {f g h} : goes f g → goes g h → goes f h
  problem (f : Findings) (r) : goes f { f with problems := r :: f.problems }
  type (f : Findings) (span t) : goes f { f with exprTypes := f.exprTypes.set span t }
  call (f : Findings) (span target) : goes f { f with callTargets := f.callTargets.set span target }
  size (f : Findings) (span n) : goes f { f with arraySizes := f.arraySizes.set span n }
  /-- What holds is about the progress and cycles of constants only. -/
  holds {f g : Findings} : holds f → g.folding = f.folding →
    (∀ r ∈ g.problems, r ∈ f.problems ∨ ∀ path, r.cause ≠ .constCycle path) → holds g

lemma Notes.report (h : Notes goes holds) {f f' p} (span)
    (hp : ∀ path, p ≠ .constCycle path) (hf : (alone reads goes holds).knows f f') :
    (alone reads goes holds).knows (f.noted p span) (f'.noted p span) ∧ goes f (f.noted p span) := by
  refine ⟨⟨by rw [hf.1], h.holds hf.2 rfl fun r hr => ?_⟩, h.problem _ _⟩
  obtain rfl | hr := List.mem_cons.1 hr
  · exact .inr hp
  · exact .inl hr

lemma Notes.lawful (h : Notes goes holds) : (alone reads goes holds).Lawful where
  length_eq _ _ := .inr fun _ => trivial
  params_eq _ _ := .inr fun _ => trivial
  nominal _ := trivial
  refl := h.refl
  trans := h.trans
  report p span hf hp := h.report span (by rintro path rfl; cases hp) hf
  type hf _ _ := ⟨⟨by rw [hf.1], h.holds hf.2 rfl fun _ => .inl⟩, h.type _ _ _⟩
  call span target hf := ⟨⟨by rw [hf.1], h.holds hf.2 rfl fun _ => .inl⟩, h.call _ _ _⟩
  size span n hf := ⟨⟨by rw [hf.1], h.holds hf.2 rfl fun _ => .inl⟩, h.size _ _ _⟩
  module hσ := by rw [hσ.1]
  inside kind hf := by rw [hf.1]
  placeProblem? usage root hf := by rw [hf.1]
  exprTypes hf := by rw [hf.1]
  seen _ _ := seen_alone _ _
  symbol? name hf := by rw [hf.1]
  nominalKind _ _ _ _ := ⟨(seen_alone _ _).kind, fun _ _ => trivial⟩
  nominal? hσ hf _ := by rw [hσ.1, hf.1]
  library hσ _ := by rw [hσ.1]
  layout hσ hf _ := by rw [hσ.1, hf.1]

end Frame

section

variable {reads : Setting → Prop} {goes : Findings → Findings → Prop} {holds : Findings → Prop} {α : Type}
  {still : Prop} {c c' : Check α}

instance [(Frame.alone reads goes holds).Folding] : (Frame.alone reads goes holds).Inferring where
  exported _ _ _ _ := (Frame.seen_alone _ _).kind

lemma Check.Runs.goes_alone {Q : α → Prop} (h : Runs (.alone reads goes) still c c' Q) {σ} (hσ : reads σ)
    (f) : goes f (c σ f).2 :=
  (h ⟨rfl, hσ⟩ ⟨rfl, trivial⟩).goes

lemma Check.runs_alone (h : ∀ σ f, reads σ → goes f (c σ f).2 ∧ (still → (c σ f).2.symbols = f.symbols)) :
    Runs (.alone reads goes) still c c fun _ => True := by
  rintro σ _ f _ ⟨rfl, hσ⟩ ⟨rfl, -⟩
  exact ⟨rfl, trivial, ⟨rfl, trivial⟩, (h _ _ hσ).1, (h _ _ hσ).2⟩

end

end SourceCheck
