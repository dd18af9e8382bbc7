import SourceCheck.Analysis.Module
import SourceCheck.Proofs.Analysis.Bodies

/-!
# Declarations keep to frames

In a frame without restrictions on type parameters, all declarations keep to it, and so does the analysis of a module
if names and shapes do.
-/

namespace SourceCheck

open Check SourceCheck.Frame List

def Symbol.unowned (s : Symbol) : Symbol :=
  { s with kind := s.kind.unowned }

variable {F : Frame}

/-! ### Open frames -/

/-- A frame without restrictions on type parameters and places. -/
class Frame.Free (F : Frame) : Prop where
  params (x) : F.params x
  place (k) : F.place k
  generic : F.generic = fun _ => false

namespace Frame

variable [F.Free]

lemma unrestricted : F.Unrestricted :=
  Free.params

lemma covers (nodes) : F.Covers nodes :=
  fun _ _ k _ => Free.place k

lemma holds (e) : F.Holds e :=
  ⟨Free.generic (F := F) ▸ e.guarded_of_nothing, covers _⟩

lemma allGuarded (body) : Stmt.allGuarded F.generic body = true :=
  Free.generic (F := F) ▸ Stmt.allGuarded_of_nothing body

lemma admits_of_formed {P : String → Prop} {t} (h : t.Formed P F.Names) : F.Admits t :=
  h.imp (fun x _ => Free.params x) fun _ _ => And.left

end Frame

/-! ### Declarations -/

/-- A frame that the checks of declarations keep to. -/
class Frame.Declares (F : Frame) : Prop extends F.Checking, F.Free where
  global {f f' name id s} : F.knows f f' → f.symbols.global? name = some (id, s) → F.Seen name s.kind
  global? {f f'} (name) : F.knows f f' → (f'.symbols.global? name).map (fun p => (p.1, p.2.unowned)) =
      (f.symbols.global? name).map fun p => (p.1, p.2.unowned)
  isEntry {σ σ'} : F.reads σ σ' → σ'.isEntry = σ.isEntry

section

variable [F.Declares]

lemma runs_global?_bind {α : Type} {still : Prop} {Q : α → Prop} {name k k'}
    (howned : ∀ p : Nat × Symbol, k' (some (p.1, p.2.unowned)) = k' (some p))
    (h : ∀ o, (∀ p ∈ o, F.Seen name p.2.kind) → Runs F still (k o) (k' o) Q) :
    Runs F still (global? name >>= k) (global? name >>= k') Q := by
  intro σ σ' f f' hσ hf
  rw [run_global?_bind, run_global?_bind, eq_of_map_unplaced_eq (Declares.global? name hf) k' howned]
  exact h _ (fun p hp => Declares.global hf hp) hσ hf

lemma infers_declaredSignature? (name) :
    Infers F (declaredSignature? name) fun o => ∀ sig ∈ o, sig.Formed True F.Names [] := by
  refine runs_global?_bind ?_ fun o ho => ?_
  · rintro ⟨id, ⟨_, kind, _, _, _⟩⟩
    cases kind <;> rfl
  · split
    · refine runs_pure fun sig hsig => ?_
      split at hsig
      · exact ((ho _ rfl).owned sig (mem_of_mem_head? hsig)).imp (fun _ => trivial) fun _ _ hn => hn
      · cases hsig
    · exact runs_pure nofun

lemma Frame.hosts (d) {sig ps} (hsig : sig.Formed True F.Names ps)
    {owner} (howner : ∀ o ∈ owner, F.Admits o.selfType) : F.Hosts d sig owner where
  typeParams _ _ := Free.params _
  ownerParams _ _ _ _ := Free.params _
  selfType := howner
  params p hp := admits_of_formed (hsig.1 p hp)
  returnType := admits_of_formed hsig.2

lemma scoped_checkFunction (d) : Obeys F (checkFunction d) (checkFunction (d.reannotate F.annotations)) := by
  refine (infers_checkAnnotations _ _ _).scoped.bind fun _ _ => ?_
  refine (infers_declaredSignature? _).scoped.bind fun o ho => ?_
  split
  · exact runs_pure trivial
  · rename_i sig
    have hhosts : F.Hosts d sig none := hosts d (ho sig rfl) nofun
    have hbody := scoped_checkBody hhosts (allGuarded _) (covers _)
    have hentry : Obeys F (checkEntryPoint d sig) (checkEntryPoint (d.reannotate F.annotations) sig) :=
      runs_reportIf _ _ _ rfl
    refine runs_read_bind fun σ σ' hσ => ?_
    rw [Declares.isEntry hσ]
    exact runs_ite (hentry.bind fun _ _ => hbody) hbody

lemma infers_checkExtern (d) :
    Runs F True (checkExtern d) (checkExtern { d with
        annotations := F.annotations d.annotations
        params := d.params.map (·.reannotate F.annotations)
        returnAnnotations := F.annotations d.returnAnnotations }) fun _ => True := by
  refine (infers_checkAnnotations _ _ _).bind fun _ _ => ?_
  refine (infers_declaredSignature? _).bind fun sig _ => ?_
  refine Runs.bind (Q := fun _ => True) ?_ fun _ _ => infers_checkAnnotations _ _ _
  simp only [zipIdx_map, forM_eq_forM, forM_map]
  exact runs_forM fun p _ => infers_checkAnnotations _ _ _

/-- A type that may be mentioned, and so may those of its methods. -/
structure Owner.Framed (F : Frame) (owner : Owner) : Prop where
  selfType : F.Admits owner.selfType
  methods : ∀ m ∈ owner.info.methods, m.2.signature.Formed True F.Names owner.info.typeParams

lemma Frame.Seen.owner? {name k} (h : F.Seen name k) {owner} (howner : k.owner? = some owner) : owner.Framed F := by
  match k with
  | .struct info _ | .enum info _ =>
    cases howner
    refine ⟨⟨?_, ?_⟩, fun m hm => (h.owned.1 m hm).imp (fun _ => trivial) fun _ _ => id⟩
    · rw [length_map]
      exact Tame.nominal (h.declared info rfl).1
    · exact Ty.allFormed_map_param fun x _ => Free.params x
  | .variable .. | .function _ | .const .. | .typeParam | .module .. => cases howner

lemma scoped_checkMethod {owner} (h : owner.Framed F) (d) :
    Obeys F (checkMethod owner d) (checkMethod owner (d.reannotate F.annotations)) := by
  refine (infers_checkAnnotations _ _ _).scoped.bind fun _ _ => ?_
  rw [show (d.reannotate F.annotations).name = d.name from rfl]
  cases hm : owner.info.methods.lookup d.name.node with
  | none => exact runs_pure trivial
  | some m =>
    obtain ⟨before, after, hlist, -⟩ := lookup_eq_some_iff.1 hm
    have hsig := h.methods (d.name.node, m) (by simp [hlist])
    refine runs_ite (scoped_checkBody (hosts d hsig fun o ho => ?_) (allGuarded _) (covers _)) (runs_pure trivial)
    cases ho
    exact h.selfType

lemma scoped_checkImpl (block) :
    Obeys F (checkImpl block) (checkImpl { block with
        annotations := F.annotations block.annotations
        methods := block.methods.map fun m => ⟨m.node.reannotate F.annotations, m.span⟩ }) := by
  refine runs_global?_bind ?_ fun o ho => ?_
  · rintro ⟨id, ⟨_, kind, _, _, _⟩⟩
    cases kind <;> rfl
  · dsimp only
    split
    · exact runs_pure trivial
    · rename_i owner howner
      obtain ⟨p, rfl, howner⟩ := Option.bind_eq_some_iff.1 howner
      simp only [forM_eq_forM, forM_map]
      exact runs_forM fun m _ => scoped_checkMethod ((ho p rfl).owner? howner) m.node

lemma scoped_checkDeclaration (d) : Obeys F (checkDeclaration d) (checkDeclaration (d.reannotate F.annotations)) := by
  cases d with
  | function d => exact scoped_checkFunction d
  | externFunction d => exact (infers_checkExtern d).scoped
  | struct d =>
    refine ((infers_checkAnnotations _ _ _).bind fun _ _ => ?_).scoped
    simp only [forM_eq_forM, forM_map]
    exact runs_forM fun f _ => infers_checkAnnotations _ _ _
  | enum d => exact (infers_checkAnnotations _ _ _).scoped
  | impl block => exact scoped_checkImpl block
  | const d => exact runs_pure trivial

lemma scoped_checkDeclarations (hconst : ∀ c, Obeys F (checkConst c) (checkConst (c.reannotate F.annotations)))
    (decls) : Obeys F (checkDeclarations decls) (checkDeclarations (decls.map (·.reannotate F.annotations))) := by
  simp only [checkDeclarations, forM_eq_forM, forM_map]
  refine (runs_forM fun d _ => ?_).bind fun _ _ => runs_forM fun d _ => scoped_checkDeclaration d
  cases d with
  | const c => exact (infers_checkAnnotations _ _ _).scoped.bind fun _ _ => hconst c
  | _ => exact runs_pure trivial

end

/-! ### Resolving shapes -/

section

variable [F.Folding]

lemma infers_resolveParams (seen ps) :
    Infers F (resolveParams seen ps) fun params => ∀ p ∈ params, F.Writes p.2 := by
  induction ps generalizing seen with
  | nil => exact runs_pure (by simp)
  | cons p ps ih =>
    have hrest (seen : List (String × Span)) :
        Infers F (do
          let t ← resolveType p.type
          let rest ← resolveParams seen ps
          return (p.name, t) :: rest) fun params => ∀ p ∈ params, F.Writes p.2 :=
      (infers_resolveType _).bind fun t ht => (ih _).bind fun rest hrest =>
        runs_pure (forall_mem_cons.2 ⟨ht, hrest⟩)
    unfold resolveParams
    split
    · exact (runs_report _ _ rfl).bind fun _ _ => hrest _
    · exact hrest _

lemma infers_resolveSignature (typeParams params returnType) :
    Infers F (resolveSignature typeParams params returnType) fun sig =>
      sig.typeParams = typeParams.map (·.node) ∧ (∀ p ∈ sig.params, F.Writes p.2) ∧ F.Writes sig.returnType :=
  (infers_resolveParams _ _).bind fun _ hparams => (infers_resolveType _).bind fun _ ht =>
    runs_pure ⟨rfl, hparams, ht⟩

lemma infers_resolveFields (seen fs) :
    Infers F (resolveFields seen fs) fun fields => ∀ f ∈ fields, F.Writes f.type := by
  induction fs generalizing seen with
  | nil => exact runs_pure (by simp)
  | cons f fs ih =>
    unfold resolveFields
    split
    · exact (runs_report _ _ rfl).bind fun _ _ => ih _
    · exact (infers_resolveType _).bind fun t ht => (ih _).bind fun rest hrest =>
        runs_pure (forall_mem_cons.2 ⟨ht, hrest⟩)

lemma infers_resolveDiscriminant (enum variant value) : Heeds F (resolveDiscriminant enum variant value) := by
  refine (infers_foldExpr value).bind fun v _ => ?_
  split
  · exact runs_pure trivial
  · exact runs_pure trivial
  · exact infers_notFoldable _ _ trivial

lemma infers_resolveVariants (enum seen vs) :
    Infers F (resolveVariants enum seen vs)
      fun variants => ∀ v ∈ variants, Ty.AllFormed F.params F.Names v.payload := by
  induction vs generalizing seen with
  | nil => exact runs_pure (by simp)
  | cons v vs ih =>
    unfold resolveVariants
    split
    · exact (runs_report _ _ rfl).bind fun _ _ => ih _
    · refine (infers_resolveTypes _).bind fun ts hts => ?_
      split
      · refine (infers_resolveDiscriminant _ _ _).bind fun _ _ => (ih _).bind fun rest hrest => ?_
        exact runs_pure (forall_mem_cons.2 ⟨hts, hrest⟩)
      · refine (ih _).bind fun rest hrest => runs_pure ?_
        exact forall_mem_cons.2 ⟨hts, hrest⟩

section

variable (g : List Annotation → List Annotation)

include g

lemma resolveParams_reannotate (seen ps) : resolveParams seen (ps.map (·.reannotate g)) = resolveParams seen ps := by
  induction ps generalizing seen with
  | nil => rfl
  | cons p ps ih =>
    simp only [map_cons, resolveParams, ih]
    rfl

lemma resolveFields_reannotate (seen fs) : resolveFields seen (fs.map (·.reannotate g)) = resolveFields seen fs := by
  induction fs generalizing seen with
  | nil => rfl
  | cons f fs ih =>
    simp only [map_cons, resolveFields, ih]
    rfl

lemma resolveMethods_reannotate (ownerParams seen ds) :
    resolveMethods ownerParams seen (ds.map (·.reannotate g)) = resolveMethods ownerParams seen ds := by
  induction ds generalizing seen with
  | nil => rfl
  | cons d ds ih =>
    have hsig : resolveSignature d.typeParams (d.reannotate g).params d.returnType =
        resolveSignature d.typeParams d.params d.returnType := by
      simp only [FunctionDecl.reannotate, resolveSignature, resolveParams_reannotate]
    simp only [map_cons, resolveMethods, ih, ← hsig]
    rfl

end

end

lemma formed_of_writes {sig : Signature} (h : (∀ p ∈ sig.params, F.Writes p.2) ∧ F.Writes sig.returnType)
    (owner) : sig.Formed True F.Names owner :=
  ⟨fun p hp => (h.1 p hp).imp (fun _ _ => .inl trivial) fun _ _ hn => hn,
    h.2.imp (fun _ _ => .inl trivial) fun _ _ hn => hn⟩

section

variable [F.Declares]

lemma scoped_withTypeParams {α : Type} {Q : α → Prop} (params) {step}
    (h : Infers F step Q) : Scoped F (withTypeParams params step) (withTypeParams params step) Q := by
  refine runs_ite h.scoped (Runs.inScope _ ((runs_forM fun p _ => ?_).bind fun _ _ => h.scoped))
  exact scoped_declare ⟨rfl, Free.params _, rfl⟩

lemma scoped_resolveMethods (ownerParams seen ds owner) :
    Scoped F (resolveMethods ownerParams seen ds) (resolveMethods ownerParams seen ds)
      fun methods => ∀ m ∈ methods, m.2.signature.Formed True F.Names owner := by
  induction ds generalizing seen with
  | nil => exact runs_pure (by simp)
  | cons d ds ih =>
    unfold resolveMethods
    split
    · exact (runs_report _ _ rfl).bind fun _ _ => ih _
    · refine (scoped_withTypeParams _ (infers_resolveSignature _ _ _)).bind fun sig hsig => ?_
      exact (ih _).bind fun rest hrest => runs_pure (forall_mem_cons.2 ⟨formed_of_writes hsig.2 owner, hrest⟩)

end

/-! ### Names and shapes -/

structure Frame.Known (F : Frame) (s : Symbol) : Prop where
  seen : F.Seen s.name s.kind
  hidden : s.kind.isLocal = true → s.visibility = none

def Frame.symbol (F : Frame) (s : Symbol) : Symbol :=
  if F.bare then s.unowned else s

/-- A change of what symbols stand for that keeps to a frame. -/
structure Frame.Reshapes (F : Frame) (g : SymbolKind → SymbolKind) : Prop where
  seen {name k} : F.Seen name k → F.Seen name (g k)
  isLocal (k) : (g k).isLocal = k.isLocal
  unowned (k) : g k.unowned = (g k).unowned

/-- A frame that the collection of declarations keeps to. -/
class Frame.Collects (F : Frame) : Prop extends F.Declares where
  value {f f'} (name v) : F.knows f f' →
    F.knows { f with constValues := (name, v) :: f.constValues }
      { f' with constValues := (name, v) :: f'.constValues } ∧
      F.goes f { f with constValues := (name, v) :: f.constValues }
  define {f f' s id table} : F.knows f f' → F.Known s →
    f.symbols.define s = .ok (id, table) → ∃ table', f'.symbols.define (F.symbol s) = .ok (id, table') ∧
      F.knows { f with symbols := table } { f' with symbols := table' } ∧ F.goes f { f with symbols := table }
  reshape {f f' g} (id) : F.knows f f' → F.Reshapes g →
    F.knows { f with symbols := f.symbols.modifySymbol id fun s => { s with kind := g s.kind } }
        { f' with symbols := f'.symbols.modifySymbol id fun s => { s with kind := g s.kind } } ∧
      F.goes f { f with symbols := f.symbols.modifySymbol id fun s => { s with kind := g s.kind } }
  own {σ σ'} (name ps) : F.reads σ σ' → F.declared ⟨σ.module, name⟩ ps ∧ F.own ⟨σ.module, name⟩
  isInfinite {σ σ' f f' n} : F.reads σ σ' → F.knows f f' → F.own n →
    (f'.nominals σ').isInfinite n = (f.nominals σ).isInfinite n

lemma Frame.symbol_name (s) : (F.symbol s).name = s.name := by
  unfold Frame.symbol
  split <;> rfl

lemma Frame.symbol_span (s) : (F.symbol s).span = s.span := by
  unfold Frame.symbol
  split <;> rfl

lemma Frame.symbol_eq_self {s} (h : s.kind.unowned = s.kind) : F.symbol s = s := by
  unfold Frame.symbol Symbol.unowned
  rw [h]
  exact ite_id _

lemma SymbolTable.define_error_of_name {t : SymbolTable} {s s' : Symbol} (h : s'.name = s.name) {previous}
    (herror : t.define s = .error previous) : t.define s' = .error previous := by
  unfold define at herror ⊢
  rw [h]
  split
  · rename_i hlookup
    rw [hlookup] at herror
    exact herror
  · rename_i hlookup
    rw [hlookup] at herror
    cases herror

lemma Frame.Seen.free {name k} (h : F.Seen name k) : k.Formed True F.Names :=
  h.owned.imp (fun _ => trivial) fun _ _ hn => hn

section

variable [F.Collects]

lemma scoped_setKind {g} (h : F.Reshapes g) (id) : Obeys F (setKind id g) (setKind id g) :=
  fun _ _ _ _ _ hf => ⟨rfl, trivial, (Collects.reshape id hf h).1, (Collects.reshape id hf h).2, False.elim⟩

lemma scoped_defineKnown {s} (hs : F.Known s) : Obeys F (define s) (define (F.symbol s)) := by
  intro σ σ' f f' _ hf
  cases hdefine : f.symbols.define s with
  | ok p =>
    obtain ⟨table', hdefine', hknows, hgoes⟩ := Collects.define hf hs hdefine
    rw [run_define_ok hdefine, run_define_ok hdefine']
    exact ⟨rfl, trivial, hknows, hgoes, False.elim⟩
  | error previous =>
    have hdefine' := SymbolTable.define_error_of_name (symbol_name (F := F) s) (Declaring.define_error hf hdefine)
    rw [run_define_error hdefine, run_define_error hdefine']
    exact ⟨rfl, trivial, hf, Tame.refl f, False.elim⟩

lemma Frame.seen_of_owned {name k} (howned : k.Formed True F.Names)
    (hdeclared : ∀ info, k.nominalInfo? = some info → F.declared info.nominal info.typeParams ∧
      F.own info.nominal)
    (hlocal : k.isLocal = false) (hmodule : ∀ path target, k ≠ .module path target) : F.Seen name k where
  owned := howned.imp (fun _ => unrestricted) fun _ _ hn => hn
  declared := hdeclared
  generic _ _ := .inr unrestricted
  isLocal := by
    match k with
    | .variable .. | .typeParam => cases hlocal
    | .function _ | .struct .. | .enum .. | .const .. | .module .. => exact trivial
  imported path target hk := absurd hk (hmodule path _)

/-! ### Registering names -/

lemma known_declaration {σ σ' : Setting} (hσ : F.reads σ σ') {d : Declaration} {s}
    (hs : d.symbol? σ.module = some s) : F.Known s := by
  cases d with
  | impl block => cases hs
  | function d | externFunction d =>
    cases hs
    exact ⟨seen_of_owned (fun s hs => absurd hs not_mem_nil) nofun rfl nofun, nofun⟩
  | struct d | enum d =>
    cases hs
    refine ⟨seen_of_owned ⟨?_, ?_⟩ (fun info hinfo => ?_) rfl nofun, nofun⟩
    · exact fun m hm => absurd hm not_mem_nil
    · exact fun m hm => absurd hm not_mem_nil
    · cases hinfo
      exact Collects.own _ _ hσ
  | const d =>
    cases hs
    exact ⟨seen_of_owned trivial nofun rfl nofun, nofun⟩

omit [F.Collects] in
lemma symbol?_reannotate (module) (d : Declaration) :
    (d.reannotate F.annotations).symbol? module = (d.symbol? module).map F.symbol := by
  unfold Frame.annotations Frame.symbol
  cases F.bare with
  | false => simp [Declaration.reannotate_id]
  | true => cases d <;> rfl

lemma scoped_registerName (d : Declaration) : Obeys F (registerName d) (registerName (d.reannotate F.annotations)) := by
  refine runs_read_bind fun σ σ' hσ => ?_
  rw [Lawful.module hσ, symbol?_reannotate]
  cases hs : d.symbol? σ.module with
  | none => exact runs_pure trivial
  | some s =>
    refine (scoped_defineKnown (known_declaration hσ hs)).bind fun r _ => ?_
    cases r with
    | ok id => exact runs_pure trivial
    | error previous =>
      rw [symbol_name, symbol_span]
      exact runs_report_bind trivial rfl

def reannotateDeclared (g : List Annotation → List Annotation) (declared : List (Declaration × Nat)) :
    List (Declaration × Nat) :=
  declared.map fun p => (p.1.reannotate g, p.2)

lemma constantsOf_reannotateDeclared (g : List Annotation → List Annotation) (declared) :
    constantsOf (reannotateDeclared g declared) = (constantsOf declared).map (·.reannotate g) := by
  rw [reannotateDeclared, constantsOf, constantsOf, filterMap_map, map_filterMap]
  congr 1
  funext p
  obtain ⟨d, id⟩ := p
  cases d <;> rfl

lemma scoped_registerNames (decls) :
    Obeys F (registerNames decls >>= fun declared => pure (reannotateDeclared F.annotations declared))
      (registerNames (decls.map (·.reannotate F.annotations))) := by
  induction decls with
  | nil => exact runs_pure trivial
  | cons d decls ih =>
    simp only [map_cons, registerNames, bind_assoc]
    refine (scoped_registerName d).bind fun id? _ => ?_
    intro σ σ' f f' hσ hf
    have hrest := ih hσ hf
    rw [run_bind, run_pure] at hrest
    cases id? with
    | none => exact ⟨hrest.same, trivial, hrest.knows, hrest.goes, False.elim⟩
    | some id => exact ⟨congrArg (_ :: ·) hrest.same, trivial, hrest.knows, hrest.goes, False.elim⟩

/-! ### Putting shapes into symbols -/

lemma reshapes_withSignature {sig} (h : sig.Formed True F.Names []) : F.Reshapes (·.withSignature sig) where
  seen {name k} hk := by
    match k with
    | .function info => exact seen_of_owned (fun s hs => mem_singleton.1 hs ▸ h) nofun rfl nofun
    | .variable .. | .struct .. | .enum .. | .const .. | .typeParam | .module .. => exact hk
  isLocal k := by cases k <;> rfl
  unowned k := by cases k <;> rfl

lemma scoped_resolveShape (d id) : Obeys F (resolveShape d id) (resolveShape (d.reannotate F.annotations) id) := by
  have hfree {t : Ty} {P : String → Prop} (h : F.Writes t) : t.Formed (fun x => True ∨ P x) F.Names :=
    h.imp (fun _ _ => .inl trivial) fun _ _ hn => hn
  cases d with
  | function d =>
    simp only [Declaration.reannotate, resolveShape, FunctionDecl.reannotate, resolveSignature,
      resolveParams_reannotate]
    refine (scoped_withTypeParams _ (infers_resolveSignature _ _ _)).bind fun sig hsig => ?_
    exact scoped_setKind (reshapes_withSignature (formed_of_writes hsig.2 [])) id
  | externFunction d =>
    simp only [Declaration.reannotate, resolveShape, resolveSignature, resolveParams_reannotate]
    exact (infers_resolveSignature _ _ _).scoped.bind fun sig hsig =>
      scoped_setKind (reshapes_withSignature (formed_of_writes hsig.2 [])) id
  | struct d =>
    simp only [Declaration.reannotate, resolveShape, resolveFields_reannotate]
    refine (scoped_withTypeParams _ (infers_resolveFields _ _)).bind fun fields hfields => scoped_setKind ?_ id
    refine ⟨fun {name k} hk => ?_, fun k => by cases k <;> rfl, fun k => by cases k <;> rfl⟩
    cases k with
    | struct info _ =>
      exact seen_of_owned ⟨hk.free.1, fun f hf => hfree (hfields f hf)⟩ hk.declared rfl (by rintro _ _ ⟨⟩)
    | _ => exact hk
  | enum d =>
    refine (scoped_withTypeParams _ (infers_resolveVariants _ _ _)).bind fun variants hvs => scoped_setKind ?_ id
    refine ⟨fun {name k} hk => ?_, fun k => by cases k <;> rfl, fun k => by cases k <;> rfl⟩
    cases k with
    | enum info _ =>
      refine seen_of_owned ⟨hk.free.1, fun v hv => ?_⟩ hk.declared rfl (by rintro _ _ ⟨⟩)
      exact (hvs v hv).imp (fun _ _ => .inl trivial) fun _ _ hn => hn
    | _ => exact hk
  | const d =>
    refine (infers_resolveType _).scoped.bind fun t ht => scoped_setKind ?_ id
    refine ⟨fun {name k} hk => ?_, fun k => by cases k <;> rfl, fun k => by cases k <;> rfl⟩
    cases k with
    | const _ value =>
      exact seen_of_owned (ht.imp (fun _ _ => trivial) fun _ _ hn => hn) (by rintro _ ⟨⟩) rfl (by rintro _ _ ⟨⟩)
    | _ => exact hk
  | impl block => exact runs_pure trivial

lemma infers_checkSize (d) : Runs F True (checkSize d) (checkSize (d.reannotate F.annotations)) fun _ => True := by
  refine runs_read_bind fun σ σ' hσ => ?_
  have hreport (name : Name) (noun : String) : Heeds F (do
      let nominals := (← get).nominals (← read)
      reportIf (nominals.isInfinite ⟨σ.module, name.node⟩) (.infiniteSize noun name.node) name.span) := by
    refine runs_get_bind fun f f' hf => runs_read_bind fun τ τ' hτ => ?_
    simp only [Collects.isInfinite hτ hf (Collects.own name.node [] hσ).2]
    exact runs_reportIf _ _ _ rfl
  rw [Lawful.module hσ]
  cases d with
  | struct s | enum e => exact hreport _ _
  | _ => exact runs_pure trivial

lemma reshapes_addMethods {methods}
    (h : ∀ owner, ∀ m ∈ methods, m.2.signature.Formed True F.Names owner) :
    F.Reshapes (·.addMethods methods) where
  seen {name k} hk := by
    have hmethods {info : NominalInfo}
      (hinfo : ∀ m ∈ info.methods, m.2.signature.Formed True F.Names info.typeParams) :
        ∀ m ∈ info.methods ++ methods, m.2.signature.Formed True F.Names info.typeParams := by
      intro m hm
      obtain hm | hm := mem_append.1 hm
      · exact hinfo m hm
      · exact h _ m hm
    match k with
    | .struct info _ | .enum info _ =>
      refine seen_of_owned ⟨hmethods hk.free.1, hk.free.2⟩ (fun info' hinfo => ?_) rfl nofun
      cases hinfo
      exact hk.declared info rfl
    | .variable .. | .function _ | .const .. | .typeParam | .module .. => exact hk
  isLocal k := by cases k <;> rfl
  unowned k := by cases k <;> rfl

lemma scoped_collectImpl (block) :
    Obeys F (collectImpl block) (collectImpl { block with
        annotations := F.annotations block.annotations
        methods := block.methods.map fun m => ⟨m.node.reannotate F.annotations, m.span⟩ }) := by
  have hnodes : (block.methods.map fun m => ⟨m.node.reannotate F.annotations, m.span⟩).map Spanned.node =
      (block.methods.map (·.node)).map (·.reannotate F.annotations) := by
    rw [map_map, map_map]
    rfl
  rw [collectImpl, collectImpl]
  refine runs_global?_bind ?_ fun o _ => ?_
  · rintro ⟨id, ⟨_, kind, _, _, _⟩⟩
    cases kind <;> rfl
  · simp only [addImpl, resolveImpl, hnodes, resolveMethods_reannotate]
    split
    · exact runs_report _ _ rfl
    · rename_i id info _
      have hsig {s : Signature} (h : s.Formed True F.Names []) (owner : List String) : s.Formed True F.Names owner :=
        ⟨fun p hp => (h.1 p hp).imp (fun _ _ => .inl trivial) fun _ _ hn => hn,
          h.2.imp (fun _ _ => .inl trivial) fun _ _ hn => hn⟩
      refine (scoped_resolveMethods _ _ _ []).bind fun methods hmethods => ?_
      refine (scoped_setKind (reshapes_addMethods fun owner m hm => ?_) id).bind fun _ _ => ?_
      · exact hsig (hmethods m (mem_filter.1 hm).1) owner
      · refine runs_forM ?_
        rintro ⟨name, m⟩ -
        unfold reportSecond
        split
        · exact runs_report _ _ rfl
        · exact runs_pure trivial

lemma scoped_collectShapes (decls declared) :
    Obeys F (collectShapes decls declared)
      (collectShapes (decls.map (·.reannotate F.annotations)) (reannotateDeclared F.annotations declared)) := by
  simp only [collectShapes, reannotateDeclared, forM_eq_forM, forM_map]
  refine (runs_forM fun p _ => scoped_resolveShape p.1 p.2).bind fun _ _ => ?_
  refine (runs_forM fun d _ => (infers_checkSize d).scoped).bind fun _ _ => runs_forM fun d _ => ?_
  cases d with
  | impl block => exact scoped_collectImpl block
  | _ => exact runs_pure trivial

/-! ### Modules -/

lemma scoped_checkConst (c) : Obeys F (checkConst c) (checkConst (c.reannotate F.annotations)) := by
  refine runs_global?_bind ?_ fun o ho => ?_
  · rintro ⟨id, ⟨_, kind, _, _, _⟩⟩
    cases kind <;> rfl
  · split
    · rename_i id _ t _ span _ _
      refine runs_ite ?_ (runs_pure trivial)
      have ht : F.Admits t := admits_of_formed (ho _ rfl).owned
      refine (infers_recordType (Free.place _) ht).scoped.bind fun _ _ => ?_
      refine (Folding.demand (F := F) [] _ _ rfl).scoped.bind fun v _ => ?_
      unfold noteValue
      split
      · exact runs_pure trivial
      · split
        · exact runs_report _ _ (by unfold misfitProblem; split <;> rfl)
        · refine (scoped_setKind ⟨fun {name k} hk => ?_, fun k => by cases k <;> rfl, fun k => by cases k <;> rfl⟩
            id).bind fun _ _ _ _ _ _ _ hf => ?_
          rotate_left
          · exact ⟨rfl, trivial, (Collects.value _ _ hf).1, (Collects.value _ _ hf).2, False.elim⟩
          cases k with
          | const t v => exact seen_of_owned hk.free (by rintro _ ⟨⟩) rfl (by rintro _ _ ⟨⟩)
          | _ => exact hk
    · exact runs_pure trivial

lemma scoped_declareImports {imports : List ImportBinding}
    (himports : ∀ i ∈ imports, ∀ target ∈ i.target, F.imports target) :
    Obeys F (imports.forM fun i => declareFirst i.symbol) (imports.forM fun i => declareFirst i.symbol) := by
  refine runs_forM fun i hi => ?_
  have hknown : F.Known i.symbol := by
    refine ⟨⟨trivial, ?_, fun _ hn => absurd hn not_mem_nil, trivial, fun path target hk => ?_⟩, ?_⟩
    · rintro _ ⟨⟩
    · exact himports i hi target (SymbolKind.module.inj hk).2
    · rintro ⟨⟩
  have hdefine := scoped_defineKnown hknown
  rw [symbol_eq_self rfl] at hdefine
  exact hdefine.bind fun _ _ => runs_pure trivial

lemma scoped_checkNamed (decls declared) :
    Obeys F (do collectShapes decls declared; checkDeclarations decls)
      (do collectShapes (decls.map (·.reannotate F.annotations)) (reannotateDeclared F.annotations declared)
          checkDeclarations (decls.map (·.reannotate F.annotations))) :=
  (scoped_collectShapes decls declared).bind fun _ _ => scoped_checkDeclarations scoped_checkConst decls

lemma scoped_checkProgram (program) {imports} (himports : ∀ i ∈ imports, ∀ target ∈ i.target, F.imports target)
    (hconstants : ∀ {σ σ'} constants, F.reads σ σ' →
      F.reads { σ with constants } { σ' with constants := constants.map (·.reannotate F.annotations) }) :
    Obeys F (checkProgram program imports) (checkProgram (program.reannotate F.annotations) imports) := by
  have hnodes : (program.reannotate F.annotations).decls = program.decls.map (·.reannotate F.annotations) := by
    rw [Program.decls, Program.reannotate, map_map, map_map]
    rfl
  simp only [checkProgram, hnodes]
  refine (scoped_declareImports himports).bind fun _ _ => ?_
  generalize program.decls = decls
  intro σ σ' f f' hσ hf
  have hnames := scoped_registerNames decls hσ hf
  rw [run_bind, run_pure] at hnames
  rw [run_bind, run_bind, hnames.same]
  generalize registerNames decls σ f = r at hnames ⊢
  have hends := scoped_checkNamed decls r.1 (hconstants (constantsOf r.1) hσ) hnames.knows
  rw [← constantsOf_reannotateDeclared] at hends
  exact { hends with goes := Tame.trans hnames.goes hends.goes, symbols := False.elim }

end

end SourceCheck
