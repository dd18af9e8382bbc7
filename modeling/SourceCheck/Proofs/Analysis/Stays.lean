import SourceCheck.Proofs.Analysis.Declared
import SourceCheck.Proofs.Analysis.Writes

/-!
# Before bodies are checked

Collecting declarations and folding constants stays in the scope of the module, and declares no mutable variables.
-/

namespace SourceCheck

open Check SymbolTable

variable {id : Nat} {α : Type}

/-! ### Tables -/

/-- A table with a current scope and without mutable variables. -/
structure SymbolTable.Immutable (t : SymbolTable) : Prop where
  isOpen : t.Open
  parents : ∀ i c, t.scope? i = some c → ∀ p ∈ c.parent, p < t.scopes.size
  immutable : ∀ id s, t.get? id = some s → s.kind.isMutable = false

namespace SymbolTable.Immutable

variable {t t' : SymbolTable}

lemma enter (h : t.Immutable) (kind) : (t.enter kind).Immutable where
  isOpen := isOpen_enter t kind
  parents i c hc p hp := by
    have hopen : t.current < t.scopes.size := h.isOpen
    simp only [scope?, SymbolTable.enter, Array.getElem?_push, Array.size_push] at hc ⊢
    split at hc
    · cases hc
      obtain rfl := Option.mem_some.1 hp
      omega
    · have := h.parents i c hc p hp
      omega
  immutable := h.immutable

lemma leave (h : t.Immutable) : t.leave.Immutable := by
  unfold SymbolTable.leave
  split
  · rename_i parent hparent
    obtain ⟨c, hc, hp⟩ := Option.bind_eq_some_iff.1 hparent
    exact ⟨h.parents _ c hc parent hp, h.parents, h.immutable⟩
  · exact h

lemma define (h : t.Immutable) {s} (hs : s.kind.isMutable = false)
    (hdefine : t.define s = .ok (id, t')) : t'.Immutable where
  isOpen := (extends_define hdefine).isOpen h.isOpen
  parents i c hc p hp := by
    refine Nat.lt_of_lt_of_le ?_ (extends_define hdefine).size
    rw [scope?_define hdefine] at hc
    split at hc
    · obtain ⟨c', hc', rfl⟩ := Option.map_eq_some_iff.1 hc
      exact h.parents i c' hc' p hp
    · exact h.parents i c hc p hp
  immutable k s' hget := by
    rw [get?_define hdefine] at hget
    split at hget
    · cases hget
      exact hs
    · exact h.immutable k s' hget

lemma modifyKind (h : t.Immutable) {g : SymbolKind → SymbolKind}
    (hg : ∀ k, (g k).isMutable = true → k.isMutable = true) :
    (t.modifySymbol id fun s => { s with kind := g s.kind }).Immutable where
  isOpen := h.isOpen
  parents := h.parents
  immutable k s' hget := by
    rw [get?_modifySymbol] at hget
    split at hget
    · obtain ⟨s, hs, rfl⟩ := Option.map_eq_some_iff.1 hget
      exact Bool.eq_false_iff.2 fun hmutable => Bool.eq_false_iff.1 (h.immutable k s hs) (hg _ hmutable)
    · exact h.immutable k s' hget

lemma sees {module} (h : t.Immutable) (hsound : t.Sound module) : t.Sees module [] where
  sound := hsound
  isOpen := h.isOpen
  mutable name hname := by
    obtain ⟨s, hs, hmutable⟩ := hname
    obtain ⟨id, -, hget⟩ := Option.bind_eq_some_iff.1 hs
    simp [h.immutable id s hget] at hmutable

end SymbolTable.Immutable

/-- The frame of another table, and no mutable variables if that has none. -/
structure SymbolTable.Stays (t t' : SymbolTable) : Prop where
  frames : t.Frames t'
  immutable : t.Immutable → t'.Immutable

namespace SymbolTable.Stays

variable {t t' t'' : SymbolTable}

lemma refl (t : SymbolTable) : t.Stays t :=
  ⟨.refl t, id⟩

lemma trans (h : t.Stays t') (h' : t'.Stays t'') : t.Stays t'' :=
  ⟨h.frames.trans h'.frames, fun himmutable => h'.immutable (h.immutable himmutable)⟩

lemma leave {kind} (h : (t.enter kind).Stays t') : t.Stays t'.leave :=
  ⟨h.frames.leave, fun himmutable => (h.immutable (himmutable.enter kind)).leave⟩

end SymbolTable.Stays

lemma SymbolTable.AtModule.stays {module} {t t' : SymbolTable} (h : t.AtModule module) (hstays : t.Stays t')
    (hsound : t'.Sound module) : t'.AtModule module where
  sound := hsound
  current := hstays.frames.current.trans h.current
  scope := by
    have hlt : moduleScope < t.scopes.size :=
      (Array.getElem?_eq_some_iff.1 (Option.isSome_iff_exists.1 h.scope).choose_spec).1
    exact Option.isSome_iff_exists.2 ⟨_, Array.getElem?_eq_getElem (Nat.lt_of_lt_of_le hlt hstays.frames.size)⟩

lemma immutable_initial : initial.Immutable where
  isOpen := isOpen_enter _ .module
  parents i c hc p hp := by
    have hall : ∀ c ∈ initial.scopes.toList, ∀ p ∈ c.parent, p < initial.scopes.size := by
      decide +kernel
    exact hall c (Array.mem_toList_iff.2 (Array.mem_of_getElem? hc)) p hp
  immutable id s hget := by
    obtain ⟨p, rfl⟩ := get?_initial hget
    rfl

namespace Check

variable {α β : Type} {c : Check α} {k : α → Check β}

/-- A step that stays in the current scope and makes no mutable variables. -/
def KeepsTable (c : Check α) : Prop :=
  ∀ (σ : Setting) (f : Findings), f.symbols.Stays (c σ f).2.symbols

lemma Plain.keepsTable (h : Plain c) : KeepsTable c := by
  intro σ f
  rw [h.symbols σ f]
  exact .refl _

lemma KeepsTable.bind (h : KeepsTable c) (hk : ∀ a, KeepsTable (k a)) : KeepsTable (c >>= k) :=
  fun σ f => (h σ f).trans (hk _ σ _)

lemma keepsTable_forM {l : List α} {k} (h : ∀ a ∈ l, KeepsTable (k a)) : KeepsTable (l.forM k) := by
  induction l with
  | nil => exact (plain_pure ()).keepsTable
  | cons a l ih => exact (h a (by simp)).bind fun _ => ih fun b hb => h b (by simp [hb])

lemma KeepsTable.scoped (h : KeepsTable c) (kind) : KeepsTable (inScope kind c) :=
  fun σ f => (h σ (f.enter kind)).leave

lemma keepsTable_define {s} (hs : s.kind.isMutable = false) : KeepsTable (define s) := by
  intro σ f
  cases hdefine : f.symbols.define s with
  | ok p =>
    rw [run_define_ok hdefine]
    exact ⟨frames_define hdefine, fun himmutable => himmutable.define hs hdefine⟩
  | error previous =>
    rw [run_define_error hdefine]
    exact .refl _

lemma keepsTable_setKind {g : SymbolKind → SymbolKind}
    (hg : ∀ k, (g k).isMutable = true → k.isMutable = true) : KeepsTable (setKind id g) :=
  fun _ _ => ⟨⟨rfl, Nat.le_refl _, fun _ _ => rfl⟩, fun himmutable => himmutable.modifyKind hg⟩

end Check

/-! ### Declarations -/

lemma keepsTable_withTypeParams (params) {step : Check α} (h : Plain step) :
    KeepsTable (withTypeParams params step) := by
  have hdeclare (p : Name) : KeepsTable (declare (typeParamSymbol p)) := by
    refine (keepsTable_define rfl).bind fun r => ?_
    cases r with
    | ok id => exact (plain_pure ()).keepsTable
    | error previous => exact (plain_report _ _).keepsTable
  unfold withTypeParams
  split
  · exact h.keepsTable
  · exact ((keepsTable_forM fun p _ => hdeclare p).bind fun _ => h.keepsTable).scoped .block

lemma keepsTable_registerName (d) : KeepsTable (registerName d) := by
  refine fun σ f => registerName_induction (P := fun g => f.symbols.Stays g.symbols) (.refl _)
    (fun {s _ _} hsym hdefine => ?_) fun _ => .refl _
  have hkind : s.kind.isMutable = false := by
    cases d <;> cases hsym <;> rfl
  exact ⟨frames_define hdefine, fun himmutable => himmutable.define hkind hdefine⟩

lemma keepsTable_registerNames (ds) : KeepsTable (registerNames ds) := fun σ f =>
  registerNames_induction (P := fun g => f.symbols.Stays g.symbols)
    (fun d _ g hg => hg.trans (keepsTable_registerName d σ g)) (.refl _)

lemma gathers_keepsTable : Gathers KeepsTable where
  bind _ hc hP hk σ f := (hc σ f).trans (hk _ (hP σ f) σ _)
  quiet hc σ f := by
    rw [hc σ f]
    exact .refl _
  typed params _ hc := keepsTable_withTypeParams params (hc .steps).plain
  setKind id g hg := keepsTable_setKind fun k hmutable => by
    unfold SymbolKind.isMutable at hmutable
    split at hmutable
    · rename_i hk
      rwa [hg.bound hk]
    · cases hmutable

lemma plain_global? (name) : Plain (global? name) :=
  ⟨local_global? name, fun _ _ => rfl⟩

lemma keepsTable_checkConst (c) : KeepsTable (checkConst c) := by
  refine (plain_global? _).keepsTable.bind fun g => ?_
  split
  · split
    · refine (plain_recordType _ _).keepsTable.bind fun _ => ?_
      refine (local_constValue _ _ _ trivial).plain.keepsTable.bind fun v => ?_
      unfold noteValue
      split
      · exact (plain_pure ()).keepsTable
      · split
        · exact (plain_report _ _).keepsTable
        · exact (keepsTable_setKind fun k h => by cases k <;> exact h).bind fun _ _ _ => .refl _
    · exact (plain_pure ()).keepsTable
  · exact (plain_pure ()).keepsTable

/-! ### Modules -/

lemma keepsTable_collectDeclarations (imports decls) : KeepsTable (collectDeclarations imports decls) := by
  have hdeclare (i : ImportBinding) : KeepsTable (declareFirst i.symbol) :=
    (keepsTable_define rfl).bind fun _ => (plain_pure ()).keepsTable
  refine (keepsTable_forM fun i _ => hdeclare i).bind fun _ => ?_
  refine (keepsTable_registerNames _).bind fun declared => ?_
  refine KeepsTable.bind (fun _ f => ?_) fun _ => (plain_pure _).keepsTable
  exact gathers_keepsTable.collectShapes decls declared _ f

lemma keepsTable_checkConstDeclaration (d) : KeepsTable (checkConstDeclaration d) := by
  cases d with
  | const c => exact (plain_checkAnnotations _ _ _).keepsTable.bind fun _ => keepsTable_checkConst c
  | _ => exact (plain_pure ()).keepsTable

end SourceCheck
