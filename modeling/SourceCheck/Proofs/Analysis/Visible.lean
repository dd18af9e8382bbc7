import SourceCheck.Proofs.Analysis.Declarations
import SourceCheck.Proofs.Ty.Within

/-!
# What an analysis asks of other modules

The declarations of a module mention no types but its own, so its importers meet types of the modules they import
only. Hence an analysis keeps to a frame of two runs, against libraries that tell the same about these, up to places.
The second run may leave annotations out.
-/

namespace SourceCheck

open Check List SymbolTable SourceCheck.Frame Findings

variable {s : Symbol} {n : Nominal} {k : SymbolKind} {p : SemanticProblem}

/-- The module itself, and those it imports. -/
def Visible (own : String) (T : String → Prop) (m : String) : Prop :=
  m = own ∨ T m

variable {own : String} {T : String → Prop}

/-! ### Symbols of a module -/

/-- Variables mention visible types, imports the imported modules, declarations the module's own types. What is local
is not seen from outside. -/
structure Symbol.Confined (own : String) (T : String → Prop) (s : Symbol) : Prop where
  owned : s.kind.Formed True fun n _ => n.module = own
  nominal : ∀ info, s.kind.nominalInfo? = some info → info.nominal.module = own
  visible : ∀ t m o, s.kind = .variable t m o → t.Within (Visible own T)
  imported : ∀ path target, s.kind = .module path (some target) → T target
  hidden : s.kind.isLocal = true → s.visibility = none

def SymbolTable.Confined (own : String) (T : String → Prop) (t : SymbolTable) : Prop :=
  ∀ id s, t.get? id = some s → s.Confined own T

namespace SymbolTable

variable {t t' : SymbolTable}

lemma Confined.symbol? (h : t.Confined own T) {name} (hs : t.symbol? name = some s) : s.Confined own T := by
  obtain ⟨id, -, hget⟩ := Option.bind_eq_some_iff.1 hs
  exact h id s hget

lemma Confined.mem_globals (h : t.Confined own T) (hs : s ∈ t.globals) : s.Confined own T := by
  obtain ⟨id, hget⟩ := mem_iff_getElem?.mp (mem_filter.1 hs).1
  exact h id s (by simpa [get?] using hget)

lemma Confined.leave (h : t.Confined own T) : t.leave.Confined own T := by
  obtain ⟨i, hleave⟩ := leave_eq t
  rw [hleave]
  exact h

lemma Confined.define (h : t.Confined own T) (hs : s.Confined own T) {id}
    (hdefine : t.define s = .ok (id, t')) : t'.Confined own T := by
  intro k sym hget
  rw [get?_define hdefine] at hget
  split at hget
  · cases hget
    exact ⟨hs.owned, hs.nominal, hs.visible, hs.imported, hs.hidden⟩
  · exact h k sym hget

end SymbolTable

lemma confined_initial : initial.Confined own T := by
  intro id s hs
  obtain ⟨p, rfl⟩ := get?_initial hs
  refine ⟨fun sig hsig => ?_, nofun, nofun, nofun, nofun⟩
  have hshape (shape : Predeclared.Shape) (P : String → Prop) :
      shape.type.Formed (fun x => True ∨ P x) fun n _ => n.module = own := by
    cases shape <;> first | exact trivial | exact .inl trivial
  obtain ⟨sig, -, rfl⟩ := mem_map.1 hsig
  refine ⟨fun q hq => ?_, hshape _ _⟩
  obtain ⟨r, -, rfl⟩ := mem_map.1 hq
  exact hshape _ _

/-! ### Members of structs and enums -/

/-- The members of structs and enums, as importers see them. -/
def ModuleExports.nominals (e : ModuleExports) : NominalTable :=
  e.items.filterMap fun (name, item) => item.kind.members?.map fun ts => (⟨e.module, name⟩, ts)

lemma Findings.nominals_eq (f : Findings) (σ : Setting) :
    f.nominals σ = (f.symbols.globals.filterMap fun s =>
      s.kind.members?.map fun ts => (⟨σ.module, s.name⟩, ts)) ++
      (σ.library.filter (·.module ≠ σ.module)).flatMap ModuleExports.nominals :=
  rfl

lemma flatMap_nominals_unplaced (l : Library) :
    (l.map ModuleExports.unplaced).flatMap ModuleExports.nominals = l.flatMap ModuleExports.nominals := by
  rw [flatMap_map]
  congr 1
  funext e
  simp [ModuleExports.nominals, ModuleExports.unplaced, ExportedItem.unplaced, filterMap_map]

lemma Findings.lookup_nominals (f : Findings) {σ} (hn : n.module = σ.module) :
    (f.nominals σ).lookup n = (f.symbols.globals.filterMap fun s =>
      s.kind.members?.map fun ts => ((⟨σ.module, s.name⟩ : Nominal), ts)).lookup n := by
  have hnone : ((σ.library.filter (·.module ≠ σ.module)).flatMap ModuleExports.nominals).lookup n = none := by
    refine lookup_eq_none_iff.2 fun p hp => bne_iff_ne.2 fun hkey => ?_
    obtain ⟨e, he, hmem⟩ := mem_flatMap.1 hp
    obtain ⟨item, -, hmap⟩ := mem_filterMap.1 hmem
    obtain ⟨ts, -, rfl⟩ := Option.map_eq_some_iff.1 hmap
    have hne := (mem_filter.1 he).2
    simp [← hn, hkey] at hne
  rw [nominals_eq, lookup_append, hnone, Option.or_none]

lemma SymbolKind.Formed.members? {M : String → Prop} (h : k.Formed True fun n _ => M n.module)
    {ts} (hts : k.members? = some ts) : Ty.WithinAll M ts := by
  have hfree {t : Ty} {P : String → Prop} (h : t.Formed P fun n _ => M n.module) : t.Within M :=
    h.imp (fun _ _ => trivial) fun _ _ hn => hn
  rw [Ty.WithinAll, Ty.allFormed_iff]
  intro t ht
  match k with
  | .struct _ fields =>
    cases hts
    obtain ⟨f, hf, rfl⟩ := mem_map.1 ht
    exact hfree (h.2 f hf)
  | .enum _ variants =>
    cases hts
    obtain ⟨v, hv, rfl⟩ := mem_map.1 ht
    exact (h.2 v hv).imp (fun _ _ => trivial) fun _ _ hn => hn
  | .variable .. | .function _ | .const .. | .typeParam | .module .. => cases hts

/-! ### Settings -/

/-- A library that tells the same about the imported modules, up to places. What these export and the return type are
within the visible modules. -/
structure Setting.Alike (own : String) (T : String → Prop) (σ : Setting) (l : Library) : Prop where
  module : σ.module = own
  same : ∀ name, T name → (l.filter (·.module = name)).map ModuleExports.unplaced =
    (σ.library.filter (·.module = name)).map ModuleExports.unplaced
  exported : ∀ e ∈ σ.library, T e.module →
    ∀ item ∈ e.items, item.2.kind.Formed True fun n _ => Visible own T n.module
  returned : ∀ c ∈ σ.function, c.returnType.Within (Visible own T)

namespace Setting.Alike

variable {σ : Setting} {l : Library} (h : σ.Alike own T l)
include h

lemma module? {name} (hname : T name) :
    (l.module? name).map ModuleExports.unplaced = (σ.library.module? name).map ModuleExports.unplaced := by
  rw [Library.module?, Library.module?, ← List.head?_filter, ← List.head?_filter, ← List.head?_map,
    ← List.head?_map, h.same name hname]

lemma formed_item? {name member} (hname : T name) {e} (he : σ.library.module? name = some e) {item}
    (hitem : e.item? member = some item) : item.kind.Formed True fun n _ => Visible own T n.module := by
  have hmodule : e.module = name := by
    simpa using List.find?_some (p := fun e : ModuleExports => e.module = name) he
  obtain ⟨before, after, hitems, -⟩ := lookup_eq_some_iff.1 hitem
  have hmem : (member, item) ∈ e.items := by simp [hitems]
  exact h.exported e (mem_of_find?_eq_some he) (hmodule ▸ hname) _ hmem

lemma item? {name} (hname : T name) (member) :
    ((l.module? name).bind (·.item? member)).map ExportedItem.unplaced =
      ((σ.library.module? name).bind (·.item? member)).map ExportedItem.unplaced := by
  have hitem (o : Option ModuleExports) : (o.bind (·.item? member)).map ExportedItem.unplaced =
      (o.map ModuleExports.unplaced).bind (·.item? member) := by
    cases o with
    | none => rfl
    | some e => exact (e.item?_unplaced member).symm
  rw [hitem, hitem, h.module? hname]

end Setting.Alike

/-! ### Leaving annotations out -/

/-- Without its memory strategy if annotations are left out. -/
def SymbolKind.stripped (bare : Bool) (k : SymbolKind) : SymbolKind :=
  if bare then k.unowned else k

/-- A symbol without its memory strategy if annotations are left out. -/
def Symbol.stripped (bare : Bool) (s : Symbol) : Symbol :=
  { s with kind := s.kind.stripped bare }

def SemanticProblem.isRemark (p : SemanticProblem) : Bool :=
  p.kind = .annotationConflict

lemma SemanticProblem.isRemark_of_isSpecial (h : p.isSpecial = false) : p.isRemark = false := by
  cases p with
  | constCycle _ => rfl
  | _ => exact h

def Findings.remarks (f : Findings) : List (Report SemanticProblem) :=
  f.problems.filter (·.cause.isRemark)

def Findings.stripped (bare : Bool) (f : Findings) : Findings :=
  { f with
    symbols := f.symbols.mapSymbols (·.stripped bare)
    problems := f.problems.filter fun r => !(bare && r.cause.isRemark) }

section

variable {bare : Bool}

@[simp]
lemma SymbolKind.unowned_stripped (k : SymbolKind) : (k.stripped bare).unowned = k.unowned := by
  cases bare <;> cases k <;> rfl

lemma SymbolKind.stripped_eq_self (h : k.unowned = k) : k.stripped bare = k := by
  rw [stripped, h, ite_id]

@[simp]
lemma SymbolKind.members?_stripped (k : SymbolKind) : (k.stripped bare).members? = k.members? := by
  cases bare <;> cases k <;> rfl

lemma Symbol.stripped_false (s : Symbol) : s.stripped false = s :=
  rfl

lemma Symbol.stripped_eq_self {s : Symbol} (h : s.kind.unowned = s.kind) : s.stripped bare = s := by
  rw [stripped, SymbolKind.stripped_eq_self h]

lemma Findings.stripped_false (f : Findings) : f.stripped false = f := by
  have hsymbols : f.symbols.mapSymbols (·.stripped false) = f.symbols := by
    simp [mapSymbols, Symbol.stripped_false]
  simp [stripped, hsymbols]

lemma Findings.stripped_initial : stripped bare {} = {} := by
  have hsymbols : initial.symbols.map (·.stripped bare) = initial.symbols := by
    refine Array.ext_getElem? fun id => ?_
    rw [Array.getElem?_map]
    cases hs : initial.symbols[id]? with
    | none => rfl
    | some s =>
      obtain ⟨p, rfl⟩ := get?_initial hs
      exact congrArg some (Symbol.stripped_eq_self rfl)
  simp [stripped, mapSymbols, hsymbols]

lemma Findings.stripped_report (f : Findings) (hp : (bare && p.isRemark) = false) (span : Span) :
    stripped bare (f.noted p span) =
      { f.stripped bare with problems := ⟨p, span⟩ :: (f.stripped bare).problems } := by
  rw [stripped, filter_cons_of_pos (by simp [hp])]
  rfl

lemma Findings.length_problems_stripped (f : Findings) :
    (f.stripped bare).problems.length = f.problems.length - if bare then f.remarks.length else 0 := by
  cases bare with
  | false => rw [f.stripped_false, if_neg Bool.false_ne_true, Nat.sub_zero]
  | true =>
    have hlength := length_eq_length_filter_add (l := f.problems) fun r => r.cause.isRemark
    rw [if_pos rfl, hlength, remarks, Nat.add_sub_cancel_left]
    rfl

lemma Findings.placeProblem?_stripped (f usage root) :
    placeProblem? (f.stripped bare) usage root = placeProblem? f usage root := by
  cases root with
  | binding name =>
    show ((f.symbols.mapSymbols (·.stripped bare)).symbol? name).bind _ = _
    rw [symbol?_mapSymbols, Option.bind_map]
    refine congrArg _ (funext fun s => ?_)
    obtain ⟨_, kind, _, _, _⟩ := s
    cases bare <;> cases kind <;> rfl
  | _ => rfl

end

/-! ### The frame of two runs -/

/-- Two runs against libraries that tell the same. The second may leave annotations out, and the first is quiet if
nothing is said about them. -/
def Frame.visible (own : String) (T : String → Prop) (bare : Bool) (quiet : Prop) : Frame where
  params _ := True
  nominal n _ := Visible own T n.module
  declared n _ := Visible own T n.module
  own n := n.module = own
  generic _ := false
  imports := T
  place _ := True
  bare
  reads σ σ' := σ.Alike own T σ'.library ∧ σ' = { σ with
    library := σ'.library
    constants := σ.constants.map (·.reannotate (if bare then fun _ => [] else id)) }
  knows f f' := f' = f.stripped bare ∧ f.symbols.Confined own T
  goes f g := quiet → g.remarks = f.remarks

section

variable {bare : Bool} {quiet : Prop}

lemma Symbol.Confined.seen (h : s.Confined own T) (name) : (Frame.visible own T bare quiet).Seen name s.kind where
  owned := h.owned.imp (fun _ _ => trivial) fun n _ hn => ⟨.inl hn, hn⟩
  declared info hinfo := ⟨.inl (h.nominal info hinfo), h.nominal info hinfo⟩
  generic _ _ := .inr fun _ => trivial
  isLocal := by
    cases hk : s.kind with
    | «variable» t m o => exact h.visible t m o hk
    | _ => exact trivial
  imported := h.imported

lemma Frame.Known.confined (h : (visible own T bare quiet).Known s) : s.Confined own T where
  owned := h.seen.owned.imp (fun _ => trivial) fun _ _ hn => hn.2
  nominal info hinfo := (h.seen.declared info hinfo).2
  visible t m o hk := by
    have hlocal := h.seen.isLocal
    rw [hk] at hlocal
    exact hlocal
  imported := h.seen.imported
  hidden := h.hidden

lemma Frame.kind_visible {name} (h : k.Formed True fun n _ => Visible own T n.module) :
    (visible own T bare quiet).Kind name k :=
  ⟨h.imp (fun _ _ => trivial) fun _ _ hn => hn, fun _ _ => .inr fun _ => trivial⟩

variable {σ σ' : Setting} {f f' : Findings}

lemma Setting.Alike.formed_nominal? {l} (h : σ.Alike own T l) (hf : f.symbols.Confined own T)
    (hn : Visible own T n.module) (hk : f.nominal? σ n = some k) :
    k.Formed True fun n _ => Visible own T n.module := by
  rw [Findings.nominal?] at hk
  split at hk
  · obtain ⟨⟨id, s⟩, hp, rfl⟩ := Option.map_eq_some_iff.1 hk
    exact (hf id s (get?_of_global? hp)).owned.imp (fun _ => trivial) fun _ _ => .inl
  · rename_i hne
    obtain ⟨item, hitem, rfl⟩ := Option.map_eq_some_iff.1 hk
    obtain ⟨e, he, hitem⟩ := Option.bind_eq_some_iff.1 hitem
    exact h.formed_item? (hn.resolve_left fun e => hne (e.trans h.module.symm)) he hitem

lemma Findings.nominal?_stripped (hσ : (visible own T bare quiet).reads σ σ') (hn : Visible own T n.module) :
    ((f.stripped bare).nominal? σ' n).map (·.unowned.unplaced) = (f.nominal? σ n).map (·.unowned.unplaced) := by
  have hcomm (k : SymbolKind) : k.unowned.unplaced = k.unplaced.unowned := by cases k <;> rfl
  have hmodule : σ'.module = σ.module := by rw [hσ.2]
  simp only [nominal?, hmodule]
  split
  · rw [show (f.stripped bare).symbols = f.symbols.mapSymbols (·.stripped bare) from rfl,
      global?_mapSymbols]
    simp only [Option.map_map, Function.comp_def, Symbol.stripped, SymbolKind.unowned_stripped]
  · rename_i hne
    have hitem := hσ.1.item? (hn.resolve_left fun e => hne (e.trans hσ.1.module.symm)) n.name
    have hkind := congrArg (Option.map fun item => item.kind.unowned) hitem
    simp only [Option.map_map, Function.comp_def, ExportedItem.unplaced, ← hcomm] at hkind ⊢
    exact hkind

lemma Findings.nominals_agree (hσ : (visible own T bare quiet).reads σ σ') (hf : f.symbols.Confined own T) :
    NominalTable.Agree (· = own) (f.nominals σ) ((f.stripped bare).nominals σ') := by
  have hmodule : σ'.module = σ.module := by rw [hσ.2]
  constructor
  · intro n hn
    have hn : n.module = σ.module := hn.trans hσ.1.module.symm
    rw [f.lookup_nominals hn, lookup_nominals _ (hn.trans hmodule.symm), hmodule,
      show (f.stripped bare).symbols = f.symbols.mapSymbols (·.stripped bare) from rfl,
      globals_mapSymbols (g := (·.stripped bare)) _ fun _ => rfl, filterMap_map]
    simp only [Function.comp_def, Symbol.stripped, SymbolKind.members?_stripped]
  · intro n ts hn hts
    rw [f.lookup_nominals (hn.trans hσ.1.module.symm)] at hts
    obtain ⟨before, after, htable, -⟩ := lookup_eq_some_iff.1 hts
    obtain ⟨s, hs, hmap⟩ := mem_filterMap.1 (htable ▸ mem_append_right before mem_cons_self)
    obtain ⟨us, hus, heq⟩ := Option.map_eq_some_iff.1 hmap
    obtain ⟨-, rfl⟩ := Prod.mk.inj heq
    exact (hf.mem_globals hs).owned.members? hus

lemma Frame.report_visible (span : Span) (hp : p.isRemark = false) (hf : (visible own T bare quiet).knows f f') :
    (visible own T bare quiet).knows (f.noted p span) (f'.noted p span) ∧
      (visible own T bare quiet).goes f (f.noted p span) := by
  refine ⟨⟨by rw [hf.1, stripped_report _ (by simp [hp])], hf.2⟩, fun _ => ?_⟩
  exact filter_cons_of_neg (by simp [hp])

instance : (Frame.visible own T bare quiet).Lawful where
  length_eq _ _ := .inr fun _ => trivial
  params_eq _ _ := .inr fun _ => trivial
  nominal h := h
  refl _ _ := rfl
  trans hfg hgh hquiet := (hgh hquiet).trans (hfg hquiet)
  report p span hf hp := Frame.report_visible span (SemanticProblem.isRemark_of_isSpecial hp) hf
  type hf _ _ := ⟨⟨by rw [hf.1]; rfl, hf.2⟩, fun _ => rfl⟩
  call _ _ hf := ⟨⟨by rw [hf.1]; rfl, hf.2⟩, fun _ => rfl⟩
  size _ _ hf := ⟨⟨by rw [hf.1]; rfl, hf.2⟩, fun _ => rfl⟩
  module hσ := by rw [hσ.2]
  inside kind hf := by
    rw [hf.1]
    exact SymbolTable.inside_mapSymbols _ _ kind
  placeProblem? usage root hf := by rw [hf.1, Findings.placeProblem?_stripped]
  exprTypes hf := by rw [hf.1]; rfl
  seen {_ _ name _} hf hs := (hf.2.symbol? hs).seen name
  symbol? name hf := by
    rw [hf.1, show (Findings.stripped bare _).symbols = SymbolTable.mapSymbols _ (·.stripped bare) from rfl,
      SymbolTable.symbol?_mapSymbols, Option.map_map]
    simp only [Function.comp_def, Symbol.stripped, SymbolKind.unowned_stripped]
  nominalKind hσ hf hn hk := ⟨Frame.kind_visible (hσ.1.formed_nominal? hf.2 hn hk), fun _ _ => hn⟩
  nominal? hσ hf hn := by rw [hf.1, Findings.nominal?_stripped hσ hn]
  library hσ htarget := hσ.1.module? htarget
  layout hσ hf ht := by
    rw [hf.1]
    exact Ty.layout_congr (Findings.nominals_agree hσ hf.2) (ht.imp (fun _ _ => trivial) fun _ _ hn => hn.2)

lemma Frame.foldable_visible :
    (visible own T bare quiet).Foldable (·.reannotate (visible own T bare quiet).annotations) where
  name _ := rfl
  value _ := rfl
  reads hσ := by
    rw [hσ.2]
    exact ⟨rfl, rfl⟩
  knows hf := by
    rw [hf.1]
    exact ⟨rfl, rfl⟩
  changes _ _ hf := ⟨⟨by rw [hf.1]; rfl, hf.2⟩, fun _ => rfl⟩
  cycle _ span hf := report_visible span rfl hf

instance : (Frame.visible own T bare quiet).Folding :=
  Frame.foldable_visible.folding

instance : (Frame.visible own T bare quiet).Inferring where
  exported hσ htarget he hitem := Frame.kind_visible (hσ.1.formed_item? htarget he hitem)

lemma Frame.define_visible (hf : (visible own T bare quiet).knows f f') (hs : s.Confined own T)
    {id table} (hdefine : f.symbols.define s = .ok (id, table)) :
    ∃ table', f'.symbols.define (s.stripped bare) = .ok (id, table') ∧
      (visible own T bare quiet).knows { f with symbols := table } { f' with symbols := table' } := by
  rw [hf.1]
  refine ⟨_, define_mapSymbols rfl rfl hdefine, rfl, hf.2.define hs hdefine⟩

lemma Frame.Declarable.confined (h : (visible own T bare quiet).Declarable s) : s.Confined own T := by
  obtain ⟨hlocal, hadmitted, hhidden⟩ := h
  obtain ⟨_, kind, _, _, _⟩ := s
  cases kind with
  | «variable» t m o =>
    refine ⟨trivial, nofun, fun _ _ _ hk => ?_, nofun, fun _ => hhidden⟩
    cases hk
    exact hadmitted
  | typeParam => exact ⟨trivial, nofun, nofun, nofun, fun _ => hhidden⟩
  | _ => cases hlocal

lemma SymbolKind.unowned_of_isLocal (h : k.isLocal = true) : k.unowned = k := by
  cases k <;> first | rfl | cases h

instance : (Frame.visible own T bare quiet).Declaring where
  define_ok {_ _ s _ _} hf hs hdefine := by
    obtain ⟨table', hdefine', hknows⟩ := Frame.define_visible hf hs.confined hdefine
    rw [Symbol.stripped_eq_self (SymbolKind.unowned_of_isLocal hs.isLocal)] at hdefine'
    exact ⟨table', hdefine', hknows, fun _ => rfl⟩
  define_error {f _ s previous} hf hdefine := by
    rw [hf.1]
    obtain ⟨k, hk⟩ := SymbolTable.define_eq_error hdefine
    have hlocal : (f.stripped bare).symbols.lookupLocal s.name = some k := hk
    rw [SymbolTable.define, hk] at hdefine
    rw [SymbolTable.define, hlocal, ← hdefine]
    show Except.error (((f.symbols.mapSymbols (·.stripped bare)).get? k).map (·.span) |>.getD default) = _
    rw [SymbolTable.get?_mapSymbols, Option.map_map]
    rfl

lemma Frame.armPattern_visible {t} (ht : (visible own T bare quiet).Admits t) (p : Pattern) :
    Obeys (visible own T bare False) (checkArmPattern t p) (checkArmPattern t p) := by
  intro σ σ' f f' hσ hf
  have hends := scoped_checkPattern (F := visible own T bare True) ht p hσ hf
  have hcount : ((checkPattern t p σ' f').2.problems.length = f'.problems.length) =
      ((checkPattern t p σ f).2.problems.length = f.problems.length) := by
    have hremarks := hends.goes trivial
    have hbefore := length_filter_le (·.cause.isRemark) f.problems
    have hafter := length_filter_le (·.cause.isRemark) (checkPattern t p σ f).2.problems
    rw [hends.knows.1, hf.1, length_problems_stripped, length_problems_stripped, hremarks]
    simp only [remarks] at hremarks ⊢
    rw [hremarks] at hafter
    refine propext ?_
    split <;> omega
  refine ⟨?_, trivial, hends.knows, False.elim, False.elim⟩
  show decide ((checkPattern t p σ' f').2.problems.length = f'.problems.length) =
    decide ((checkPattern t p σ f).2.problems.length = f.problems.length)
  simp only [hcount]

instance : (Frame.visible own T bare False).Checking where
  remark p span hf hp := by
    have hremark : p.isRemark = true := decide_eq_true hp
    refine ⟨⟨?_, hf.2⟩, False.elim⟩
    rw [hf.1]
    cases bare with
    | false => rw [Findings.stripped_report _ rfl]; rfl
    | true => simp [Frame.visible, Findings.stripped, hremark]
  enter kind hf := ⟨by rw [hf.1]; rfl, hf.2⟩
  leave kind hf _ hg := by
    refine ⟨⟨?_, hg.2.leave⟩, False.elim⟩
    rw [hg.1]
    simp only [Findings.stripped, SymbolTable.leave_mapSymbols]
  returned hσ := ⟨by rw [hσ.2], hσ.1.returned⟩
  function {_ _ c} hσ hc := by
    refine ⟨⟨hσ.1.module, hσ.1.same, hσ.1.exported, fun d hd => ?_⟩, by rw [hσ.2]⟩
    cases hd
    exact hc
  armPattern p ht := Frame.armPattern_visible ht p

instance : (Frame.visible own T bare False).Declares where
  params _ := trivial
  place _ := trivial
  generic := rfl
  global {_ _ name _ _} hf hs := (hf.2 _ _ (SymbolTable.get?_of_global? hs)).seen name
  global? name hf := by
    rw [hf.1, show (Findings.stripped bare _).symbols = SymbolTable.mapSymbols _ (·.stripped bare) from rfl,
      SymbolTable.global?_mapSymbols, Option.map_map]
    simp only [Function.comp_def, Symbol.stripped, Symbol.unowned, SymbolKind.unowned_stripped]
  isEntry hσ := by rw [hσ.2]

lemma Frame.constants_visible (constants) (h : (visible own T bare quiet).reads σ σ') :
    (visible own T bare quiet).reads { σ with constants } { σ' with
      constants := constants.map (·.reannotate (visible own T bare quiet).annotations) } :=
  ⟨⟨h.1.module, h.1.same, h.1.exported, h.1.returned⟩, by rw [h.2]; rfl⟩

lemma Frame.symbol_visible (s) : (visible own T bare quiet).symbol s = s.stripped bare := by
  cases bare <;> rfl

instance : (Frame.visible own T bare False).Collects where
  value _ _ hf := ⟨⟨by rw [hf.1]; rfl, hf.2⟩, False.elim⟩
  define hf hs hdefine := by
    obtain ⟨table', hdefine', hknows⟩ := Frame.define_visible hf hs.confined hdefine
    exact ⟨table', Frame.symbol_visible _ ▸ hdefine', hknows, False.elim⟩
  reshape {f _ g} id hf hg := by
    have hstripped (k : SymbolKind) : g (k.stripped bare) = (g k).stripped bare := by
      cases bare with
      | false => rfl
      | true => exact hg.unowned k
    refine ⟨⟨?_, fun k s hget => ?_⟩, False.elim⟩
    · rw [hf.1]
      simp only [Findings.stripped]
      rw [SymbolTable.modifySymbol_mapSymbols f.symbols id
        (k := fun s => { s with kind := g s.kind }) fun s => by simp only [Symbol.stripped, hstripped]]
    · rw [SymbolTable.get?_modifySymbol] at hget
      split at hget
      · obtain ⟨s, hs, rfl⟩ := Option.map_eq_some_iff.mp hget
        have hknown := hf.2 k s hs
        have hafter : (Frame.visible own T bare False).Known { s with kind := g s.kind } :=
          ⟨hg.seen (hknown.seen s.name), fun hlocal => hknown.hidden (hg.isLocal _ ▸ hlocal)⟩
        exact hafter.confined
      · exact hf.2 k s hget
  own _ _ hσ := ⟨.inl hσ.1.module, hσ.1.module⟩
  isInfinite hσ hf hn := by
    rw [hf.1]
    exact NominalTable.isInfinite_congr (Findings.nominals_agree hσ hf.2) hn

end

/-! ### Modules -/

def ModuleExports.Confined (e : ModuleExports) : Prop :=
  ∀ item ∈ e.items, item.2.kind.Formed True fun n _ => n.module = e.module

section Analysis

variable {program : Program} {imports : List ImportBinding} {library other : Library} {options : AnalysisOptions}

lemma alike_setting {package} (hconfined : ∀ e ∈ library, e.Confined)
    (hsame : ∀ name, T name → (other.filter (·.module = name)).map ModuleExports.unplaced =
      (library.filter (·.module = name)).map ModuleExports.unplaced) :
    (options.setting own package library).Alike own T other where
  module := rfl
  same := hsame
  exported e he hT item hitem := by
    refine (hconfined e he item hitem).imp id fun n _ hn => .inr ?_
    rw [hn]
    exact hT
  returned c hc := by cases hc

def Targeted (imports : List ImportBinding) (name : String) : Prop :=
  ∃ i ∈ imports, i.target = some name

lemma visible_findingsOf (program own imports options bare) (hconfined : ∀ e ∈ library, e.Confined)
    (hsame : ∀ name, Targeted imports name → (other.filter (·.module = name)).map ModuleExports.unplaced =
      (library.filter (·.module = name)).map ModuleExports.unplaced) :
    (visible own (Targeted imports) bare False).knows (findingsOf program own imports library options)
      (findingsOf (program.reannotate (if bare then fun _ => [] else id)) own imports other options) := by
  have hrun := scoped_checkProgram (F := visible own (Targeted imports) bare False) program
    (fun i hi target htarget => ⟨i, hi, htarget⟩) constants_visible
  exact (hrun ⟨alike_setting hconfined hsame, rfl⟩ ⟨stripped_initial.symm, confined_initial⟩).knows

lemma analyzeModule_congr (hconfined : ∀ e ∈ library, e.Confined)
    (hsame : ∀ name, Targeted imports name → (other.filter (·.module = name)).map ModuleExports.unplaced =
      (library.filter (·.module = name)).map ModuleExports.unplaced) :
    analyzeModule program own imports other options =
      analyzeModule program own imports library options := by
  have hfindings := (visible_findingsOf program own imports options false hconfined hsame).1
  rw [stripped_false] at hfindings
  simp only [Bool.false_eq_true, if_false, program.reannotate_id] at hfindings
  simp only [analyzeModule, hfindings]

lemma confined_exports (hconfined : ∀ e ∈ library, e.Confined) :
    (analyzeModule program own imports library options).exports.Confined := by
  have hsymbols := (visible_findingsOf program own imports options false hconfined fun _ _ => rfl).2
  intro item hitem
  obtain ⟨s, hs, hexport⟩ := mem_filterMap.1 hitem
  split at hexport
  · cases hexport
  · cases hexport
  · cases hexport
    exact (hsymbols.mem_globals hs).owned

end Analysis

end SourceCheck
