import Mathlib.Data.Finmap
import SourceCheck.Proofs.Symbol.Scopes

/-!
# A table is a stack of maps

A table keeps every scope it ever had, in a tree with a movable current scope. To whoever uses it, it is a stack of
finite maps (`ScopeStack`): scopes that are left are gone, all but that of the module, and the root is never left.
-/

namespace SourceCheck

/-- What can be done to a table of names, and asked of it. -/
inductive NameRequest where
  | enter (kind : ScopeKind)
  | leave
  | define (s : Symbol)
  | lookup (name : String)
  | lookupLocal (name : String)
  | lookupGlobal (name : String)
  | inside (kind : ScopeKind)

inductive NameAnswer where
  | entered (scope : Nat)
  | left
  | defined (id : Nat)
  | taken (previous : Span)
  | found (id : Option Nat)
  | isInside (answer : Bool)
deriving DecidableEq

/-- The answers to requests one after the other, and the state after them. -/
def serveAll {σ : Type} (serve : σ → NameRequest → NameAnswer × σ) (s : σ) :
    List NameRequest → List NameAnswer × σ
  | [] => ([], s)
  | r :: rs =>
    let rest := serveAll serve (serve s r).2 rs
    ((serve s r).1 :: rest.1, rest.2)

def SymbolTable.serve (t : SymbolTable) : NameRequest → NameAnswer × SymbolTable
  | .enter kind => (.entered (t.enter kind).current, t.enter kind)
  | .leave => (.left, t.leave)
  | .define s =>
    match t.define s with
    | .ok (id, t') => (.defined id, t')
    | .error previous => (.taken previous, t)
  | .lookup name => (.found (t.lookup name), t)
  | .lookupLocal name => (.found (t.lookupLocal name), t)
  | .lookupGlobal name => (.found (t.lookupGlobal name), t)
  | .inside kind => (.isInside (t.inside kind), t)

/-! ### Stacks -/

/-- The numbers of the names in a scope. -/
abbrev NameMap : Type :=
  Finmap fun _ : String => Nat

abbrev Layer : Type :=
  ScopeKind × NameMap

/-- The open scopes. Below the inner ones stand that of the module, until it is left, and the root. -/
structure ScopeStack where
  inner : List Layer
  inModule : Bool
  module : NameMap
  root : NameMap
  /-- The places of all names. The number of a name is its position here. -/
  places : List Span
  /-- How many scopes there have been. -/
  scopes : Nat

/-- Functions and methods hide the scopes around them. -/
def ScopeKind.hides (kind : ScopeKind) : Bool :=
  kind = .function || kind = .method

namespace ScopeStack

/-- All open scopes, innermost first. -/
def layers (s : ScopeStack) : List Layer :=
  s.inner ++ if s.inModule then [(.module, s.module), (.root, s.root)] else [(.root, s.root)]

def top (s : ScopeStack) : NameMap :=
  match s.inner with
  | layer :: _ => layer.2
  | [] => if s.inModule then s.module else s.root

def setTop (s : ScopeStack) (names : NameMap) : ScopeStack :=
  match s.inner with
  | layer :: rest => { s with inner := (layer.1, names) :: rest }
  | [] => if s.inModule then { s with module := names } else { s with root := names }

/-- The scopes that a request looks at: up to the nearest function or method, unless it is about the module. -/
def seen (kind : ScopeKind) (kinds : List ScopeKind) : List ScopeKind :=
  if kind = .module then kinds else kinds.take (kinds.findIdx ScopeKind.hides + 1)

def serve (s : ScopeStack) : NameRequest → NameAnswer × ScopeStack
  | .enter kind => (.entered s.scopes, { s with inner := (kind, ∅) :: s.inner, scopes := s.scopes + 1 })
  | .leave =>
    match s.inner with
    | _ :: rest => (.left, { s with inner := rest })
    | [] => (.left, { s with inModule := false })
  | .define symbol =>
    match s.top.lookup symbol.name with
    | some id => (.taken (s.places.getD id default), s)
    | none =>
      let id := s.places.length
      (.defined id, { s.setTop (s.top.insert symbol.name id) with places := s.places ++ [symbol.span] })
  | .lookup name => (.found (s.layers.findSome? (·.2.lookup name)), s)
  | .lookupLocal name => (.found (s.top.lookup name), s)
  | .lookupGlobal name => (.found (s.module.lookup name), s)
  | .inside kind => (.isInside ((seen kind (s.layers.map (·.1))).contains kind), s)

/-- The predeclared functions at the bottom, and an empty module. -/
def initial : ScopeStack where
  inner := []
  inModule := true
  module := ∅
  root := Predeclared.all.zipIdx.foldl (fun names p => names.insert p.1.spelling p.2) ∅
  places := Predeclared.all.map fun _ => default
  scopes := 2

lemma contains_seen_cons (kind k ks) :
    (seen kind (k :: ks)).contains kind =
    (k = kind || ((!k.hides || kind = .module) && (seen kind ks).contains kind)) := by
  unfold seen
  by_cases hmodule : kind = .module
  · simp [hmodule, eq_comm (a := k)]
  · cases hhides : k.hides with
    | true | false => simp [hmodule, hhides, List.findIdx_cons, eq_comm (a := k)]

end ScopeStack

namespace SymbolTable

open ScopeStack

variable {t t' : SymbolTable} {s : ScopeStack}

/-! ### Numbers of names -/

/-- Every number stands for one name of one scope, as its symbol tells. Scopes lie inside earlier ones. -/
structure Indexed (t : SymbolTable) : Prop where
  place {id sym} : t.get? id = some sym → ∀ i name, t.lookupIn i name = some id ↔ i = sym.scope ∧
    name = sym.name
  known {i name id} : t.lookupIn i name = some id → ∃ sym, t.get? id = some sym
  parent {i c p} : t.scope? i = some c → c.parent = some p → p < i
  isOpen : t.Open

lemma lookupIn_enter (t : SymbolTable) (kind i name) : (t.enter kind).lookupIn i name = t.lookupIn i name := by
  simp only [lookupIn, scope?, enter, Array.getElem?_push]
  split
  · rename_i hsize
    simp [hsize]
  · rfl

lemma lookupIn_define {symbol id} (hopen : t.Open) (h : t.define symbol = .ok (id, t')) (i name) :
    t'.lookupIn i name = if i = t.current ∧ name = symbol.name then some id else t.lookupIn i name := by
  by_cases hi : i = t.current
  · have hlocal := lookupLocal_define hopen h name
    rw [lookupLocal, lookupLocal, (extends_define h).current] at hlocal
    simpa [hi] using hlocal
  · rw [lookupIn, scope?_define h, if_neg (Ne.symm hi), if_neg fun hboth => hi hboth.1, lookupIn]

lemma Indexed.enter (h : t.Indexed) (kind) : (t.enter kind).Indexed where
  place hget i name := by
    rw [lookupIn_enter]
    exact h.place hget i name
  known hin := h.known ((lookupIn_enter t kind _ _).symm.trans hin)
  parent {i c p} hscope hparent := by
    simp only [scope?, SymbolTable.enter, Array.getElem?_push] at hscope
    split at hscope
    · rename_i hi
      cases hscope
      cases hparent
      exact hi ▸ h.isOpen
    · exact h.parent hscope hparent
  isOpen := isOpen_enter t kind

lemma Indexed.leave (h : t.Indexed) : t.leave.Indexed := by
  unfold SymbolTable.leave
  split
  · rename_i p hp
    obtain ⟨c, hscope, hparent⟩ := Option.bind_eq_some_iff.1 hp
    exact ⟨h.place, h.known, h.parent, Nat.lt_trans (h.parent hscope hparent) h.isOpen⟩
  · exact h

lemma Indexed.define (h : t.Indexed) {symbol id} (hdefine : t.define symbol = .ok (id, t')) : t'.Indexed where
  place {k sym} hget i name := by
    rw [lookupIn_define h.isOpen hdefine]
    rw [get?_define hdefine] at hget
    obtain ⟨hfree, hid, -⟩ := define_eq_ok hdefine
    split at hget
    · rename_i hk
      cases hget
      have hnew : t.lookupIn i name ≠ some k := by
        intro hin
        obtain ⟨sym, hold⟩ := h.known hin
        simp [hk, hid, get?] at hold
      simp only
      split
      · rename_i hboth
        simp [hk, hboth]
      · rename_i hboth
        simp [hnew, hboth]
    · rename_i hk
      split
      · rename_i hboth
        rw [lookupLocal, ← hboth.1, ← hboth.2] at hfree
        have hnot := (h.place hget i name).not.1 (by simp [hfree])
        simp [hnot, Ne.symm hk]
      · exact h.place hget i name
  known {i name k} hin := by
    rw [lookupIn_define h.isOpen hdefine] at hin
    rw [get?_define hdefine]
    split at hin
    · cases hin
      exact ⟨_, if_pos rfl⟩
    · obtain ⟨sym, hget⟩ := h.known hin
      exact ⟨sym, by rw [if_neg (ne_of_get?_eq_some hdefine hget), hget]⟩
  parent {i c p} hscope hparent := by
    rw [scope?_define hdefine] at hscope
    split at hscope
    · obtain ⟨d, hd, rfl⟩ := Option.map_eq_some_iff.1 hscope
      exact h.parent hd hparent
    · exact h.parent hscope hparent
  isOpen := (extends_define hdefine).isOpen h.isOpen

lemma Indexed.defineAll (h : t.Indexed) (symbols) : (t.defineAll symbols).Indexed := by
  induction symbols generalizing t with
  | nil => exact h
  | cons s symbols ih =>
    rw [SymbolTable.defineAll, List.foldl_cons]
    split
    · rename_i hdefine
      exact ih (h.define hdefine)
    · exact ih h

lemma indexed_initial : initial.Indexed := by
  have hbare : bare.Indexed := by
    have hnames (i name) : bare.lookupIn i name = none := by cases i <;> rfl
    refine ⟨fun hget => ?_, fun hin => ?_, fun {i c p} hscope hparent => ?_, Nat.one_pos⟩
    · simp [bare, get?] at hget
    · simp [hnames] at hin
    · cases i with
      | zero =>
        cases hscope
        cases hparent
      | succ i => cases hscope
  exact (hbare.defineAll _).enter .module

lemma Indexed.serve (h : t.Indexed) (r) : (t.serve r).2.Indexed := by
  cases r with
  | enter kind => exact h.enter kind
  | leave => exact h.leave
  | define symbol =>
    rw [SymbolTable.serve]
    split
    · rename_i hdefine
      exact h.define hdefine
    · exact h
  | _ => exact h

/-! ### Tables that look like stacks -/

/-- A scope with the names of a layer. -/
def Stands (t : SymbolTable) (i : Nat) (parent : Option Nat) (layer : Layer) : Prop :=
  ∃ c, t.scope? i = some c ∧ c.parent = parent ∧ c.kind = layer.1 ∧
    ∀ name, c.names.lookup name = layer.2.lookup name

/-- Layers one inside the other, down to that of the root. -/
def Towers (t : SymbolTable) : List Layer → Nat → Prop
  | [], _ => False
  | [layer], i => t.Stands i none layer
  | layer :: layers, i => ∃ p < i, t.Stands i (some p) layer ∧ t.Towers layers p

/-- Layers inside the module, one inside the other, down to a given scope. -/
def Nests (t : SymbolTable) (base : Nat) : List Layer → Nat → Prop
  | [], i => i = base
  | layer :: layers, i => moduleScope < i ∧ ∃ p < i, t.Stands i (some p) layer ∧ t.Nests base layers p

structure Mirrors (t : SymbolTable) (s : ScopeStack) : Prop where
  root : t.Stands rootScope none (.root, s.root)
  module : t.Stands moduleScope (some rootScope) (.module, s.module)
  inner : t.Nests (if s.inModule then moduleScope else rootScope) s.inner t.current
  places : s.places = t.symbols.toList.map (·.span)
  scopes : s.scopes = t.scopes.size

lemma Stands.lt {i parent layer} (h : t.Stands i parent layer) : i < t.scopes.size := by
  obtain ⟨c, hscope, -⟩ := h
  exact (Array.getElem?_eq_some_iff.1 hscope).1

lemma Stands.lookupIn {i parent layer} (h : t.Stands i parent layer) (name) :
    t.lookupIn i name = layer.2.lookup name := by
  obtain ⟨c, hscope, -, -, hnames⟩ := h
  rw [SymbolTable.lookupIn, hscope, Option.bind_some, hnames]

lemma Stands.parent {i parent layer} (h : t.Stands i parent layer) : (t.scope? i).bind (·.parent) = parent := by
  obtain ⟨c, hscope, hparent, -⟩ := h
  rw [hscope, Option.bind_some, hparent]

lemma Stands.congr {i parent layer} (h : t.Stands i parent layer) (hscope : t'.scope? i = t.scope? i) :
    t'.Stands i parent layer := by
  rwa [Stands, hscope]

lemma Nests.congr {base layers i} (h : t.Nests base layers i) (hscope : ∀ j ≤ i, t'.scope? j = t.scope? j) :
    t'.Nests base layers i := by
  induction layers generalizing i with
  | nil => exact h
  | cons layer layers ih =>
    obtain ⟨hi, p, hp, hstands, hrest⟩ := h
    exact ⟨hi, p, hp, hstands.congr (hscope i (Nat.le_refl i)),
      ih hrest fun j hj => hscope j (Nat.le_trans hj (Nat.le_of_lt hp))⟩

lemma lookup_cons_eq {names : List (String × Nat)} {m : NameMap} (h : ∀ name, names.lookup name = m.lookup name)
    (key id name) : ((key, id) :: names).lookup name = (m.insert key id).lookup name := by
  rw [List.lookup_cons]
  by_cases hname : name = key
  · subst hname
    rw [beq_self_eq_true, Finmap.lookup_insert]
  · simp [beq_false_of_ne hname, Finmap.lookup_insert_of_ne _ hname, h]

lemma Stands.define {parent layer symbol id} (h : t.Stands t.current parent layer)
    (hdefine : t.define symbol = .ok (id, t')) :
    t'.Stands t.current parent (layer.1, layer.2.insert symbol.name id) := by
  obtain ⟨c, hscope, hparent, hkind, hnames⟩ := h
  refine ⟨{ c with names := (symbol.name, id) :: c.names }, ?_, hparent, hkind,
    lookup_cons_eq hnames symbol.name id⟩
  rw [scope?_define hdefine, if_pos rfl, hscope, Option.map_some]

lemma Towers.lookupFrom {layers i} (h : t.Towers layers i) (name) :
    t.lookupFrom name i = layers.findSome? (·.2.lookup name) := by
  induction layers generalizing i with
  | nil => exact h.elim
  | cons layer layers ih =>
    rw [lookupFrom_eq, List.findSome?_cons]
    cases layers with
    | nil =>
      rw [Stands.lookupIn h, Stands.parent h]
      cases layer.2.lookup name <;> rfl
    | cons next rest =>
      obtain ⟨p, hp, hstands, hrest⟩ := h
      rw [hstands.lookupIn, hstands.parent, Option.bind_some, if_pos hp, ih hrest]
      cases layer.2.lookup name <;> rfl

lemma Towers.insideFrom {layers i} (h : t.Towers layers i) (kind) :
    t.insideFrom kind i = (seen kind (layers.map (·.1))).contains kind := by
  induction layers generalizing i with
  | nil => exact h.elim
  | cons layer layers ih =>
    rw [insideFrom_eq, List.map_cons, contains_seen_cons]
    cases layers with
    | nil =>
      obtain ⟨c, hscope, hparent, hkind, -⟩ := h
      simp [hscope, hparent, hkind, seen]
    | cons next rest =>
      obtain ⟨p, hp, ⟨c, hscope, hparent, hkind, -⟩, hrest⟩ := h
      simp [hscope, hparent, hkind, hp, ih hrest, ScopeKind.hides]

namespace Mirrors

variable (h : Mirrors t s)

include h

lemma base : t.Towers (if s.inModule then [(.module, s.module), (.root, s.root)] else [(.root, s.root)])
    (if s.inModule then moduleScope else rootScope) := by
  cases s.inModule with
  | true => exact ⟨rootScope, Nat.one_pos, h.module, h.root⟩
  | false => exact h.root

lemma towers : t.Towers s.layers t.current := by
  have hinner := h.inner
  have hbase := h.base
  unfold layers
  generalize s.inner = inner, t.current = i at hinner
  generalize (if s.inModule then _ else _ : List Layer) = outer at hbase ⊢
  induction inner generalizing i with
  | nil => exact (show i = _ from hinner) ▸ hbase
  | cons layer inner ih =>
    obtain ⟨-, p, hp, hstands, hrest⟩ := hinner
    have htower := ih p hrest
    rw [List.cons_append]
    cases hlayers : inner ++ outer with
    | nil => simp [hlayers, Towers] at htower
    | cons next rest => exact ⟨p, hp, hstands, hlayers ▸ htower⟩

lemma lookupLocal (name) : t.lookupLocal name = s.top.lookup name := by
  have hinner := h.inner
  rw [SymbolTable.lookupLocal, top]
  generalize t.current = i at hinner
  split
  · rename_i heq
    rw [heq] at hinner
    obtain ⟨-, p, -, hstands, -⟩ := hinner
    exact hstands.lookupIn name
  · rename_i heq
    rw [heq] at hinner
    obtain rfl : i = _ := hinner
    split
    · exact h.module.lookupIn name
    · exact h.root.lookupIn name

lemma enter (hopen : t.Open) (kind) :
    Mirrors (t.enter kind) { s with inner := (kind, ∅) :: s.inner, scopes := s.scopes + 1 } := by
  have hscope {i} (hi : i < t.scopes.size) := scope?_enter_of_lt hi kind
  refine ⟨h.root.congr (hscope h.root.lt), h.module.congr (hscope h.module.lt),
    ⟨h.module.lt, t.current, hopen, ?_, ?_⟩, h.places, ?_⟩
  · exact ⟨_, scope?_enter_current t kind, rfl, rfl, fun _ => rfl⟩
  · exact h.inner.congr fun j hj => hscope (Nat.lt_of_le_of_lt hj hopen)
  · simp [h.scopes, SymbolTable.enter]

lemma leave : (s.serve .leave).1 = .left ∧ Mirrors t.leave (s.serve .leave).2 := by
  obtain ⟨inner, inModule, module, root, places, scopes⟩ := s
  have hinner := h.inner
  rw [SymbolTable.leave]
  cases inner with
  | cons layer rest =>
    obtain ⟨-, p, -, hstands, hrest⟩ := hinner
    rw [hstands.parent]
    exact ⟨rfl, h.root, h.module, hrest.congr fun _ _ => rfl, h.places, h.scopes⟩
  | nil =>
    cases inModule with
    | true =>
      have hcurrent : t.current = moduleScope := hinner
      rw [hcurrent, h.module.parent]
      exact ⟨rfl, h.root, h.module, rfl, h.places, h.scopes⟩
    | false =>
      have hcurrent : t.current = rootScope := hinner
      rw [hcurrent, h.root.parent]
      exact ⟨rfl, h⟩

lemma define {symbol id} (hdefine : t.define symbol = .ok (id, t')) :
    Mirrors t' { s.setTop (s.top.insert symbol.name id) with places := s.places ++ [symbol.span] } := by
  have hother {i} (hi : i ≠ t.current) : t'.scope? i = t.scope? i := by
    rw [scope?_define hdefine, if_neg (Ne.symm hi)]
  have hcurrent' := (extends_define hdefine).current
  have hsize : t'.scopes.size = t.scopes.size := by
    obtain ⟨-, -, rfl⟩ := define_eq_ok hdefine
    simp
  have hplaces : s.places ++ [symbol.span] = t'.symbols.toList.map (·.span) := by
    obtain ⟨-, -, rfl⟩ := define_eq_ok hdefine
    simp [h.places]
  obtain ⟨inner, inModule, module, root, places, scopes⟩ := s
  have hinner := h.inner
  cases inner with
  | cons layer rest =>
    obtain ⟨hi, p, hp, hstands, hrest⟩ := hinner
    refine ⟨h.root.congr (hother (Nat.ne_of_lt (Nat.lt_trans Nat.one_pos hi))),
      h.module.congr (hother (Nat.ne_of_lt hi)),
      ?_, hplaces, h.scopes.trans hsize.symm⟩
    rw [hcurrent']
    exact ⟨hi, p, hp, hstands.define hdefine,
      hrest.congr fun j hj => hother (Nat.ne_of_lt (Nat.lt_of_le_of_lt hj hp))⟩
  | nil =>
    cases inModule with
    | true =>
      have hcurrent : t.current = moduleScope := hinner
      have hmodule := h.module
      rw [← hcurrent] at hmodule
      refine ⟨h.root.congr (hother (by simp [hcurrent, rootScope, moduleScope])), ?_,
        hcurrent'.trans hcurrent, hplaces,
        h.scopes.trans hsize.symm⟩
      exact hcurrent ▸ hmodule.define hdefine
    | false =>
      have hcurrent : t.current = rootScope := hinner
      have hroot := h.root
      rw [← hcurrent] at hroot
      refine ⟨?_, h.module.congr (hother (by simp [hcurrent, rootScope, moduleScope])),
        hcurrent'.trans hcurrent, hplaces,
        h.scopes.trans hsize.symm⟩
      exact hcurrent ▸ hroot.define hdefine

/-- One request: both answer alike, and are alike afterwards. -/
lemma serve (hindexed : t.Indexed) (r) :
    (t.serve r).1 = (s.serve r).1 ∧ Mirrors (t.serve r).2 (s.serve r).2 := by
  cases r with
  | enter kind => exact ⟨congrArg _ h.scopes.symm, h.enter hindexed.isOpen kind⟩
  | leave => exact ⟨h.leave.1.symm, h.leave.2⟩
  | define symbol =>
    have hlocal := h.lookupLocal symbol.name
    rw [SymbolTable.serve, ScopeStack.serve, ← hlocal]
    cases hold : t.lookupLocal symbol.name with
    | some id =>
      have hdefine : t.define symbol = .error (s.places.getD id default) := by
        simp [SymbolTable.define, hold, h.places, get?]
      rw [hdefine]
      exact ⟨rfl, h⟩
    | none =>
      obtain ⟨id, t', hdefine⟩ : ∃ id t', t.define symbol = .ok (id, t') := by
        simp [SymbolTable.define, hold]
      have hid : id = s.places.length := by
        rw [(define_eq_ok hdefine).2.1, h.places]
        simp
      rw [hdefine, ← hid]
      exact ⟨rfl, h.define hdefine⟩
  | lookup name => exact ⟨congrArg _ (h.towers.lookupFrom name), h⟩
  | lookupLocal name => exact ⟨congrArg _ (h.lookupLocal name), h⟩
  | lookupGlobal name => exact ⟨congrArg _ (h.module.lookupIn name), h⟩
  | inside kind => exact ⟨congrArg _ (h.towers.insideFrom kind), h⟩

end Mirrors

lemma mirrors_initial : Mirrors initial .initial := by
  have hnames (names : List (String × Nat)) (name : String) :
      names.lookup name = Finmap.lookup name (names.foldr (fun p m => m.insert p.1 p.2) (∅ : NameMap)) := by
    induction names generalizing name with
    | nil => rfl
    | cons p names ih => exact lookup_cons_eq ih p.1 p.2 name
  have hroot : initial.scope? rootScope =
      some ⟨none, .root, (Predeclared.all.zipIdx.map fun p => (p.1.spelling, p.2)).reverse⟩ := by
    decide +kernel
  refine ⟨⟨_, hroot, rfl, rfl, fun name => ?_⟩, ⟨_, rfl, rfl, rfl, fun _ => rfl⟩, rfl, ?_, ?_⟩
  · rw [hnames, List.foldr_reverse, List.foldl_map]
    rfl
  · decide +kernel
  · decide +kernel

/-- A table is a stack of maps. Whatever is done to a new table and asked of it, the answers are those of a stack
of finite maps. At any time, each number stands for one name of one scope, and scopes lie inside earlier ones. -/
theorem serve_eq_stack (requests : List NameRequest) :
    (serveAll serve initial requests).1 = (serveAll ScopeStack.serve .initial requests).1 ∧
      (serveAll serve initial requests).2.Indexed := by
  have hrun {t s} (h : Mirrors t s) (hindexed : t.Indexed) :
      (serveAll serve t requests).1 = (serveAll ScopeStack.serve s requests).1 ∧
        (serveAll serve t requests).2.Indexed := by
    induction requests generalizing t s with
    | nil => exact ⟨rfl, hindexed⟩
    | cons r requests ih =>
      obtain ⟨hanswer, hnext⟩ := h.serve hindexed r
      obtain ⟨hanswers, hend⟩ := ih hnext (hindexed.serve r)
      exact ⟨congrArg₂ _ hanswer hanswers, hend⟩
  exact hrun mirrors_initial indexed_initial

end SymbolTable

end SourceCheck
