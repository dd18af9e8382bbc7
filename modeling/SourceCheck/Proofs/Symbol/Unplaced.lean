import SourceCheck.Analysis.State
import SourceCheck.Proofs.Symbol.Table

/-!
# Symbols without their places

`unplaced` forgets the places in symbols, tables and exports; names, types, values and numbers stay.
-/

namespace SourceCheck

open ModuleExports

def FieldInfo.unplaced (f : FieldInfo) : FieldInfo :=
  { f with span := default }

def MethodInfo.unplaced (m : MethodInfo) : MethodInfo :=
  { m with span := default }

def NominalInfo.unplaced (info : NominalInfo) : NominalInfo :=
  { info with methods := info.methods.map fun m => (m.1, m.2.unplaced) }

/-- A kind without the places of fields and methods. -/
def SymbolKind.unplaced : SymbolKind → SymbolKind
  | .struct info fields => .struct info.unplaced (fields.map (·.unplaced))
  | .enum info variants => .enum info.unplaced variants
  | k => k

def Symbol.unplaced (s : Symbol) : Symbol :=
  { s with kind := s.kind.unplaced, span := default }

def SymbolTable.unplaced (t : SymbolTable) : SymbolTable :=
  { t with symbols := t.symbols.map (·.unplaced) }

def ExportedItem.unplaced (item : ExportedItem) : ExportedItem :=
  { item with kind := item.kind.unplaced, span := default }

def ModuleExports.unplaced (e : ModuleExports) : ModuleExports :=
  { e with items := e.items.map fun item => (item.1, item.2.unplaced) }

/-! ### Lookup -/

lemma lookup_map_snd {α : Type} (f : α → α) (l : List (String × α)) (name) :
    (l.map fun p => (p.1, f p.2)).lookup name = (l.lookup name).map f := by
  induction l with
  | nil => rfl
  | cons p l ih =>
    rw [List.map_cons, List.lookup_cons, List.lookup_cons]
    cases name == p.1 with
    | true => rfl
    | false => exact ih

@[simp]
lemma ModuleExports.item?_unplaced (e : ModuleExports) (name) :
    e.unplaced.item? name = (e.item? name).map (·.unplaced) :=
  lookup_map_snd ..

@[simp]
lemma NominalInfo.lookup_unplaced (info : NominalInfo) (name) :
    info.unplaced.methods.lookup name = (info.methods.lookup name).map (·.unplaced) :=
  lookup_map_snd ..

lemma Library.filter_map_unplaced (l : Library) (name) :
    (l.map unplaced).filter (·.module = name) =
      (l.filter (·.module = name)).map unplaced := by
  rw [List.filter_map]
  rfl

lemma Library.module?_unplaced (l : Library) (name) :
    Library.module? (l.map unplaced) name = (l.module? name).map unplaced := by
  rw [Library.module?, Library.module?, List.find?_map]
  rfl

lemma Library.member?_unplaced (l : Library) (target member) :
    Library.member? (l.map unplaced) target member =
      (l.member? target member).map fun p => (p.1, p.2.unplaced) := by
  cases target with
  | none => rfl
  | some name =>
    simp only [Library.member?, bind, Option.bind, Library.module?_unplaced]
    cases l.module? name with
    | none => rfl
    | some e =>
      simp only [Option.map_some, item?_unplaced]
      cases e.item? member with
      | none | some item => rfl

/-! ### Kinds -/

namespace SymbolKind

@[simp]
lemma members?_unplaced (k : SymbolKind) : k.unplaced.members? = k.members? := by
  cases k with
  | struct info fields => simp [unplaced, members?, FieldInfo.unplaced]
  | _ => rfl

@[simp]
lemma nominalInfo?_unplaced (k : SymbolKind) : k.unplaced.nominalInfo? = k.nominalInfo?.map (·.unplaced) := by
  cases k <;> rfl

end SymbolKind

lemma eq_of_map_unplaced_eq {α β : Type} {unplaced o o'} (h : o.map unplaced = o'.map unplaced) (k : Option α → β)
    (hk : ∀ a, k (some (unplaced a)) = k (some a)) : k o = k o' := by
  cases o with
  | none =>
    cases o' with
    | none => rfl
    | some a' => cases h
  | some a =>
    cases o' with
    | none => cases h
    | some a' =>
      have ha : unplaced a = unplaced a' := Option.some.inj h
      rw [← hk a, ← hk a', ha]

/-! ### Tables -/

namespace SymbolTable

variable (t : SymbolTable) {t' : SymbolTable}

lemma get?_unplaced (id) : t.unplaced.get? id = (t.get? id).map (·.unplaced) :=
  get?_mapSymbols t Symbol.unplaced id

lemma symbol?_unplaced (name) : t.unplaced.symbol? name = (t.symbol? name).map (·.unplaced) :=
  symbol?_mapSymbols t Symbol.unplaced name

lemma global?_unplaced (name) :
    t.unplaced.global? name = (t.global? name).map fun p => (p.1, p.2.unplaced) :=
  global?_mapSymbols t Symbol.unplaced name

lemma globals_unplaced : t.unplaced.globals = t.globals.map (·.unplaced) :=
  globals_mapSymbols t fun _ => rfl

lemma leave_unplaced : t.unplaced.leave = t.leave.unplaced :=
  leave_mapSymbols t Symbol.unplaced

lemma define_unplaced (s) :
    t.unplaced.define s.unplaced =
      match t.define s with
      | .ok (id, t') => .ok (id, t'.unplaced)
      | .error _ => .error default := by
  have hlocal : t.unplaced.lookupLocal s.unplaced.name = t.lookupLocal s.name := rfl
  simp only [define, hlocal]
  cases t.lookupLocal s.name with
  | some id =>
    simp only [get?_unplaced]
    cases t.get? id with
    | none | some s => rfl
  | none => simp [unplaced, Symbol.unplaced]

lemma modifySymbol_unplaced (id) {g g' : SymbolKind → SymbolKind}
    (h : ∀ k : SymbolKind, (g k).unplaced = g' k.unplaced) :
    (t.modifySymbol id fun s => { s with kind := g s.kind }).unplaced =
      t.unplaced.modifySymbol id fun s => { s with kind := g' s.kind } :=
  (modifySymbol_mapSymbols t id fun s => by simp [Symbol.unplaced, h]).symm

end SymbolTable

lemma ModuleExports.ofTable_unplaced (module) (t : SymbolTable) :
    ofTable module t.unplaced = (ofTable module t).unplaced := by
  rw [ofTable, ofTable, unplaced, SymbolTable.globals_unplaced, List.filterMap_map, List.map_filterMap]
  congr 2
  funext s
  obtain ⟨name, kind, span, scope, visibility⟩ := s
  cases kind <;> cases visibility <;> rfl

end SourceCheck
