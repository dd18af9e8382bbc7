import Mathlib.Tactic.Lemma
import SourceCheck.Symbol.Table

/-!
# Where names lead

Names lead to symbols of that name and scope, and enums are declared in the scope of the module only. So whatever
scope an enum is named in, its name leads to its declaration.
-/

namespace SourceCheck

open Option

/-- Enums stand in the scope of the module, carry its name, and name each variant once. -/
def Symbol.Placed (module : String) (s : Symbol) : Prop :=
  ∀ info variants, s.kind = .enum info variants →
    s.scope = moduleScope ∧ info.nominal = ⟨module, s.name⟩ ∧ (variants.map (·.name)).Nodup

namespace SymbolTable

/-- Names lead to symbols of that name and scope, and all enums are in their place. -/
structure Sound (module : String) (t : SymbolTable) : Prop where
  linked {i s name id} : t.scope? i = some s → (name, id) ∈ s.names →
    ∃ sym, t.get? id = some sym ∧ sym.name = name ∧ sym.scope = i
  placed {id sym} : t.get? id = some sym → sym.Placed module

variable {module : String} {t t' : SymbolTable}

/-! ### Lookup -/

lemma mem_of_lookupIn {i name id} (h : t.lookupIn i name = some id) :
    ∃ s, t.scope? i = some s ∧ (name, id) ∈ s.names := by
  obtain ⟨s, hs, hlookup⟩ := bind_eq_some_iff.1 h
  obtain ⟨before, after, heq, -⟩ := List.lookup_eq_some_iff.1 hlookup
  exact ⟨s, hs, by simp [heq]⟩

lemma lookupIn_of_lookupFrom {name i id} (h : t.lookupFrom name i = some id) : ∃ j, t.lookupIn j name = some id := by
  fun_induction lookupFrom t name i with
  | case1 i id' hin =>
    cases h
    exact ⟨i, hin⟩
  | case2 i hin parent hparent hlt ih => exact ih h
  | case3 | case4 => simp at h

lemma get?_of_global? {name id sym} (h : t.global? name = some (id, sym)) : t.get? id = some sym := by
  obtain ⟨k, -, hmap⟩ := bind_eq_some_iff.1 h
  obtain ⟨sym', hget, heq⟩ := map_eq_some_iff.1 hmap
  cases heq
  exact hget

lemma Sound.of_global? (hs : t.Sound module) {name id sym}
    (h : t.global? name = some (id, sym)) : sym.name = name ∧ sym.scope = moduleScope := by
  obtain ⟨k, hlookup, hmap⟩ := bind_eq_some_iff.1 h
  obtain ⟨sym', hget, heq⟩ := map_eq_some_iff.1 hmap
  cases heq
  obtain ⟨s, hscope, hmem⟩ := mem_of_lookupIn hlookup
  obtain ⟨sym', hget', hname, hplace⟩ := hs.linked hscope hmem
  obtain rfl : sym' = sym := some.inj (hget'.symm.trans hget)
  exact ⟨hname, hplace⟩

lemma Sound.name_eq (hs : t.Sound module) {name id sym} (h : t.global? name = some (id, sym)) : sym.name = name :=
  (hs.of_global? h).1

lemma Sound.global?_of_enum (hs : t.Sound module) {name sym info variants}
    (h : t.symbol? name = some sym) (henum : sym.kind = .enum info variants) :
    ∃ id, t.global? name = some (id, sym) ∧ info.nominal = ⟨module, name⟩ := by
  obtain ⟨id, hlookup, hget⟩ := bind_eq_some_iff.1 h
  obtain ⟨i, hin⟩ := lookupIn_of_lookupFrom hlookup
  obtain ⟨s, hscope, hmem⟩ := mem_of_lookupIn hin
  obtain ⟨sym', hget', hname, hplace⟩ := hs.linked hscope hmem
  obtain rfl : sym' = sym := some.inj (hget'.symm.trans hget)
  obtain ⟨hmodule, hnominal, -⟩ := hs.placed hget info variants henum
  have hi : i = moduleScope := hplace.symm.trans hmodule
  rw [hi] at hin
  refine ⟨id, ?_, by rw [hnominal, hname]⟩
  simp [global?, lookupGlobal, hin, hget]

/-! ### Scopes -/

lemma scope?_enter {kind i s} (h : (t.enter kind).scope? i = some s) : t.scope? i = some s ∨ s.names = [] := by
  simp only [scope?, enter, Array.getElem?_push] at h
  split at h
  · cases h
    exact .inr rfl
  · exact .inl h

lemma Sound.enter (hs : t.Sound module) (kind) : (t.enter kind).Sound module where
  linked hscope hmem := by
    obtain hold | hnil := scope?_enter hscope
    · exact hs.linked hold hmem
    · simp [hnil] at hmem
  placed := hs.placed

lemma global?_enter (t : SymbolTable) (kind name) : (t.enter kind).global? name = t.global? name := by
  have hlookup : (t.enter kind).lookupGlobal name = t.lookupGlobal name := by
    simp only [lookupGlobal, lookupIn, scope?, enter, Array.getElem?_push]
    split
    · rename_i hsize
      simp [hsize]
    · rfl
  have hget : (t.enter kind).get? = t.get? := rfl
  simp only [global?, hlookup, hget]

lemma leave_eq (t : SymbolTable) : ∃ i, t.leave = { t with current := i } := by
  unfold leave
  split
  · exact ⟨_, rfl⟩
  · exact ⟨t.current, rfl⟩

lemma global?_leave (t : SymbolTable) (name) : t.leave.global? name = t.global? name := by
  obtain ⟨i, hleave⟩ := leave_eq t
  rw [hleave]
  rfl

lemma Sound.leave (hs : t.Sound module) : t.leave.Sound module := by
  obtain ⟨i, hleave⟩ := leave_eq t
  rw [hleave]
  exact ⟨hs.linked, hs.placed⟩

/-! ### New symbols -/

section Define

variable {s : Symbol} {id : Nat}

lemma define_eq_ok (h : t.define s = .ok (id, t')) :
    t.lookupLocal s.name = none ∧ id = t.symbols.size ∧ t' = { t with
        symbols := t.symbols.push { s with scope := t.current }
        scopes := t.scopes.modify t.current fun c => { c with names := (s.name, id) :: c.names } } := by
  unfold define at h
  split at h
  · cases h
  · rename_i hnone
    simp only [Except.ok.injEq, Prod.mk.injEq] at h
    obtain ⟨rfl, rfl⟩ := h
    exact ⟨hnone, rfl, rfl⟩

lemma define_eq_error {previous} (h : t.define s = .error previous) : ∃ k, t.lookupLocal s.name = some k := by
  unfold define at h
  split at h
  · rename_i k hk
    exact ⟨k, hk⟩
  · cases h

lemma get?_define (h : t.define s = .ok (id, t')) (k) :
    t'.get? k = if k = id then some { s with scope := t.current } else t.get? k := by
  obtain ⟨-, rfl, rfl⟩ := define_eq_ok h
  simp [get?, Array.getElem?_push]

lemma scope?_define (h : t.define s = .ok (id, t')) (i) :
    t'.scope? i =
      if t.current = i then (t.scope? i).map fun c => { c with names := (s.name, id) :: c.names }
      else t.scope? i := by
  obtain ⟨-, rfl, rfl⟩ := define_eq_ok h
  simp [scope?, Array.getElem?_modify]

lemma ne_of_get?_eq_some (h : t.define s = .ok (id, t')) {k sym} (hk : t.get? k = some sym) : k ≠ id := by
  obtain ⟨-, rfl, -⟩ := define_eq_ok h
  rintro rfl
  simp [get?] at hk

lemma Sound.define (hs : t.Sound module) (h : t.define s = .ok (id, t'))
    (hp : Symbol.Placed module { s with scope := t.current }) : t'.Sound module where
  linked {i c name k} hscope hmem := by
    have hold : ∀ {d}, t.scope? i = some d → (name, k) ∈ d.names →
        ∃ sym, t'.get? k = some sym ∧ sym.name = name ∧ sym.scope = i := by
      intro d hd hmem
      obtain ⟨sym, hget, hname, hplace⟩ := hs.linked hd hmem
      refine ⟨sym, ?_, hname, hplace⟩
      rw [get?_define h, if_neg (ne_of_get?_eq_some h hget), hget]
    rw [scope?_define h] at hscope
    split at hscope
    · rename_i hcurrent
      obtain ⟨d, hd, rfl⟩ := map_eq_some_iff.1 hscope
      obtain heq | hmem := List.mem_cons.1 hmem
      · obtain ⟨rfl, rfl⟩ := Prod.mk.inj heq
        exact ⟨{ s with scope := t.current }, by rw [get?_define h, if_pos rfl], rfl, hcurrent⟩
      · exact hold hd hmem
    · exact hold hscope hmem
  placed {k sym} hget := by
    rw [get?_define h] at hget
    split at hget
    · cases hget
      exact hp
    · exact hs.placed hget

lemma Sound.global?_define (hs : t.Sound module) (h : t.define s = .ok (id, t')) (name) :
    t'.global? name = t.global? name ∨
      t.global? name = none ∧ t'.global? name = some (id, { s with scope := t.current }) := by
  have hkeep : ∀ {o : Option Nat}, o = t.lookupGlobal name →
      (o.bind fun k => (t'.get? k).map fun s => (k, s)) = t.global? name := by
    rintro o rfl
    cases hlookup : t.lookupGlobal name with
    | none => simp [global?, hlookup]
    | some k =>
      obtain ⟨c, hscope, hmem⟩ := mem_of_lookupIn hlookup
      obtain ⟨sym, hget, -, -⟩ := hs.linked hscope hmem
      simp [global?, hlookup, get?_define h, ne_of_get?_eq_some h hget]
  by_cases hcurrent : t.current = moduleScope
  · cases hscope : t.scope? moduleScope with
    | none =>
      refine .inl (hkeep ?_)
      simp [lookupGlobal, lookupIn, scope?_define h, hcurrent, hscope]
    | some c =>
      by_cases hname : name = s.name
      · subst hname
        have hfresh := (define_eq_ok h).1
        rw [lookupLocal, hcurrent] at hfresh
        refine .inr ⟨by simp [global?, lookupGlobal, hfresh], ?_⟩
        simp [global?, lookupGlobal, lookupIn, scope?_define h, hcurrent, hscope, get?_define h]
      · refine .inl (hkeep ?_)
        have hne : (name == s.name) = false := by simpa using hname
        simp [lookupGlobal, lookupIn, scope?_define h, hcurrent, hscope, List.lookup_cons, hne]
  · refine .inl (hkeep ?_)
    simp [lookupGlobal, lookupIn, scope?_define h, hcurrent]

lemma global?_define_self (h : t.define s = .ok (id, t')) (hcurrent : t.current = moduleScope)
    (hscope : (t.scope? moduleScope).isSome = true) : t'.global? s.name = some (id, { s with scope := t.current }) := by
  obtain ⟨c, hc⟩ := isSome_iff_exists.1 hscope
  simp [global?, lookupGlobal, lookupIn, scope?_define h, hcurrent, hc, get?_define h]

end Define

/-! ### Changed symbols -/

lemma get?_modifySymbol (t : SymbolTable) (id) (f : Symbol → Symbol) (k) :
    (t.modifySymbol id f).get? k = if id = k then (t.get? k).map f else t.get? k := by
  simp [get?, modifySymbol, Array.getElem?_modify]

lemma global?_modifySymbol (t : SymbolTable) (id) (f : Symbol → Symbol) (name) :
    (t.modifySymbol id f).global? name = (t.global? name).map fun (k, s) => (k, if id = k then f s else s) := by
  have hlookup : (t.modifySymbol id f).lookupGlobal name = t.lookupGlobal name := rfl
  simp only [global?, hlookup, get?_modifySymbol]
  cases t.lookupGlobal name with
  | none => rfl
  | some k =>
    cases hget : t.get? k with
    | none => simp [hget]
    | some sym => by_cases hk : id = k <;> simp [hget, hk]

lemma Sound.modifyKind (hs : t.Sound module) {id : Nat} {g : SymbolKind → SymbolKind}
    (hg : ∀ s : Symbol, t.get? id = some s → s.Placed module → Symbol.Placed module { s with kind := g s.kind }) :
    (t.modifySymbol id fun s => { s with kind := g s.kind }).Sound module where
  linked hscope hmem := by
    obtain ⟨sym, hget, hname, hplace⟩ := hs.linked hscope hmem
    rw [get?_modifySymbol, hget]
    split
    · exact ⟨_, rfl, hname, hplace⟩
    · exact ⟨sym, rfl, hname, hplace⟩
  placed {k sym} hget := by
    rw [get?_modifySymbol] at hget
    split at hget
    · rename_i hk
      subst hk
      obtain ⟨old, hold, rfl⟩ := map_eq_some_iff.1 hget
      exact hg old hold (hs.placed hold)
    · exact hs.placed hget

/-! ### Changing all symbols -/

def mapSymbols (t : SymbolTable) (g : Symbol → Symbol) : SymbolTable :=
  { t with symbols := t.symbols.map g }

variable (t) (g : Symbol → Symbol)

lemma get?_mapSymbols (id) : (t.mapSymbols g).get? id = (t.get? id).map g := by
  simp [get?, mapSymbols]

lemma lookupFrom_mapSymbols (name i) :
    (t.mapSymbols g).lookupFrom name i = t.lookupFrom name i := by
  induction i using Nat.strongRecOn with
  | ind i ih =>
    rw [lookupFrom, lookupFrom]
    have hin : (t.mapSymbols g).lookupIn i name = t.lookupIn i name := rfl
    have hscope : (t.mapSymbols g).scope? i = t.scope? i := rfl
    rw [hin, hscope]
    split
    · rfl
    · split
      · split
        · exact ih _ ‹_›
        · rfl
      · rfl

lemma symbol?_mapSymbols (name) :
    (t.mapSymbols g).symbol? name = (t.symbol? name).map g := by
  rw [symbol?, symbol?, lookup, lookupFrom_mapSymbols, map_bind]
  exact congrArg _ (funext fun id => get?_mapSymbols t g id)

lemma global?_mapSymbols (name) :
    (t.mapSymbols g).global? name = (t.global? name).map fun p => (p.1, g p.2) := by
  rw [global?, global?, map_bind]
  refine congrArg _ (funext fun id => ?_)
  rw [get?_mapSymbols, Function.comp_apply]
  cases t.get? id with
  | none | some s => rfl

lemma inside_mapSymbols (kind) :
    (t.mapSymbols g).inside kind = t.inside kind := by
  have hfrom (i : Nat) : (t.mapSymbols g).insideFrom kind i = t.insideFrom kind i := by
    induction i using Nat.strongRecOn with
    | ind i ih =>
      rw [insideFrom, insideFrom]
      have hscope : (t.mapSymbols g).scope? i = t.scope? i := rfl
      rw [hscope]
      split
      · rfl
      · split
        · rfl
        · split
          · rfl
          · split
            · split
              · exact ih _ ‹_›
              · rfl
            · rfl
  exact hfrom _

lemma leave_mapSymbols : (t.mapSymbols g).leave = t.leave.mapSymbols g := by
  have hscope : (t.mapSymbols g).scope? (t.mapSymbols g).current = t.scope? t.current := rfl
  rw [leave, leave, hscope]
  cases (t.scope? t.current).bind (·.parent) with
  | none | some parent => rfl

lemma globals_mapSymbols {g} (h : ∀ s, (g s).scope = s.scope) :
    (t.mapSymbols g).globals = t.globals.map g := by
  rw [globals, globals, mapSymbols, Array.toList_map, List.filter_map]
  congr 2
  funext s
  simp [h]

lemma define_mapSymbols {t t' : SymbolTable} {g s id}
    (hname : (g s).name = s.name) (hscope : g { s with scope := t.current } = { g s with scope := t.current })
    (h : t.define s = .ok (id, t')) : (t.mapSymbols g).define (g s) = .ok (id, t'.mapSymbols g) := by
  obtain ⟨hfree, rfl, rfl⟩ := define_eq_ok h
  have hlocal : (t.mapSymbols g).lookupLocal (g s).name = none := by rwa [hname]
  rw [define, hlocal]
  simp [mapSymbols, hname, hscope]

lemma modifySymbol_mapSymbols (id) {g k k'} (h : ∀ s, k' (g s) = g (k s)) :
    (t.mapSymbols g).modifySymbol id k' = (t.modifySymbol id k).mapSymbols g := by
  simp only [mapSymbols, modifySymbol, SymbolTable.mk.injEq, and_true]
  refine Array.ext_getElem? fun i => ?_
  simp only [Array.getElem?_map, Array.getElem?_modify]
  split
  · cases t.symbols[i]? with
    | none => rfl
    | some s => simp [h]
  · rfl

lemma get?_initial {id s} (h : initial.get? id = some s) :
    ∃ p : Predeclared, s = { p.symbol with scope := rootScope } := by
  have hall : ∀ s ∈ initial.symbols.toList, ∃ p ∈ Predeclared.all,
    s = { p.symbol with scope := rootScope } := by
    decide +kernel
  obtain ⟨p, -, hp⟩ := hall s (Array.mem_toList_iff.2 (Array.mem_of_getElem? h))
  exact ⟨p, hp⟩

end SymbolTable

end SourceCheck
