import SourceCheck.Proofs.Symbol.Table

/-!
# What a scope sees

Names that enter a scope hide those around it, and are forgotten when it is left. A table that is changed inside its
current scope only is an extension (`Extends`); one whose current scope is unchanged as well sees the same
(`Restores`).
-/

namespace SourceCheck.SymbolTable

open Option

variable {module : String} {t t' t'' : SymbolTable} {name : String} {s : Symbol} {id : Nat}

def Open (t : SymbolTable) : Prop :=
  t.current < t.scopes.size

/-! ### Lookup outward -/

lemma lookupFrom_eq (t : SymbolTable) (name i) :
    t.lookupFrom name i = (t.lookupIn i name).or (((t.scope? i).bind (·.parent)).bind fun parent =>
        if parent < i then t.lookupFrom name parent else none) := by
  rw [lookupFrom]
  split
  · rename_i hin
    rw [hin, some_or]
  · rename_i hin
    rw [hin, none_or]
    split
    · rename_i hparent
      rw [hparent, bind_some]
    · rename_i hparent
      rw [hparent, bind_none]

lemma lookupFrom_congr {n} (h : ∀ i ≤ n, t'.scope? i = t.scope? i) (name) :
    t'.lookupFrom name n = t.lookupFrom name n := by
  induction n using Nat.strongRecOn with
  | ind n ih =>
    have hin : t'.lookupIn n name = t.lookupIn n name := by
      rw [lookupIn, lookupIn, h n (Nat.le_refl n)]
    rw [lookupFrom_eq, lookupFrom_eq, hin, h n (Nat.le_refl n)]
    congr 1
    cases (t.scope? n).bind (·.parent) with
    | none => rfl
    | some parent =>
      rw [bind_some, bind_some]
      split
      · rename_i hlt
        exact ih parent hlt fun i hi => h i (Nat.le_trans hi (Nat.le_of_lt hlt))
      · rfl

lemma lookup_modifySymbol (t : SymbolTable) (id) (f : Symbol → Symbol) (name) :
    (t.modifySymbol id f).lookup name = t.lookup name := by
  have hscopes : ∀ i ≤ t.current, (t.modifySymbol id f).scope? i = t.scope? i := fun _ _ => rfl
  exact lookupFrom_congr hscopes name

lemma Sound.get?_of_lookupFrom (hs : t.Sound module) {i} (h : t.lookupFrom name i = some id) :
    ∃ sym, t.get? id = some sym := by
  obtain ⟨j, hin⟩ := lookupIn_of_lookupFrom h
  obtain ⟨c, hscope, hmem⟩ := mem_of_lookupIn hin
  obtain ⟨sym, hget, -⟩ := hs.linked hscope hmem
  exact ⟨sym, hget⟩

/-! ### Changes -/

/-- A table that is changed in its current scope and in new ones only. -/
structure Extends (t t' : SymbolTable) : Prop where
  current : t'.current = t.current
  size : t.scopes.size ≤ t'.scopes.size
  outer : ∀ i < t.scopes.size, i ≠ t.current → t'.scope? i = t.scope? i
  parent : (t'.scope? t.current).bind (·.parent) = (t.scope? t.current).bind (·.parent)
  kind : (t'.scope? t.current).map (·.kind) = (t.scope? t.current).map (·.kind)
  kept : ∀ id s, t.get? id = some s → t'.get? id = some s

structure Restores (t t' : SymbolTable) : Prop extends Extends t t' where
  inner : t'.scope? t.current = t.scope? t.current

lemma Restores.refl (t) : Restores t t :=
  { current := rfl, size := Nat.le_refl _, outer := fun _ _ _ => rfl, parent := rfl, kind := rfl
    kept := fun _ _ h => h, inner := rfl }

lemma Extends.refl (t) : Extends t t :=
  (Restores.refl t).toExtends

lemma Extends.trans (h : Extends t t') (h' : Extends t' t'') : Extends t t'' where
  current := h'.current.trans h.current
  size := Nat.le_trans h.size h'.size
  outer i hi hne := by
    rw [h'.outer i (Nat.lt_of_lt_of_le hi h.size) (h.current ▸ hne), h.outer i hi hne]
  parent := by
    have hparent := h'.parent
    rw [h.current] at hparent
    rw [hparent, h.parent]
  kind := by
    have hkind := h'.kind
    rw [h.current] at hkind
    rw [hkind, h.kind]
  kept id s hget := h'.kept id s (h.kept id s hget)

lemma Restores.trans (h : Restores t t') (h' : Restores t' t'') : Restores t t'' := by
  refine { h.toExtends.trans h'.toExtends with inner := ?_ }
  have hinner := h'.inner
  rw [h.current] at hinner
  rw [hinner, h.inner]

lemma Extends.isOpen (h : Extends t t') (hopen : t.Open) : t'.Open := by
  unfold Open
  rw [h.current]
  exact Nat.lt_of_lt_of_le hopen h.size

lemma Restores.symbol? (h : Restores t t') (hs : t.Sound module) (hopen : t.Open) (name) :
    t'.symbol? name = t.symbol? name := by
  have hscopes : ∀ i ≤ t.current, t'.scope? i = t.scope? i := by
    intro i hi
    by_cases hne : i = t.current
    · rw [hne, h.inner]
    · exact h.outer i (Nat.lt_of_le_of_lt hi hopen) hne
  have hlookup : t'.lookup name = t.lookup name := by
    rw [lookup, lookup, h.current]
    exact lookupFrom_congr hscopes name
  rw [SymbolTable.symbol?, SymbolTable.symbol?, hlookup]
  cases hid : t.lookup name with
  | none => rfl
  | some id =>
    obtain ⟨sym, hget⟩ := hs.get?_of_lookupFrom hid
    rw [bind_some, bind_some, hget, h.kept id sym hget]

/-! ### Scopes -/

lemma scope?_enter_of_lt {i} (hi : i < t.scopes.size) (kind) : (t.enter kind).scope? i = t.scope? i := by
  simp [scope?, enter, Array.getElem?_push, Nat.ne_of_lt hi]

lemma scope?_enter_current (t : SymbolTable) (kind) :
    (t.enter kind).scope? t.scopes.size = some { parent := some t.current, kind } := by
  simp [scope?, enter]

lemma isOpen_enter (t : SymbolTable) (kind) : (t.enter kind).Open := by
  simp [Open, enter]

lemma lookupLocal_enter (t : SymbolTable) (kind name) : (t.enter kind).lookupLocal name = none := by
  have hcurrent : (t.enter kind).current = t.scopes.size := rfl
  rw [lookupLocal, lookupIn, hcurrent, scope?_enter_current]
  rfl

lemma symbol?_enter (hopen : t.Open) (kind name) : (t.enter kind).symbol? name = t.symbol? name := by
  have hin : (t.enter kind).lookupIn t.scopes.size name = none := lookupLocal_enter t kind name
  have hlookup : (t.enter kind).lookup name = t.lookup name := by
    show (t.enter kind).lookupFrom name t.scopes.size = t.lookup name
    rw [lookupFrom_eq, hin, scope?_enter_current, none_or, bind_some, bind_some,
      if_pos (show t.current < t.scopes.size from hopen)]
    exact lookupFrom_congr (fun i hi => scope?_enter_of_lt (Nat.lt_of_le_of_lt hi hopen) kind) name
  rw [SymbolTable.symbol?, hlookup]
  rfl

lemma Extends.restores_leave {kind} (h : Extends (t.enter kind) t') (hopen : t.Open) : Restores t t'.leave := by
  have hcurrent : t'.current = t.scopes.size := h.current
  have hsize : t.scopes.size < t'.scopes.size := by
    rw [← hcurrent]
    exact h.isOpen (isOpen_enter t kind)
  have hparent : (t'.scope? t'.current).bind (·.parent) = some t.current := by
    rw [hcurrent]
    refine h.parent.trans ?_
    show ((t.enter kind).scope? t.scopes.size).bind (·.parent) = some t.current
    rw [scope?_enter_current]
    rfl
  have hleave : t'.leave = { t' with current := t.current } := by
    rw [leave, hparent]
  have hscope : ∀ i < t.scopes.size, t'.leave.scope? i = t.scope? i := by
    intro i hi
    have houter := h.outer i (by simp [enter]; omega) (Nat.ne_of_lt hi)
    rw [scope?_enter_of_lt hi] at houter
    rw [hleave]
    exact houter
  refine { current := ?_, size := ?_, outer := fun i hi _ => hscope i hi, parent := ?_, kind := ?_, kept := ?_
           inner := hscope _ hopen }
  · rw [hleave]
  · rw [hleave]
    exact Nat.le_of_lt hsize
  · rw [hscope _ hopen]
  · rw [hscope _ hopen]
  · intro id s hget
    rw [hleave]
    exact h.kept id s hget

/-! ### Kinds of scopes -/

lemma insideFrom_eq (t : SymbolTable) (kind i) :
    t.insideFrom kind i = ((t.scope? i).map (·.kind)).any fun k =>
      k = kind || ((k ≠ .function && k ≠ .method || kind = .module) &&
        ((t.scope? i).bind (·.parent)).any fun parent => parent < i && t.insideFrom kind parent) := by
  rw [insideFrom]
  cases t.scope? i with
  | none => rfl
  | some s =>
    dsimp only [map_some, bind_some, any_some]
    cases s.parent with
    | none | some parent => grind

lemma insideFrom_congr {n} (kind) (hkind : (t'.scope? n).map (·.kind) = (t.scope? n).map (·.kind))
    (hparent : (t'.scope? n).bind (·.parent) = (t.scope? n).bind (·.parent))
    (h : ∀ i < n, t'.scope? i = t.scope? i) : t'.insideFrom kind n = t.insideFrom kind n := by
  induction n using Nat.strongRecOn with
  | ind n ih =>
    rw [insideFrom_eq, insideFrom_eq, hkind, hparent]
    congr 1
    funext k
    congr 2
    cases (t.scope? n).bind (·.parent) with
    | none => rfl
    | some parent =>
      by_cases hlt : parent < n
      · have hscope := h parent hlt
        rw [any_some, any_some,
          ih parent hlt (by rw [hscope]) (by rw [hscope]) fun i hi => h i (Nat.lt_trans hi hlt)]
      · simp [hlt]

lemma Extends.inside (h : Extends t t') (hopen : t.Open) (kind) : t'.inside kind = t.inside kind := by
  rw [SymbolTable.inside, SymbolTable.inside, h.current]
  refine insideFrom_congr kind h.kind h.parent fun i hi => ?_
  exact h.outer i (Nat.lt_trans hi hopen) (Nat.ne_of_lt hi)

lemma inside_enter (hopen : t.Open) (kind k) (hk : k ≠ .module) :
    (t.enter kind).inside k = (kind = k || (kind ≠ .function && kind ≠ .method && t.inside k)) := by
  have hparent : (t.enter kind).insideFrom k t.current = t.insideFrom k t.current := by
    have hscope (i : Nat) (hi : i ≤ t.current) : (t.enter kind).scope? i = t.scope? i :=
      scope?_enter_of_lt (Nat.lt_of_le_of_lt hi hopen) kind
    have hcurrent := hscope t.current (Nat.le_refl _)
    exact insideFrom_congr k (by rw [hcurrent]) (by rw [hcurrent]) fun i hi => hscope i (Nat.le_of_lt hi)
  show (t.enter kind).insideFrom k t.scopes.size = _
  have hlt : t.current < t.scopes.size := hopen
  rw [insideFrom_eq, scope?_enter_current]
  simp [hparent, hlt, hk, SymbolTable.inside]

/-! ### New names -/

lemma extends_define (h : t.define s = .ok (id, t')) : Extends t t' where
  current := by
    obtain ⟨-, -, rfl⟩ := define_eq_ok h
    rfl
  size := by
    obtain ⟨-, -, rfl⟩ := define_eq_ok h
    simp
  outer i _ hne := by rw [scope?_define h, if_neg (Ne.symm hne)]
  parent := by
    rw [scope?_define h, if_pos rfl]
    cases t.scope? t.current with
    | none | some c => rfl
  kind := by
    rw [scope?_define h, if_pos rfl]
    cases t.scope? t.current with
    | none | some c => rfl
  kept k sym hget := by rw [get?_define h, if_neg (ne_of_get?_eq_some h hget), hget]

lemma lookupLocal_define (hopen : t.Open) (h : t.define s = .ok (id, t')) (name) :
    t'.lookupLocal name = if name = s.name then some id else t.lookupLocal name := by
  obtain ⟨c, hc⟩ : ∃ c, t.scope? t.current = some c := ⟨_, Array.getElem?_eq_getElem hopen⟩
  rw [lookupLocal, lookupLocal, (extends_define h).current, lookupIn, lookupIn, scope?_define h, if_pos rfl, hc,
    map_some, bind_some, bind_some, List.lookup_cons]
  by_cases hname : name = s.name
  · simp [hname]
  · simp [hname, beq_false_of_ne hname]

lemma symbol?_define (hs : t.Sound module) (hopen : t.Open) (h : t.define s = .ok (id, t')) (name) :
    t'.symbol? name = if name = s.name then some { s with scope := t.current } else t.symbol? name := by
  have hcurrent := (extends_define h).current
  have hin : t'.lookupIn t.current name = if name = s.name then some id else t.lookupIn t.current name := by
    have hlocal := lookupLocal_define hopen h name
    rwa [lookupLocal, hcurrent] at hlocal
  by_cases hname : name = s.name
  · rw [if_pos hname] at hin ⊢
    have hlookup : t'.lookup name = some id := by
      rw [lookup, hcurrent, lookupFrom_eq, hin, some_or]
    rw [SymbolTable.symbol?, hlookup, bind_some, get?_define h, if_pos rfl]
  · rw [if_neg hname] at hin ⊢
    have hlookup : t'.lookup name = t.lookup name := by
      rw [lookup, lookup, hcurrent, lookupFrom_eq, lookupFrom_eq, hin, (extends_define h).parent]
      congr 1
      cases (t.scope? t.current).bind (·.parent) with
      | none => rfl
      | some parent =>
        rw [bind_some, bind_some]
        split
        · rename_i hlt
          refine lookupFrom_congr (fun i hi => ?_) name
          exact (extends_define h).outer i (by unfold Open at hopen; omega) (by omega)
        · rfl
    rw [SymbolTable.symbol?, SymbolTable.symbol?, hlookup]
    cases hid : t.lookup name with
    | none => rfl
    | some k =>
      obtain ⟨sym, hget⟩ := hs.get?_of_lookupFrom hid
      rw [bind_some, bind_some, (extends_define h).kept k sym hget, hget]

/-! ### Frames -/

/-- The same scopes around the current one, and possibly new ones, whatever names they have. -/
structure Frames (t t' : SymbolTable) : Prop where
  current : t'.current = t.current
  size : t.scopes.size ≤ t'.scopes.size
  parent : ∀ i < t.scopes.size, (t'.scope? i).bind (·.parent) = (t.scope? i).bind (·.parent)

lemma Frames.refl (t) : Frames t t :=
  ⟨rfl, Nat.le_refl _, fun _ _ => rfl⟩

lemma Frames.trans (h : Frames t t') (h' : Frames t' t'') : Frames t t'' where
  current := h'.current.trans h.current
  size := Nat.le_trans h.size h'.size
  parent i hi := (h'.parent i (Nat.lt_of_lt_of_le hi h.size)).trans (h.parent i hi)

lemma Frames.leave {kind} (h : Frames (t.enter kind) t') : Frames t t'.leave := by
  have hentered : t.scopes.size < (t.enter kind).scopes.size := by simp [enter]
  have hparent : (t'.scope? t'.current).bind (·.parent) = some t.current := by
    rw [h.current]
    refine (h.parent t.scopes.size hentered).trans ?_
    rw [scope?_enter_current]
    rfl
  have hleave : t'.leave = { t' with current := t.current } := by
    rw [SymbolTable.leave, hparent]
  rw [hleave]
  refine ⟨rfl, Nat.le_trans (Nat.le_of_lt hentered) h.size, fun i hi => ?_⟩
  rw [← scope?_enter_of_lt hi kind]
  exact h.parent i (Nat.lt_trans hi hentered)

lemma frames_define (h : t.define s = .ok (id, t')) : Frames t t' where
  current := (extends_define h).current
  size := (extends_define h).size
  parent i _ := by
    rw [scope?_define h]
    split
    · cases t.scope? i with
      | none | some c => rfl
    · rfl

end SourceCheck.SymbolTable
