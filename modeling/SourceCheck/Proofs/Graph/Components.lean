import Mathlib.Data.List.Nodup
import Mathlib.Data.List.Permutation
import Mathlib.Logic.Relation
import Mathlib.Tactic.Lemma
import SourceCheck.Graph.Basic

/-!
# Components

The search in depth keeps its vertices on a stack, in the order of their indices. One that is left and stays on the
stack leads to one with a smaller index. So what lies on the stack above a vertex that leads to none with a smaller
index is just what leads to it and back.
-/

open Relation (ReflTransGen)

namespace SourceCheck.Graph

open List

variable {g : Graph} {v w x y : Nat}

def Edge (g : Graph) (v w : Nat) : Prop :=
  w ∈ g.next v

def Closed (g : Graph) : Prop :=
  ∀ v w, g.Edge v w → w < g.length

def Leads (g : Graph) : Nat → Nat → Prop :=
  ReflTransGen g.Edge

lemma mem_vertices : v ∈ g.vertices ↔ v < g.length :=
  mem_range

lemma Edge.source_lt (h : g.Edge v w) : v < g.length := by
  by_contra hle
  rw [Edge, next, List.getElem?_eq_none (Nat.le_of_not_lt hle)] at h
  exact absurd h not_mem_nil

/-! ### Lists of components -/

/-- Classes of vertices that lead to each other, in ascending order, whose edges lead to the same or an earlier one. -/
inductive Classes (g : Graph) : List (List Nat) → Prop where
  | nil : Classes g []
  | snoc {cs c v} :
    Classes g cs →
    v ∈ c →
    c.Pairwise (· < ·) →
    (∀ w, w ∈ c ↔ g.Leads v w ∧ g.Leads w v) →
    (∀ x ∈ c, ∀ y, g.Edge x y → y ∈ c ∨ y ∈ cs.flatten) →
    Classes g (cs ++ [c])

namespace Classes

variable {cs : List (List Nat)}

lemma mem_of_edge (h : Classes g cs) (hx : x ∈ cs.flatten) (hedge : g.Edge x y) : y ∈ cs.flatten := by
  induction h with
  | nil => cases hx
  | snoc _ _ _ _ hearlier ih =>
    rw [flatten_append, mem_append, flatten_singleton] at hx ⊢
    obtain hx | hx := hx
    · exact .inl (ih hx)
    · exact (hearlier x hx y hedge).symm

lemma mem_of_leads (h : Classes g cs) (hx : x ∈ cs.flatten) (hlead : g.Leads x y) : y ∈ cs.flatten := by
  induction hlead with
  | refl => exact hx
  | tail _ hedge ih => exact h.mem_of_edge ih hedge

end Classes

/-! ### What holds during the search -/

/-- Edges that have been looked at, since no visit of their source has them still to do. -/
def Looked (g : Graph) (visits : List Visit) (x y : Nat) : Prop :=
  g.Edge x y ∧ ∀ p ∈ visits, p.vertex = x → y ∉ p.todo

structure Sound (g : Graph) (s : Search) (visits : List Visit) : Prop where
  /-- A vertex is unseen, on the stack or in a component. -/
  perm : s.unseen ++ s.stack ++ s.components.flatten ~ g.vertices
  classes : g.Classes s.components
  index_lt : ∀ x ∈ s.stack, s.index x < s.next
  descending : s.stack.Pairwise fun x y => s.index y < s.index x
  sublist : visits.map (·.vertex) <+ s.stack
  todo : ∀ p ∈ visits, ∀ w ∈ p.todo, g.Edge p.vertex w
  seen : ∀ x ∈ s.stack, ∀ y, g.Looked visits x y → y ∉ s.unseen
  leads : ∀ u ∈ visits.map (·.vertex), ∀ x ∈ s.stack, s.index u ≤ s.index x → g.Leads u x
  low : ∀ p ∈ visits, p.low ≤ s.index p.vertex ∧ ∃ x ∈ s.stack, s.index x = p.low ∧ g.Leads p.vertex x
  /-- What is left and stays on the stack leads further down. -/
  descends : ∀ x ∈ s.stack, x ∉ visits.map (·.vertex) → ∃ y ∈ s.stack, s.index y < s.index x ∧
    g.Leads x y
  /-- The lows of a visit and of those inside it are below all that has been looked at since it began. -/
  bounds : ∀ u ∈ visits.map (·.vertex), ∀ x ∈ s.stack, s.index u ≤ s.index x →
    ∀ y ∈ s.stack, g.Looked visits x y → ∃ q ∈ visits, s.index u ≤ s.index q.vertex ∧ q.low ≤ s.index y

namespace Sound

variable {s : Search} {visits inner outer : List Visit} {low low' : Nat} {todo : List Nat}

lemma nodup (h : Sound g s visits) : (s.unseen ++ s.stack ++ s.components.flatten).Nodup :=
  h.perm.nodup_iff.2 nodup_range

lemma not_mem_unseen (h : Sound g s visits) (hv : v ∈ s.stack) : v ∉ s.unseen :=
  fun hunseen => disjoint_of_nodup_append (nodup_append.1 h.nodup).1 hunseen hv

lemma not_mem_components (h : Sound g s visits) (hv : v ∈ s.stack) : v ∉ s.components.flatten :=
  fun hdone => disjoint_of_nodup_append h.nodup (mem_append_right _ hv) hdone

lemma mem_iff (h : Sound g s visits) :
    v < g.length ↔ v ∈ s.unseen ∨ v ∈ s.stack ∨ v ∈ s.components.flatten := by
  rw [← mem_vertices, ← h.perm.mem_iff, mem_append, mem_append, or_assoc]

lemma vertex_mem (h : Sound g s visits) (hv : v ∈ visits.map (·.vertex)) : v ∈ s.stack :=
  h.sublist.subset hv

/-- The innermost visit has the greatest index. -/
lemma index_lt_of_mem {p} (h : Sound g s (p :: outer)) (hv : v ∈ outer.map (·.vertex)) :
    s.index v < s.index p.vertex :=
  rel_of_pairwise_cons (h.descending.sublist h.sublist) hv

/-! ### Steps -/

lemma looked_of_look (low w) (h : g.Looked (inner ++ ⟨v, low', todo⟩ :: outer) x y) :
    x = v ∧ y = w ∨ g.Looked (inner ++ ⟨v, low, w :: todo⟩ :: outer) x y := by
  obtain ⟨hedge, hlooked⟩ := h
  by_cases hnew : x = v ∧ y = w
  · exact .inl hnew
  · refine .inr ⟨hedge, fun p hp hpx => ?_⟩
    simp only [mem_append, mem_cons] at hp hlooked
    obtain hp | rfl | hp := hp
    · exact hlooked p (.inl hp) hpx
    · rw [mem_cons, not_or]
      exact ⟨fun hy => hnew ⟨hpx.symm, hy⟩, hlooked ⟨v, low', todo⟩ (.inr (.inl rfl)) hpx⟩
    · exact hlooked p (.inr (.inr hp)) hpx

/-- The next edge of a visit is looked at, and lowers its low at most to the index of the other end. -/
lemma look (inner) (h : Sound g s (inner ++ ⟨v, low, w :: todo⟩ :: outer)) (hw : w ∉ s.unseen)
    (hle : low' ≤ low)
    (hlow : low' = low ∨ w ∈ s.stack ∧ low' = s.index w)
    (hbound : w ∈ s.stack → ∃ q ∈ inner ++ ⟨v, low', todo⟩ :: outer,
      s.index v ≤ s.index q.vertex ∧ q.low ≤ s.index w) :
    Sound g s (inner ++ ⟨v, low', todo⟩ :: outer) := by
  have hmap : (inner ++ ⟨v, low', todo⟩ :: outer).map (·.vertex) =
      (inner ++ ⟨v, low, w :: todo⟩ :: outer).map (·.vertex) := by simp
  have htodo := h.todo
  have hlows := h.low
  rw [forall_mem_append, forall_mem_cons] at htodo hlows
  obtain ⟨hinner, hv, houter⟩ := htodo
  obtain ⟨hlinner, ⟨hindex, hlead⟩, hlouter⟩ := hlows
  refine ⟨h.perm, h.classes, h.index_lt, h.descending, hmap ▸ h.sublist, ?_, fun x hx y hy => ?_, hmap ▸ h.leads,
    ?_, hmap ▸ h.descends, fun u hu x hx hux y hy hlooked => ?_⟩
  · rw [forall_mem_append, forall_mem_cons]
    exact ⟨hinner, fun y hy => hv y (mem_cons_of_mem w hy), houter⟩
  · obtain ⟨-, rfl⟩ | hy := looked_of_look low w hy
    · exact hw
    · exact h.seen x hx y hy
  · rw [forall_mem_append, forall_mem_cons]
    refine ⟨hlinner, ⟨Nat.le_trans hle hindex, ?_⟩, hlouter⟩
    obtain rfl | ⟨hmem, rfl⟩ := hlow
    · exact hlead
    · exact ⟨w, hmem, rfl, .single (hv w mem_cons_self)⟩
  · obtain ⟨rfl, rfl⟩ | hlooked := looked_of_look low w hlooked
    · obtain ⟨q, hq, hvq, hqw⟩ := hbound hy
      exact ⟨q, hq, Nat.le_trans hux hvq, hqw⟩
    · obtain ⟨q, hq, huq, hqy⟩ := h.bounds u (hmap ▸ hu) x hx hux y hy hlooked
      rw [mem_append, mem_cons] at hq
      obtain hq | rfl | hq := hq
      · exact ⟨q, mem_append_left _ hq, huq, hqy⟩
      · exact ⟨_, mem_append_right _ mem_cons_self, huq, Nat.le_trans hle hqy⟩
      · exact ⟨q, mem_append_right _ (mem_cons_of_mem _ hq), huq, hqy⟩

lemma enter (h : Sound g s visits) (hw : w ∈ s.unseen) (hleads : ∀ u ∈ visits.map (·.vertex), g.Leads u w) :
    Sound g (s.enter w) (g.visit s w :: visits) := by
  have hnot : ∀ x ∈ s.stack, x ≠ w := by
    rintro x hx rfl
    exact h.not_mem_unseen hx hw
  have hindex : ∀ x ∈ s.stack, (s.enter w).index x = s.index x := fun x hx => if_neg (hnot x hx)
  have hself : (s.enter w).index w = s.next := if_pos rfl
  -- Nothing of the new visit has been looked at.
  have hlooked : ∀ {x y}, g.Looked (g.visit s w :: visits) x y → x ≠ w ∧ g.Looked visits x y := by
    rintro x y ⟨hedge, hlooked⟩
    rw [forall_mem_cons] at hlooked
    refine ⟨?_, hedge, hlooked.2⟩
    rintro rfl
    exact hlooked.1 rfl hedge
  have hstack : (s.enter w).stack = w :: s.stack := rfl
  refine ⟨?_, h.classes, ?_, ?_, ?_, ?_, ?_, ?_, ?_, ?_, ?_⟩
  · refine Perm.trans (Perm.append_right _ ?_) h.perm
    exact perm_middle.trans ((perm_cons_erase hw).symm.append_right s.stack)
  · rw [hstack, forall_mem_cons, hself]
    refine ⟨Nat.lt_succ_self _, fun x hx => ?_⟩
    rw [hindex x hx]
    exact Nat.lt_succ_of_lt (h.index_lt x hx)
  · refine pairwise_cons.2 ⟨fun x hx => ?_, h.descending.imp_of_mem fun hx hy hlt => ?_⟩
    · rw [hself, hindex x hx]
      exact h.index_lt x hx
    · rwa [hindex _ hx, hindex _ hy]
  · exact h.sublist.cons_cons w
  · exact forall_mem_cons.2 ⟨fun y hy => hy, h.todo⟩
  · intro x hx y hy
    obtain ⟨hne, hy⟩ := hlooked hy
    exact fun hunseen => h.seen x ((mem_cons.1 hx).resolve_left hne) y hy (mem_of_mem_erase hunseen)
  · rw [hstack]
    refine forall_mem_cons.2 ⟨fun x hx hle => ?_, fun u hu x hx hle => ?_⟩
    · obtain rfl | hx := mem_cons.1 hx
      · exact .refl
      · rw [visit, hself, hindex x hx] at hle
        exact absurd (h.index_lt x hx) (Nat.not_lt.2 hle)
    · obtain rfl | hx := mem_cons.1 hx
      · exact hleads u hu
      · rw [hindex u (h.vertex_mem hu), hindex x hx] at hle
        exact h.leads u hu x hx hle
  · refine forall_mem_cons.2 ⟨⟨Nat.le_of_eq hself.symm, w, mem_cons_self, hself, .refl⟩, fun p hp => ?_⟩
    obtain ⟨hle, x, hx, hlow, hlead⟩ := h.low p hp
    rw [hindex _ (h.vertex_mem (mem_map_of_mem hp))]
    exact ⟨hle, x, mem_cons_of_mem w hx, (hindex x hx).trans hlow, hlead⟩
  · intro x hx hvisits
    rw [map_cons, mem_cons, not_or] at hvisits
    have hx := (mem_cons.1 hx).resolve_left hvisits.1
    obtain ⟨y, hy, hlt, hlead⟩ := h.descends x hx hvisits.2
    refine ⟨y, mem_cons_of_mem w hy, ?_, hlead⟩
    rwa [hindex x hx, hindex y hy]
  · intro u hu x hx hle y hy hxy
    obtain ⟨hne, hxy⟩ := hlooked hxy
    replace hx := (mem_cons.1 hx).resolve_left hne
    replace hy : y ∈ s.stack := by
      refine (mem_cons.1 hy).resolve_left fun hyw => ?_
      exact h.seen x hx y hxy (hyw ▸ hw)
    obtain hu | hu := mem_cons.1 hu
    · rw [show u = w from hu, hself, hindex x hx] at hle
      exact absurd (h.index_lt x hx) (Nat.not_lt.2 hle)
    · rw [hindex u (h.vertex_mem hu), hindex x hx] at hle
      obtain ⟨q, hq, huq, hqy⟩ := h.bounds u hu x hx hle y hy hxy
      refine ⟨q, mem_cons_of_mem _ hq, ?_, ?_⟩
      · rwa [hindex u (h.vertex_mem hu), hindex _ (h.vertex_mem (mem_map_of_mem hq))]
      · rwa [hindex y hy]

lemma looked_of_leave (h : g.Looked outer x y) : g.Looked (⟨v, low, []⟩ :: outer) x y :=
  ⟨h.1, forall_mem_cons.2 ⟨fun _ => not_mem_nil, h.2⟩⟩

/-- A vertex that leads further down is left and stays on the stack. -/
lemma keep (h : Sound g s (⟨v, low, []⟩ :: outer)) (hne : low ≠ s.index v) :
    Sound g s (outer.modifyHead (·.lower low)) := by
  obtain ⟨hle, x, hx, hlow, hlead⟩ := h.low _ mem_cons_self
  have hv : v ∈ s.stack := h.vertex_mem mem_cons_self
  have hdescends : ∀ z ∈ s.stack, z ∉ outer.map (·.vertex) → ∃ y ∈ s.stack, s.index y < s.index z ∧
    g.Leads z y := by
    intro z hz hvisits
    by_cases hzv : z = v
    · subst hzv
      exact ⟨x, hx, hlow ▸ Nat.lt_of_le_of_ne hle hne, hlead⟩
    · exact h.descends z hz (fun hmem => (mem_cons.1 hmem).elim hzv hvisits)
  have hsub := (sublist_cons_self v _).trans h.sublist
  cases outer with
  | nil =>
    exact ⟨h.perm, h.classes, h.index_lt, h.descending, hsub, by simp,
      fun z hz y hy => h.seen z hz y (looked_of_leave hy),
      by simp, by simp, hdescends, by simp⟩
  | cons p outer =>
    have hlooked : ∀ {z y}, g.Looked (p.lower low :: outer) z y → g.Looked (⟨v, low, []⟩ :: p :: outer) z y :=
      fun hz => looked_of_leave ⟨hz.1, forall_mem_cons.2 (forall_mem_cons.1 hz.2)⟩
    have hp := h.index_lt_of_mem (v := p.vertex) mem_cons_self
    refine ⟨h.perm, h.classes, h.index_lt, h.descending, hsub, ?_, fun z hz y hy => h.seen z hz y (hlooked hy),
      fun u hu => h.leads u (mem_cons_of_mem v hu), ?_, hdescends, ?_⟩
    · exact forall_mem_cons.2 (forall_mem_cons.1 (forall_mem_cons.1 h.todo).2)
    · obtain ⟨hple, y, hy, hplow, hplead⟩ := h.low p (mem_cons_of_mem _ mem_cons_self)
      refine forall_mem_cons.2
        ⟨⟨Nat.le_trans (Nat.min_le_left _ _) hple, ?_⟩, fun q hq => h.low q (by simp [hq])⟩
      obtain hmin | hmin := Nat.le_total p.low low
      · exact ⟨y, hy, hplow.trans (Nat.min_eq_left hmin).symm, hplead⟩
      · have hpv := h.leads p.vertex (by simp) v hv (Nat.le_of_lt hp)
        exact ⟨x, hx, hlow.trans (Nat.min_eq_right hmin).symm, hpv.trans hlead⟩
    · intro u hu z hz huz y hy hzy
      obtain ⟨q, hq, huq, hqy⟩ := h.bounds u (mem_cons_of_mem v hu) z hz huz y hy (hlooked hzy)
      have hup : s.index u ≤ s.index p.vertex := by
        obtain rfl | hu := mem_cons.1 hu
        · exact Nat.le_refl _
        · exact Nat.le_of_lt (rel_of_pairwise_cons (h.descending.sublist hsub) hu)
      obtain rfl | hq := mem_cons.1 hq
      · exact ⟨p.lower low, mem_cons_self, hup, Nat.le_trans (Nat.min_le_right _ _) hqy⟩
      · obtain rfl | hq := mem_cons.1 hq
        · exact ⟨q.lower low, mem_cons_self, huq, Nat.le_trans (Nat.min_le_left _ _) hqy⟩
        · exact ⟨q, mem_cons_of_mem _ hq, huq, hqy⟩

/-! ### A component is complete -/

lemma mem_of_edge (hclosed : g.Closed) (h : Sound g s (⟨v, s.index v, []⟩ :: outer)) (hx : x ∈ s.stack)
    (hle : s.index v ≤ s.index x) (hedge : g.Edge x y) :
    y ∈ s.stack ∧ s.index v ≤ s.index y ∨ y ∈ s.components.flatten := by
  have hlooked : g.Looked (⟨v, s.index v, []⟩ :: outer) x y := by
    refine looked_of_leave ⟨hedge, fun p hp hpx => ?_⟩
    have hlt := h.index_lt_of_mem (mem_map_of_mem hp)
    rw [hpx] at hlt
    exact absurd hlt (Nat.not_lt.2 hle)
  obtain hy | hy | hy := h.mem_iff.1 (hclosed x y hedge)
  · exact absurd hy (h.seen x hx y hlooked)
  · obtain ⟨q, hq, hvq, hqy⟩ := h.bounds v mem_cons_self x hx hle y hy hlooked
    obtain rfl | hq := mem_cons.1 hq
    · exact .inl ⟨hy, hqy⟩
    · exact absurd (h.index_lt_of_mem (mem_map_of_mem hq)) (Nat.not_lt.2 hvq)
  · exact .inr hy

lemma mem_of_leads (hclosed : g.Closed) (h : Sound g s (⟨v, s.index v, []⟩ :: outer)) (hx : x ∈ s.stack)
    (hle : s.index v ≤ s.index x) (hlead : g.Leads x y) :
    y ∈ s.stack ∧ s.index v ≤ s.index y ∨ y ∈ s.components.flatten := by
  induction hlead with
  | refl => exact .inl ⟨hx, hle⟩
  | tail _ hedge ih =>
    obtain ⟨hy, hle⟩ | hy := ih
    · exact h.mem_of_edge hclosed hy hle hedge
    · exact .inr (h.classes.mem_of_edge hy hedge)

/-- What lies above a vertex that leads no further down leads to it: each such vertex leads to one further down, and
not below it. -/
lemma leads_back (hclosed : g.Closed) (h : Sound g s (⟨v, s.index v, []⟩ :: outer)) (hx : x ∈ s.stack)
    (hle : s.index v ≤ s.index x) : g.Leads x v := by
  induction hn : s.index x using Nat.strongRecOn generalizing x with
  | _ n ih =>
    by_cases hxv : x = v
    · subst hxv
      exact .refl
    have hvisits : x ∉ v :: outer.map (·.vertex) := by
      rw [mem_cons, not_or]
      exact ⟨hxv, fun hmem => absurd (h.index_lt_of_mem hmem) (Nat.not_lt.2 hle)⟩
    obtain ⟨y, hy, hlt, hlead⟩ := h.descends x hx hvisits
    obtain ⟨-, hvy⟩ | hdone := h.mem_of_leads hclosed hx hle hlead
    · exact hlead.trans (ih _ (hn ▸ hlt) hy hvy rfl)
    · exact absurd hdone (h.not_mem_components hy)

lemma mem_component_iff (hclosed : g.Closed) (h : Sound g s (⟨v, s.index v, []⟩ :: outer)) :
    y ∈ s.stack ∧ s.index v ≤ s.index y ↔ g.Leads v y ∧ g.Leads y v := by
  have hv : v ∈ s.stack := h.vertex_mem mem_cons_self
  constructor
  · rintro ⟨hy, hle⟩
    exact ⟨h.leads v mem_cons_self y hy hle, h.leads_back hclosed hy hle⟩
  · rintro ⟨hto, hback⟩
    obtain hy | hy := h.mem_of_leads hclosed hv (Nat.le_refl _) hto
    · exact hy
    · exact absurd (h.classes.mem_of_leads hy hback) (h.not_mem_components hv)

/-! ### A component is taken off -/

lemma pop_eq {above below} (hstack : s.stack = above ++ v :: below) (hnot : v ∉ above) :
    s.pop v = { s with stack := below, components := s.components ++ [(v :: above).mergeSort] } := by
  have hall : ∀ x ∈ above, decide (x ≠ v) = true := by
    intro x hx
    rw [decide_eq_true_eq]
    rintro rfl
    exact hnot hx
  rw [Search.pop, hstack, takeWhile_append_of_pos hall, dropWhile_append_of_pos hall]
  simp

lemma pop (hclosed : g.Closed) (h : Sound g s (⟨v, s.index v, []⟩ :: outer)) : Sound g (s.pop v) outer := by
  have hv : v ∈ s.stack := h.vertex_mem mem_cons_self
  obtain ⟨above, below, hstack, hnot⟩ := eq_append_cons_of_mem hv
  have hdescending := h.descending
  rw [hstack, pairwise_append, pairwise_cons] at hdescending
  obtain ⟨habove, ⟨hbelow, hpairwise⟩, hacross⟩ := hdescending
  have hsub : below <+ s.stack := by
    rw [hstack]
    exact (sublist_cons_self v below).trans (sublist_append_right above _)
  have hmem : ∀ x, x ∈ v :: above ↔ x ∈ s.stack ∧ s.index v ≤ s.index x := by
    intro x
    rw [hstack, mem_append, mem_cons, mem_cons]
    constructor
    · rintro (rfl | hx)
      · exact ⟨.inr (.inl rfl), Nat.le_refl _⟩
      · exact ⟨.inl hx, Nat.le_of_lt (hacross x hx v mem_cons_self)⟩
    · rintro ⟨hx | hx | hx, hle⟩
      · exact .inr hx
      · exact .inl hx
      · exact absurd (hbelow x hx) (Nat.not_lt.2 hle)
  have hbelow_of_lt : ∀ {x}, x ∈ s.stack → s.index x < s.index v → x ∈ below := by
    intro x hx hlt
    have hnot : x ∉ v :: above := fun hx => absurd ((hmem x).mp hx).2 (Nat.not_le.2 hlt)
    rw [hstack, append_cons, mem_append] at hx
    exact hx.resolve_left (by simpa [or_comm] using hnot)
  rw [pop_eq hstack hnot]
  refine ⟨?_, ?_, fun x hx => h.index_lt x (hsub.subset hx), hpairwise, ?_,
    fun p hp => h.todo p (mem_cons_of_mem _ hp),
    fun x hx y hy => h.seen x (hsub.subset hx) y (looked_of_leave hy),
    fun u hu x hx => h.leads u (mem_cons_of_mem v hu) x (hsub.subset hx), fun p hp => ?_, fun x hx hvisits => ?_,
    fun u hu x hx hux y hy hxy => ?_⟩
  · refine Perm.trans ?_ h.perm
    refine perm_iff_count.2 fun x => ?_
    have hsort := (mergeSort_perm (v :: above) (· ≤ ·)).count_eq x
    simp only [hstack, flatten_append, flatten_singleton, count_append, count_cons] at hsort ⊢
    omega
  · refine h.classes.snoc (mem_mergeSort.2 mem_cons_self) ?_ (fun w => ?_) fun x hx y hedge => ?_
    · have hnodup : (v :: above).Nodup := by
        have hnodup := (nodup_append.1 (nodup_append.1 h.nodup).1).2.1
        rw [hstack, append_cons] at hnodup
        exact (perm_append_singleton v above).nodup_iff.1 (nodup_append.1 hnodup).1
      have hle : (v :: above).mergeSort.Pairwise fun a b => decide (a ≤ b) = true :=
        pairwise_mergeSort (by simpa using fun _ _ _ => Nat.le_trans) (by simpa using Nat.le_total) _
      have hne := (mergeSort_perm (v :: above) (· ≤ ·)).nodup_iff.2 hnodup
      exact (hle.and hne).imp fun h => Nat.lt_of_le_of_ne (of_decide_eq_true h.1) h.2
    · rw [mem_mergeSort, hmem, h.mem_component_iff hclosed]
    · rw [mem_mergeSort, hmem] at hx ⊢
      exact h.mem_of_edge hclosed hx.1 hx.2 hedge
  · have hvisits := h.sublist
    rw [hstack, map_cons, sublist_append_iff] at hvisits
    obtain ⟨front, back, heq, hfront, hback⟩ := hvisits
    obtain rfl : front = [] := by
      cases front with
      | nil => rfl
      | cons x front =>
        obtain ⟨rfl, -⟩ := cons.inj heq
        exact absurd (hfront.subset mem_cons_self) hnot
    subst heq
    exact cons_sublist_cons.1 hback
  · obtain ⟨hle, x, hx, hlow, hlead⟩ := h.low p (mem_cons_of_mem _ hp)
    have hlt := h.index_lt_of_mem (mem_map_of_mem hp)
    exact ⟨hle, x, hbelow_of_lt hx (hlow ▸ Nat.lt_of_le_of_lt hle hlt), hlow, hlead⟩
  · have hlt := hbelow x hx
    have hne : x ≠ v := fun hxv => absurd hlt (hxv ▸ Nat.lt_irrefl _)
    obtain ⟨y, hy, hyx, hlead⟩ := h.descends x (hsub.subset hx) fun hmem => (mem_cons.1 hmem).elim hne hvisits
    exact ⟨y, hbelow_of_lt hy (Nat.lt_trans hyx hlt), hyx, hlead⟩
  · obtain ⟨q, hq, huq, hqy⟩ :=
      h.bounds u (mem_cons_of_mem v hu) x (hsub.subset hx) hux y (hsub.subset hy) (looked_of_leave hxy)
    obtain rfl | hq := mem_cons.1 hq
    · exact absurd (hbelow y hy) (Nat.not_lt.2 hqy)
    · exact ⟨q, hq, huq, hqy⟩

end Sound

/-! ### The whole search -/

lemma Sound.stack_eq_nil {s} (h : Sound g s []) : s.stack = [] := by
  refine eq_nil_iff_forall_not_mem.2 fun x hx => ?_
  induction hn : s.index x using Nat.strongRecOn generalizing x with
  | _ n ih =>
    obtain ⟨y, hy, hlt, -⟩ := h.descends x hx not_mem_nil
    exact ih _ (hn ▸ hlt) y hy rfl

lemma Sound.modifyHead_lower {s v outer} (h : Sound g s (⟨v, s.index v, []⟩ :: outer)) :
    outer.modifyHead (·.lower (s.index v)) = outer := by
  cases outer with
  | nil => rfl
  | cons p outer =>
    have hle := (h.low p (by simp)).1
    have hlt := h.index_lt_of_mem (v := p.vertex) mem_cons_self
    have hlow : p.lower (s.index v) = p := by
      rw [Visit.lower, Nat.min_eq_left (Nat.le_trans hle (Nat.le_of_lt hlt))]
    rw [modifyHead_cons, hlow]

lemma sound_explore (hclosed : g.Closed) {s visits} (h : Sound g s visits) : Sound g (g.explore s visits) [] := by
  fun_induction explore g s visits with
  | case1 s => exact h
  | case2 s v low outer ih =>
    refine ih ?_
    rw [Search.leave]
    split
    · rename_i heq
      subst heq
      rw [h.modifyHead_lower]
      exact h.pop hclosed
    · rename_i hne
      exact h.keep hne
  | case3 s v low w todo outer hw ih =>
    have hv : v ∈ s.stack := h.vertex_mem mem_cons_self
    have hedge : g.Edge v w := h.todo _ mem_cons_self w mem_cons_self
    have hleads : ∀ u ∈ v :: outer.map (·.vertex), g.Leads u w := by
      refine forall_mem_cons.2 ⟨.single hedge, fun u hu => ?_⟩
      exact (h.leads u (mem_cons_of_mem v hu) v hv (Nat.le_of_lt (h.index_lt_of_mem hu))).tail hedge
    have hentered := h.enter hw hleads
    have hmem : w ∈ (s.enter w).stack := mem_cons_self
    -- The new visit bounds the index of `w` until it ends.
    refine ih (hentered.look [g.visit s w] (hentered.not_mem_unseen hmem) (Nat.le_refl _) (.inl rfl) ?_)
    refine fun _ => ⟨_, mem_cons_self, ?_, ?_⟩
    · exact Nat.le_of_lt (hentered.index_lt_of_mem (v := v) mem_cons_self)
    · exact (hentered.low _ mem_cons_self).1
  | case4 s v low w todo outer hw ih =>
    refine ih (h.look [] hw ?_ ?_ fun hmem => ⟨_, mem_cons_self, Nat.le_refl _, ?_⟩)
    all_goals rw [Search.lowest]
    · split
      · exact Nat.min_le_left _ _
      · exact Nat.le_refl _
    · split
      · rename_i hmem
        obtain hle | hle := Nat.le_total low (s.index w)
        · exact .inl (Nat.min_eq_left hle)
        · exact .inr ⟨hmem, Nat.min_eq_right hle⟩
      · exact .inl rfl
    · rw [if_pos hmem]
      exact Nat.min_le_right _ _

lemma unseen_explore_subset (s visits) : (g.explore s visits).unseen ⊆ s.unseen := by
  fun_induction explore g s visits with
  | case1 s => exact List.Subset.refl _
  | case2 s v low outer ih => rwa [Search.unseen_leave] at ih
  | case3 s v low w todo outer hw ih => exact List.Subset.trans ih erase_subset
  | case4 s v low w todo outer hw ih => exact ih

lemma sound_exploreFrom (hclosed : g.Closed) {s} (h : Sound g s []) (v) :
    Sound g (g.exploreFrom s v) [] ∧ (g.exploreFrom s v).unseen ⊆ s.unseen.erase v := by
  rw [exploreFrom]
  split
  · rename_i hv
    exact ⟨sound_explore hclosed (h.enter hv (by simp)), unseen_explore_subset _ _⟩
  · rename_i hv
    rw [erase_of_not_mem hv]
    exact ⟨h, List.Subset.refl _⟩

lemma sound_foldl (hclosed : g.Closed) {s} (h : Sound g s []) (l : List Nat) :
    Sound g (l.foldl g.exploreFrom s) [] ∧ ∀ v ∈ (l.foldl g.exploreFrom s).unseen, v ∈ s.unseen ∧
      v ∉ l := by
  induction l generalizing s with
  | nil => exact ⟨h, fun v hv => ⟨hv, not_mem_nil⟩⟩
  | cons w l ih =>
    obtain ⟨hsound, hsub⟩ := sound_exploreFrom hclosed h w
    refine ⟨(ih hsound).1, fun v hv => ?_⟩
    obtain ⟨hv, hl⟩ := (ih hsound).2 v hv
    have hnodup := (nodup_append.1 (nodup_append.1 h.nodup).1).1
    obtain ⟨hne, hv⟩ := hnodup.mem_erase_iff.1 (hsub hv)
    exact ⟨hv, by simp [hne, hl]⟩

lemma classes_components (hclosed : g.Closed) : g.Classes g.components ∧ g.components.flatten ~ g.vertices := by
  have hinit : Sound g { unseen := g.vertices } [] :=
    ⟨by simp, .nil, by simp, .nil, .slnil, by simp, by simp, by simp, by simp, by simp, by simp⟩
  obtain ⟨hsound, hunseen⟩ := sound_foldl hclosed hinit g.vertices
  have hnil := eq_nil_iff_forall_not_mem.2 fun v hv => (hunseen v hv).2 (hunseen v hv).1
  have hperm := hsound.perm
  rw [hnil, hsound.stack_eq_nil] at hperm
  exact ⟨hsound.classes, hperm⟩

/-! ### The components -/

namespace Classes

variable {cs : List (List Nat)}

lemma pairwise {c} (h : Classes g cs) (hc : c ∈ cs) : c ≠ [] ∧ c.Pairwise (· < ·) := by
  induction h with
  | nil => cases hc
  | snoc _ hv hpairwise _ _ ih =>
    obtain hc | hc := mem_append.1 hc
    · exact ih hc
    · rw [mem_singleton.1 hc]
      exact ⟨ne_nil_of_mem hv, hpairwise⟩

lemma mem_iff {c} (h : Classes g cs) (hc : c ∈ cs) (hv : v ∈ c) : w ∈ c ↔ g.Leads v w ∧ g.Leads w v := by
  induction h with
  | nil => cases hc
  | snoc _ _ _ hiff _ ih =>
    obtain hc | hc := mem_append.1 hc
    · exact ih hc
    · rw [mem_singleton] at hc
      subst hc
      obtain ⟨hto, hback⟩ := (hiff v).mp hv
      rw [hiff]
      exact ⟨fun h => ⟨hback.trans h.1, h.2.trans hto⟩, fun h => ⟨hto.trans h.1, h.2.trans hback⟩⟩

lemma mem_of_append {earlier c later} (h : Classes g cs) (hcs : cs = earlier ++ c :: later) (hv : v ∈ c)
    (hedge : g.Edge v w) : w ∈ c ∨ w ∈ earlier.flatten := by
  induction h generalizing later with
  | nil => simp at hcs
  | @snoc cs d _ _ _ _ _ hearlier ih =>
    obtain rfl | ⟨later, x, rfl⟩ := later.eq_nil_or_concat
    · obtain ⟨rfl, hd⟩ := append_inj' hcs rfl
      obtain rfl : d = c := by simpa using hd
      exact hearlier v hv w hedge
    · rw [concat_eq_append, ← cons_append, ← append_assoc] at hcs
      exact ih (append_inj' hcs rfl).1

end Classes

/-- The components are a partition of the vertices, each in ascending order. Two vertices share one if and only if
each leads to the other, and every edge leads to the same or an earlier one. -/
theorem components_exact (g : Graph) (hclosed : g.Closed) :
    g.components.flatten ~ g.vertices ∧
    (∀ c ∈ g.components, c ≠ [] ∧ c.Pairwise (· < ·)) ∧
    (∀ v < g.length, ∀ w < g.length,
      (∃ c ∈ g.components, v ∈ c ∧ w ∈ c) ↔ ReflTransGen g.Edge v w ∧ ReflTransGen g.Edge w v) ∧
    ∀ earlier c later, g.components = earlier ++ c :: later →
      ∀ v ∈ c, ∀ w, g.Edge v w → w ∈ c ∨ w ∈ earlier.flatten := by
  obtain ⟨hclasses, hperm⟩ := classes_components hclosed
  refine ⟨hperm, fun c hc => hclasses.pairwise hc, fun v hv w hw => ⟨?_, fun h => ?_⟩,
    fun earlier c later hcs v hv w hedge => hclasses.mem_of_append hcs hv hedge⟩
  · rintro ⟨c, hc, hv, hw⟩
    exact (hclasses.mem_iff hc hv).1 hw
  · obtain ⟨c, hc, hvc⟩ := mem_flatten.1 (hperm.mem_iff.2 (mem_vertices.2 hv))
    exact ⟨c, hc, hvc, (hclasses.mem_iff hc hvc).2 h⟩

theorem components_exact_twoCycles :
    let g : Graph := [[1], [0, 2], [3], [2, 3], []]
    g.components = [[2, 3], [0, 1], [4]] ∧ g.components.flatten ~ g.vertices := by
  intro g
  have hclosed : g.Closed := by
    intro v w hedge
    have hv := hedge.source_lt
    have hall : ∀ v < g.length, ∀ w ∈ g.next v, w < g.length := by decide
    exact hall v hv w hedge
  exact ⟨by cbv, (components_exact g hclosed).1⟩

end SourceCheck.Graph
