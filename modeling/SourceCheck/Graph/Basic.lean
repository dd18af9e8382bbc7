/-!
# Dependency graphs

The components are found by a search in depth that keeps, for each vertex it has entered and not left, the least index
it is known to lead back to. They come in the order in which the first vertex of each is left, so that an edge leads to
the same or an earlier one.
-/

namespace SourceCheck

abbrev Graph := List (List Nat)

namespace Graph

def vertices (g : Graph) : List Nat :=
  List.range g.length

def next (g : Graph) (v : Nat) : List Nat :=
  g[v]?.getD []

/-! ### Components -/

/-- A vertex that is entered and not yet left, the least index on the stack that it is known to lead to, and what it
leads to and is still to be looked at. -/
structure Visit where
  vertex : Nat
  low : Nat
  todo : List Nat

/-- A search in depth. Vertices get their indices in the order they are entered, and stay on the stack until the first
one of their component is left. -/
structure Search where
  unseen : List Nat
  index : Nat → Nat := fun _ => 0
  next : Nat := 0
  stack : List Nat := []
  components : List (List Nat) := []

namespace Search

def enter (s : Search) (v : Nat) : Search :=
  { s with
    unseen := s.unseen.erase v
    index := fun w => if w = v then s.next else s.index w
    next := s.next + 1
    stack := v :: s.stack }

/-- The component of `v` is what lies on the stack down to it. -/
def pop (s : Search) (v : Nat) : Search :=
  { s with
    stack := (s.stack.dropWhile (· ≠ v)).drop 1
    components := s.components ++ [(v :: s.stack.takeWhile (· ≠ v)).mergeSort] }

def leave (s : Search) (v low : Nat) : Search :=
  if low = s.index v then s.pop v else s

/-- What a vertex leads to counts while it is on the stack. -/
def lowest (s : Search) (low w : Nat) : Nat :=
  if w ∈ s.stack then min low (s.index w) else low

theorem unseen_leave (s : Search) (v low : Nat) : (s.leave v low).unseen = s.unseen := by
  unfold leave
  split <;> rfl

end Search

def Visit.lower (p : Visit) (low : Nat) : Visit :=
  { p with low := min p.low low }

theorem flatMap_todo_lower (visits : List Visit) (low : Nat) :
    (visits.modifyHead (·.lower low)).flatMap (·.todo) = visits.flatMap (·.todo) := by
  cases visits <;> rfl

def visit (g : Graph) (s : Search) (v : Nat) : Visit :=
  { vertex := v, low := s.next, todo := g.next v }

/-- Carry on with the visits, the innermost first. -/
def explore (g : Graph) (s : Search) (visits : List Visit) : Search :=
  match visits with
  | [] => s
  | ⟨v, low, []⟩ :: outer => g.explore (s.leave v low) (outer.modifyHead (·.lower low))
  | ⟨v, low, w :: todo⟩ :: outer =>
    if _h : w ∈ s.unseen then g.explore (s.enter w) (g.visit s w :: ⟨v, low, todo⟩ :: outer)
    else g.explore s (⟨v, s.lowest low w, todo⟩ :: outer)
termination_by (s.unseen.length, (visits.flatMap (·.todo)).length + visits.length)
decreasing_by
  · rw [Search.unseen_leave, flatMap_todo_lower, List.length_modifyHead]
    exact Prod.Lex.right _ (Nat.lt_succ_self _)
  · apply Prod.Lex.left
    rw [Search.enter, List.length_erase_of_mem ‹_›]
    exact Nat.sub_lt (List.length_pos_of_mem ‹_›) Nat.one_pos
  · exact Prod.Lex.right _ (Nat.add_lt_add_right (Nat.lt_succ_self _) _)

def exploreFrom (g : Graph) (s : Search) (v : Nat) : Search :=
  if v ∈ s.unseen then g.explore (s.enter v) [g.visit s v] else s

/-- The components, in the order in which the first of their vertices is left. -/
def components (g : Graph) : List (List Nat) :=
  (g.vertices.foldl g.exploreFrom { unseen := g.vertices }).components

/-- A component of two vertices, or of one that leads to itself. -/
def isCycle (g : Graph) (component : List Nat) : Bool :=
  1 < component.length || component.any fun v => (g.next v).contains v

/-! ### Shortest cycles: a search in breadth for the way back, over neighbours in ascending order -/

def among (g : Graph) (v : Nat) (list : List Nat) : List Nat :=
  list.filter fun w => (g.next v).contains w

def besides (g : Graph) (v : Nat) (list : List Nat) : List Nat :=
  list.filter fun w => !(g.next v).contains w

theorem length_besides_add_length_among (g : Graph) (v : Nat) (list : List Nat) :
    (g.besides v list).length + (g.among v list).length = list.length := by
  induction list with
  | nil => rfl
  | cons w list ih =>
    simp only [besides, among, List.filter_cons] at ih ⊢
    by_cases h : (g.next v).contains w = true <;> simp_all <;> omega

/-- The first way back to `start` that extends a pending one, written backwards, over `unseen`. -/
def wayBack? (g : Graph) (start : Nat) (unseen : List Nat) (pending : List (List Nat)) :
    Option (List Nat) :=
  match pending with
  | [] => none
  | way :: rest =>
    let last := way.headD start
    if (g.next last).contains start then some (way.reverse ++ [start])
    else
      g.wayBack? start (g.besides last unseen) (rest ++ (g.among last unseen).map (· :: way))
termination_by unseen.length + pending.length
decreasing_by
  have := g.length_besides_add_length_among (way.headD start) unseen
  simp only [List.length_append, List.length_map, List.length_cons]
  omega

def shortestCycle (g : Graph) (component : List Nat) (start : Nat) : List Nat :=
  (g.wayBack? start (component.filter (· ≠ start)) [[start]]).getD [start, start]

/-! ### Waves: what a vertex leads to lies in an earlier group, and no vertex comes later than it must -/

def isReady (g : Graph) (remaining : List Nat) (v : Nat) : Bool :=
  (g.next v).all fun w => !remaining.contains w

def ready (g : Graph) (remaining : List Nat) : List Nat :=
  remaining.filter (g.isReady remaining)

def waiting (g : Graph) (remaining : List Nat) : List Nat :=
  remaining.filter fun v => !g.isReady remaining v

theorem length_waiting_lt {g : Graph} {remaining : List Nat} (h : g.ready remaining ≠ []) :
    (g.waiting remaining).length < remaining.length := by
  obtain ⟨v, hv⟩ := List.exists_mem_of_ne_nil _ h
  rw [ready, List.mem_filter] at hv
  rw [waiting, List.length_filter_lt_length_iff_exists]
  exact ⟨v, hv.1, by simp [hv.2]⟩

/-- Vertices that never become ready are left out. -/
def waves (g : Graph) (remaining : List Nat) : List (List Nat) :=
  if _h : g.ready remaining = [] then []
  else g.ready remaining :: g.waves (g.waiting remaining)
termination_by remaining.length
decreasing_by exact length_waiting_lt ‹_›

end Graph

end SourceCheck
