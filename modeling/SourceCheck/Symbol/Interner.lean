/-!
# Interned text

Texts are numbered in the order in which they are first seen.
-/

namespace SourceCheck

/-- The texts seen so far. The number of a text is its place. -/
structure Interner where
  texts : Array String := #[]

namespace Interner

def get? (i : Interner) (text : String) : Option Nat :=
  i.texts.idxOf? text

def intern (i : Interner) (text : String) : Nat × Interner :=
  match i.get? text with
  | some id => (id, i)
  | none => (i.texts.size, ⟨i.texts.push text⟩)

def internAll (i : Interner) (texts : List String) : Interner :=
  texts.foldl (fun i text => (i.intern text).2) i

def resolve? (i : Interner) (id : Nat) : Option String :=
  i.texts[id]?

def size (i : Interner) : Nat :=
  i.texts.size

def atomText (id : Nat) : String :=
  s!"Atom({id})"

end Interner

end SourceCheck
