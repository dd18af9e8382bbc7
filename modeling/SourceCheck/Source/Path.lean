/-!
# File paths

Empty parts and single points count for nothing, except a point at the very start. Paths are compared by the parts
that count; the text is kept as written.
-/

namespace SourceCheck

/-- The pieces of a text between separators, at least one. -/
def segmentsOf (sep : Char) : List Char → List (List Char)
  | [] => [[]]
  | c :: cs =>
    if c = sep then [] :: segmentsOf sep cs
    else
      match segmentsOf sep cs with
      | s :: ss => (c :: s) :: ss
      | [] => [[c]]

def segments (sep : Char) (text : String) : List String :=
  (segmentsOf sep text.toList).map String.ofList

def behindFirst (needle : List Char) : List Char → Option (List Char)
  | [] => if needle.isEmpty then some [] else none
  | c :: cs =>
    if needle.isPrefixOf (c :: cs) then some ((c :: cs).drop needle.length)
    else behindFirst needle cs

/-- What follows the first place where `needle` stands in `text`. -/
def textBehind? (needle text : String) : Option String :=
  (behindFirst needle.toList text.toList).map String.ofList

def withoutEnding (ending text : String) : String :=
  if ending.toList.isSuffixOf text.toList then
    String.ofList (text.toList.take (text.toList.length - ending.toList.length))
  else text

/-! ### Paths -/

inductive PathLead where
  | root
  | current
  | relative
deriving DecidableEq, Repr

/-- How a path starts, and the texts between the slashes behind that. -/
structure FilePath where
  lead : PathLead
  parts : List String
deriving DecidableEq, Repr

inductive PathComponent where
  | root
  | current
  | parent
  | normal (name : String)
deriving DecidableEq, Repr

namespace PathComponent

def text : PathComponent → String
  | .root => "/"
  | .current => "."
  | .parent => ".."
  | .normal name => name

end PathComponent

namespace FilePath

def ofText (text : String) : FilePath :=
  match text.toList with
  | '/' :: rest => ⟨.root, segments '/' (String.ofList rest)⟩
  | ['.'] => ⟨.current, [""]⟩
  | '.' :: '/' :: rest => ⟨.current, segments '/' (String.ofList ('/' :: rest))⟩
  | _ => ⟨.relative, segments '/' text⟩

def text (p : FilePath) : String :=
  let body := "/".intercalate p.parts
  match p.lead with
  | .root => "/" ++ body
  | .current => "." ++ body
  | .relative => body

def isIdle (part : String) : Bool :=
  part = "" || part = "."

def bodyComponents (p : FilePath) : List PathComponent :=
  (p.parts.filter fun part => !isIdle part).map fun part =>
    if part = ".." then .parent else .normal part

def components (p : FilePath) : List PathComponent :=
  match p.lead with
  | .root => .root :: p.bodyComponents
  | .current => .current :: p.bodyComponents
  | .relative => p.bodyComponents

def ofComponents : List PathComponent → FilePath
  | .root :: cs => ⟨.root, cs.map (·.text)⟩
  | .current :: cs => ⟨.current, "" :: cs.map (·.text)⟩
  | cs => ⟨.relative, cs.map (·.text)⟩

def trimParts (parts : List String) : List String :=
  (parts.reverse.dropWhile isIdle).reverse

def parent? (p : FilePath) : Option FilePath :=
  match (trimParts p.parts).reverse with
  | _ :: before => some { p with parts := trimParts before.reverse }
  | [] =>
    match p.lead with
    | .current => some ⟨.relative, []⟩
    | .root | .relative => none

def isBelow (p root : FilePath) : Bool :=
  root.components.isPrefixOf p.components

def below? (root p : FilePath) : Option FilePath :=
  if p.isBelow root then some (ofComponents (p.components.drop root.components.length)) else none

/-- A file name before and behind its last point. A point at the start divides nothing. -/
def splitExtension (name : String) : String × Option String :=
  match (segments '.' name).reverse with
  | last :: s :: ss =>
    let stem := ".".intercalate (s :: ss).reverse
    if stem = "" then (name, none) else (stem, some last)
  | _ => (name, none)

/-- Apply `f` to the file name and drop what follows it. A path that ends with a step up or has no parts stays. -/
def mapFileName (p : FilePath) (f : String → String) : FilePath :=
  match (trimParts p.parts).reverse with
  | last :: before =>
    if last = ".." then p else ofText (text { p with parts := (f last :: before).reverse })
  | [] => p

def cutExtension (p : FilePath) : FilePath :=
  if trimParts p.parts = p.parts then
    p.mapFileName fun name =>
      match splitExtension name with
      | (stem, some _) => stem ++ "."
      | (_, none) => name
  else p

/-- First the letters of the extension are cut off, then the name ends before its last point. -/
def withoutExtension (p : FilePath) : FilePath :=
  p.cutExtension.mapFileName fun name => (splitExtension name).1

def depth (p : FilePath) : Nat :=
  p.parts.length + if p.lead = .current then 1 else 0

theorem length_trimParts_le (parts : List String) : (trimParts parts).length ≤ parts.length := by
  simpa [trimParts] using (List.dropWhile_sublist isIdle (l := parts.reverse)).length_le

theorem depth_parent?_lt {p q : FilePath} (h : p.parent? = some q) : q.depth < p.depth := by
  unfold parent? at h
  split at h
  · rename_i last before hp
    cases h
    have hlen := congrArg List.length hp
    have h₁ := length_trimParts_le p.parts
    have h₂ := length_trimParts_le before.reverse
    simp only [List.length_reverse, List.length_cons] at hlen h₂
    simp only [depth]
    omega
  · split at h
    · rename_i hl
      cases h
      simp [depth, hl]
    · cases h
    · cases h

def ancestors (p : FilePath) : List FilePath :=
  match _h : p.parent? with
  | some up => p :: up.ancestors
  | none => [p]
termination_by p.depth
decreasing_by exact depth_parent?_lt ‹_›

/-- The deepest directory at or above `root` that holds `p`, or the empty path. -/
def narrow (root p : FilePath) : FilePath :=
  (root.ancestors.find? fun up => p.isBelow up).getD ⟨.relative, []⟩

def commonRoot (paths : List FilePath) : FilePath :=
  match paths.filterMap parent? with
  | [] => ofText "."
  | first :: rest => rest.foldl narrow first

end FilePath

end SourceCheck
