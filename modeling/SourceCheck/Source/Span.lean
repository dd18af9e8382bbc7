/-!
# Source positions

From the byte `start` up to the byte `stop` of a file, with the line and column of the start. These count from one,
columns in bytes; a span that was not read from a file has zeros.
-/

namespace SourceCheck

structure Span where
  file : Nat := 0
  start : Nat := 0
  stop : Nat := 0
  line : Nat := 0
  col : Nat := 0
deriving DecidableEq, Repr, Inhabited

namespace Span

/-- The smallest span of both, with the file of the first and the position of the one that starts first. -/
def merge (a b : Span) : Span :=
  let first := if b.start < a.start then b else a
  { file := a.file, start := first.start, stop := max a.stop b.stop, line := first.line,
    col := first.col }

def length (s : Span) : Nat :=
  s.stop - s.start

def isEmpty (s : Span) : Bool :=
  s.stop ≤ s.start

def key (s : Span) : Nat × Nat :=
  (s.start, s.stop)

end Span

structure Spanned (α : Type) where
  node : α
  span : Span
deriving DecidableEq, Repr, Inhabited

abbrev Name := Spanned String

/-! ### Tables keyed by places: the newest entry counts -/

abbrev SpanTable (α : Type) := List ((Nat × Nat) × α)

namespace SpanTable

variable {α : Type}

def get? (t : SpanTable α) (span : Span) : Option α :=
  t.lookup span.key

def set (t : SpanTable α) (span : Span) (a : α) : SpanTable α :=
  (span.key, a) :: t

def keyLe (a b : Nat × Nat) : Bool :=
  a.1 < b.1 || a.1 = b.1 && a.2 ≤ b.2

def firstOfEach : SpanTable α → SpanTable α
  | [] => []
  | entry :: rest =>
    entry :: match firstOfEach rest with
      | [] => []
      | next :: more => if next.1 = entry.1 then more else next :: more

def entries (t : SpanTable α) : SpanTable α :=
  firstOfEach (t.mergeSort fun a b => keyLe a.1 b.1)

end SpanTable

end SourceCheck
