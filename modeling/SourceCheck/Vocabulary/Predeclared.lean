import SourceCheck.Vocabulary.Primitive

/-!
# Predeclared functions

A module may declare its own entity of the same name, which then hides the predeclared one.
-/

namespace SourceCheck

inductive Predeclared where
  | log
  | range
  | panic
  | exit
  | args
  | len
  | infinite
deriving DecidableEq, Repr

namespace Predeclared

inductive Shape where
  | primitive (p : Primitive)
  | sliceOf (p : Primitive)
  | anySlice
  | infiniteIterator
deriving DecidableEq, Repr

structure Signature where
  params : List (String × Shape)
  returns : Shape

def all : List Predeclared :=
  [.log, .range, .panic, .exit, .args, .len, .infinite]

def spelling : Predeclared → String
  | .log => "log"
  | .range => "range"
  | .panic => "panic"
  | .exit => "exit"
  | .args => "args"
  | .len => "len"
  | .infinite => "infinite"

/-- No two signatures of one function take the same number of arguments. -/
def signatures : Predeclared → List Signature
  | .log => [⟨[("message", .primitive .string)], .primitive .void⟩]
  | .range =>
    [⟨[("end", .primitive .i32)], .sliceOf .i32⟩,
     ⟨[("start", .primitive .i32), ("end", .primitive .i32)], .sliceOf .i32⟩]
  | .panic => [⟨[("message", .primitive .string)], .primitive .never⟩]
  | .exit => [⟨[("status", .primitive .i32)], .primitive .never⟩]
  | .args => [⟨[], .sliceOf .string⟩]
  | .len => [⟨[("slice", .anySlice)], .primitive .usize⟩]
  | .infinite => [⟨[], .infiniteIterator⟩]

def description : Predeclared → String
  | .log => "Write a message to the runtime log."
  | .range => "Produce the integers of a half-open interval."
  | .panic => "Abort the program with a message."
  | .exit => "Terminate the program with a status code."
  | .args => "Command-line arguments of the running program."
  | .len => "Number of elements in a slice or fixed array."
  | .infinite => "An endless iterator for `for` loops."

def ofText? (text : String) : Option Predeclared :=
  all.find? (·.spelling = text)

end Predeclared

end SourceCheck
