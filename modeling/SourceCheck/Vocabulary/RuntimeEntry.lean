/-!
# Runtime entry points

The functions of the runtime library that compiled modules call.
-/

namespace SourceCheck

inductive RuntimeEntry where
  | alloc
  | free
  | gcRegisterRoot
  | gcUnregisterRoot
  | panic
  | log
  | stringCreate
  | stringFree
deriving DecidableEq, Repr

namespace RuntimeEntry

def all : List RuntimeEntry :=
  [.alloc, .free, .gcRegisterRoot, .gcUnregisterRoot, .panic, .log, .stringCreate, .stringFree]

def symbol : RuntimeEntry → String
  | .alloc => "asthra_alloc"
  | .free => "asthra_free"
  | .gcRegisterRoot => "asthra_gc_register_root"
  | .gcUnregisterRoot => "asthra_gc_unregister_root"
  | .panic => "asthra_panic"
  | .log => "asthra_log"
  | .stringCreate => "asthra_string_create"
  | .stringFree => "asthra_string_free"

def purpose : RuntimeEntry → String
  | .alloc => "allocate memory in a region"
  | .free => "release manually managed memory"
  | .gcRegisterRoot => "pin a GC-managed value as a root"
  | .gcUnregisterRoot => "release a GC root"
  | .panic => "abort with a message"
  | .log => "write a log message"
  | .stringCreate => "materialise a string literal"
  | .stringFree => "release a runtime string"

def ofSymbol? (text : String) : Option RuntimeEntry :=
  all.find? (·.symbol = text)

end RuntimeEntry

end SourceCheck
