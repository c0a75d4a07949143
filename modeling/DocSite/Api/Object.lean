import DocSite.Api.Docstring
import DocSite.Api.Prototype
import DocSite.OrderedMap

namespace DocSite.Api

inductive SourceFile
  | at (path : String)
  | unknown
  | refused
  deriving DecidableEq, Repr

structure Source where
  text? : Option String
  file : SourceFile
  line? : Option Int
  lineCount : Nat
  deriving DecidableEq, Repr

def Source.absent : Source := ⟨none, .refused, none, 1⟩

inductive Binding
  | plain
  | ofClass
  | static
  deriving DecidableEq, Repr

structure Func where
  name : String
  doc? : Option String
  proto : Prototype
  module? : Option String
  binding : Binding
  hidden : Bool
  source : Source
  deriving Repr

structure ColumnParam where
  name : String
  type? : Option String
  default? : Option Literal
  deriving Repr

structure Form where
  text : String
  params? : Option (List ColumnParam)
  deriving Repr

/-- A function over columns, an object that can be called. What it does not tell is `none`. -/
structure Udf where
  className : String
  doc? : Option String
  module? : Option String
  isPolymorphic? : Option Bool
  signature? : Option String
  sig? : Option String
  forms? : Option (List Form)
  function? : Option Func
  functions? : Option (List Func)
  wrapped? : Option Func
  hidden : Bool
  deriving Repr

structure Field where
  name : String
  type? : Option TypeNote
  default? : Option Literal
  /-- Whether a default is made anew for each object. -/
  hasFactory : Bool
  metadata : List (String × Literal)
  required? : Option Bool
  deriving Repr

inductive Style
  | plain
  | record
  | tuple
  | keyed
  deriving DecidableEq, Repr

structure DocumentedField where
  name : String
  type? : Option String
  doc? : Option String
  deriving DecidableEq, Repr

structure ClassInfo where
  name : String
  module? : Option String
  source : Source
  annotations : OrderedMap TypeNote
  style : Style
  fields : List Field
  documented : List DocumentedField
  deriving Repr

structure Layer (α : Type) where
  doc? : Option String
  members : List (String × α)

/-- An object of a package, as a table of what can be seen of it. Looking at it runs nothing and
fails only in the ways that are told here: a signature that is `hidden`, a source that is not there,
an attribute that is `raising`, and an object that is `broken`. -/
inductive Entity
  | func (f : Func)
  | udf (u : Udf)
  /-- A class, its own layer before those of the classes it is derived from. -/
  | cls (info : ClassInfo) (layers : List (Layer Entity))
  | property (doc? : Option String) (returns? : Option TypeNote)
  | cached (doc? : Option String)
  /-- An attribute that is listed but cannot be read. -/
  | raising
  | value (v : Literal)
  | module (name : String)
  | broken

instance : Inhabited Entity := ⟨.broken⟩

end DocSite.Api
