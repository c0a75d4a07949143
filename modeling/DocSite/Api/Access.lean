import DocSite.Api.Object

namespace DocSite.Api

def inheritedDoc? (name : String) : List (Layer Entity) → Option String
  | [] => none
  | layer :: layers =>
    match OrderedMap.get? name layer.members with
    | some (.func { doc? := some d, .. }) => some d
    | some (.udf { doc? := some d, .. }) => some d
    | some (.property (some d) _) => some d
    | some (.cached (some d)) => some d
    | _ => inheritedDoc? name layers

/-- The member of a class under a name. A method without a text takes that of the method it
replaces. -/
def member? (name : String) : List (Layer Entity) → Option Entity
  | [] => none
  | layer :: layers =>
    match OrderedMap.get? name layer.members with
    | some (.func f) => some (.func { f with doc? := f.doc?.or (inheritedDoc? name layers) })
    | some e => some e
    | none => member? name layers

def isReadable (name : String) (layers : List (Layer Entity)) : Bool :=
  match member? name layers with
  | none | some .raising => false
  | some _ => true

def sortedNames (names : List String) : List String :=
  (names.mergeSort fun a b => a ≤ b).eraseDups

def memberNames (layers : List (Layer Entity)) : List String :=
  sortedNames (layers.flatMap fun l => OrderedMap.keys l.members)

def Func.prototype (f : Func) : Except Fault Prototype :=
  if f.hidden then .error (.wrongKind "no signature")
  else if f.binding = .ofClass then f.proto.bound
  else .ok f.proto

def Udf.prototype (u : Udf) : Except Fault Prototype :=
  if u.hidden then .error (.wrongKind "no signature")
  else
    match u.wrapped? with
    | some f => f.prototype
    | none => .ok .anything

def Field.parameter (f : Field) : Parameter :=
  ⟨f.name, .standard, f.type?, if f.hasFactory then some (.mark "<factory>") else f.default?⟩

def classPrototype (info : ClassInfo) (layers : List (Layer Entity)) : Except Fault Prototype :=
  match member? "__init__" layers with
  | some (.func f) => f.prototype >>= Prototype.bound
  | some (.udf u) => u.prototype >>= Prototype.bound
  | some _ => .error (.wrongKind "not callable")
  | none =>
    match info.style with
    | .plain => .ok ⟨[], none⟩
    | .record => .ok ⟨info.fields.map Field.parameter, some .none⟩
    | .tuple => .ok ⟨info.fields.map Field.parameter, none⟩
    | .keyed => .error (.badValue "no signature")

namespace Entity

def prototype : Entity → Except Fault Prototype
  | .func f => f.prototype
  | .udf u => u.prototype
  | .cls info layers => classPrototype info layers
  | _ => .error (.wrongKind "not callable")

def isClass : Entity → Bool
  | .cls _ _ => true
  | _ => false

def isFunction : Entity → Bool
  | .func f => f.binding ≠ .ofClass
  | _ => false

def isMethod : Entity → Bool
  | .func _ => true
  | _ => false

def isModule : Entity → Bool
  | .module _ => true
  | _ => false

def isColumnFunction : Entity → Bool
  | .udf u => Text.contains "CallableFunction".toList u.className.toList
  | _ => false

def isCallable : Entity → Bool
  | .func _ | .udf _ | .cls _ _ => true
  | _ => false

def home? : Entity → Option String
  | .func f => f.module?
  | .udf u => u.module?
  | .cls info _ => info.module?
  | _ => none

/-- The documentation of an object as it is written. A constant has that of its kind. -/
def rawDoc? : Entity → Option String
  | .func f => f.doc?
  | .udf u => u.doc?
  | .cls _ layers => layers.findSome? (·.doc?)
  | .property d? _ => d?
  | .cached d? => d?
  | .value .none => none
  | .value v => some v.kind
  | .module _ | .raising | .broken => none

def doc? (e : Entity) : Option String := cleanDoc? e.rawDoc?

end Entity

/-- What every class has from the class of all objects and the class of all classes. What cannot be
called is shown by a value of its kind. -/
def inherent : List (String × Entity) :=
  let method (proto? : Option Prototype) (doc name : String) : String × Entity :=
    (name, .func ⟨name, some doc, proto?.getD .anything, none, .plain, proto?.isNone, .absent⟩)
  let taking (names : List String) : Option Prototype :=
    some ⟨names.map fun n => ⟨n, .positional, none, none⟩, none⟩
  let data (v : Literal) (name : String) : String × Entity := (name, .value v)
  [data (.dict []) "__annotations__",
    method (taking []) ("The base class of the class hierarchy.\n\nWhen called, it accepts no " ++
      "arguments and returns a new featureless\ninstance that has no instance attributes and " ++
      "cannot be given any.\n") "__base__",
    data (.tuple []) "__bases__", data (.int 0) "__basicsize__",
    method (some .anything) "Call self as a function." "__call__",
    method none "type(object) -> the object's type\ntype(name, bases, dict, **kwds) -> a new type"
      "__class__",
    method (taking ["self", "name"]) "Implement delattr(self, name)." "__delattr__",
    data .none "__dict__", data (.int 0) "__dictoffset__",
    method (taking ["self"]) "Default dir() implementation." "__dir__",
    data .none "__doc__",
    method (taking ["self", "value"]) "Return self==value." "__eq__",
    data (.int 0) "__flags__",
    method (taking ["self", "format_spec"]) "Default object formatter." "__format__",
    method (taking ["self", "value"]) "Return self>=value." "__ge__",
    method (taking ["self", "name"]) "Return getattr(self, name)." "__getattribute__",
    method (taking ["self"]) "Helper for pickle." "__getstate__",
    method (taking ["self", "value"]) "Return self>value." "__gt__",
    method (taking ["self"]) "Return hash(self)." "__hash__",
    method (some ⟨[⟨"self", .positional, none, none⟩, ⟨"args", .rest, none, none⟩,
      ⟨"kwargs", .restKeyword, none, none⟩], none⟩)
      "Initialize self.  See help(type(self)) for accurate signature." "__init__",
    method none ("This method is called when a class is subclassed.\n\nThe default " ++
      "implementation does nothing. It may be\noverridden to extend subclasses.\n")
      "__init_subclass__",
    method (taking ["instance"]) "Check if an object is an instance." "__instancecheck__",
    data (.int 0) "__itemsize__",
    method (taking ["self", "value"]) "Return self<=value." "__le__",
    method (taking ["self", "value"]) "Return self<value." "__lt__",
    data (.str "") "__module__", data (.tuple []) "__mro__", data (.str "") "__name__",
    method (taking ["self", "value"]) "Return self!=value." "__ne__",
    method (some .anything)
      "Create and return a new object.  See help(type) for accurate signature." "__new__",
    method (taking ["value"]) "Return self|value." "__or__",
    method none "__prepare__() -> dict\nused to create the namespace for the class statement"
      "__prepare__",
    data (.str "") "__qualname__",
    method (taking ["self"]) "Helper for pickle." "__reduce__",
    method (taking ["self", "protocol"]) "Helper for pickle." "__reduce_ex__",
    method (taking ["self"]) "Return repr(self)." "__repr__",
    method (taking ["value"]) "Return value|self." "__ror__",
    method (taking ["self", "name", "value"]) "Implement setattr(self, name, value)." "__setattr__",
    method (taking ["self"]) "Size of object in memory, in bytes." "__sizeof__",
    method (taking ["self"]) "Return str(self)." "__str__",
    method (taking ["subclass"]) "Check if a class is a subclass." "__subclasscheck__",
    method (taking []) "Return a list of immediate subclasses." "__subclasses__",
    method none ("Abstract classes can override this to customize issubclass().\n\nThis is " ++
      "invoked early on by abc.ABCMeta.__subclasscheck__().\nIt should return True, False or " ++
      "NotImplemented.  If it returns\nNotImplemented, the normal algorithm is used.  " ++
      "Otherwise, it\noverrides the normal algorithm (and the outcome is cached).\n")
      "__subclasshook__",
    data .none "__text_signature__",
    ("__weakref__", .property (some "list of weak references to the object") none),
    data (.int 0) "__weakrefoffset__",
    method (taking []) "Return a type's method resolution order." "mro"]

def isInherent (name : String) : Bool := OrderedMap.has name inherent

end DocSite.Api
