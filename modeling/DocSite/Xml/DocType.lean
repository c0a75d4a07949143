import DocSite.Xml.Token

namespace DocSite.Xml

inductive Entity
  | text (cs : List Char)
  | elsewhere
  | foreign

structure Rule where
  name : List Char
  /-- Whether any text may be its value; if not, blanks only divide the words of it. -/
  isFree : Bool
  /-- The value of an attribute that is not written. -/
  default? : Option (List Char)

structure DocType where
  entities : List (List Char × Entity)
  /-- The rules for attributes, each with the name of the element. -/
  rules : List (List Char × Rule)
  /-- The document says that nothing elsewhere bears on it. -/
  isAlone : Bool
  hasMore : Bool
  /-- Whether declarations still count. They do not after a reference to ones that are not read. -/
  isKept : Bool
  /-- The most text that references may bring in, in bytes. -/
  allowance : Nat

def DocType.start (isAlone : Bool) (allowance : Nat) : DocType :=
  ⟨[], [], isAlone, false, true, allowance⟩

/-- Whether an entity that is not declared here is declared nowhere. -/
def DocType.isComplete (d : DocType) : Bool := !d.hasMore || d.isAlone

def DocType.entity? (d : DocType) (name : List Char) : Option Entity :=
  (d.entities.find? (·.1 = name)).map Prod.snd

def DocType.rulesOf (d : DocType) (element : List Char) : List Rule :=
  (d.rules.filter (·.1 = element)).map Prod.snd

def isFreeIn (rules : List Rule) (name : List Char) : Bool :=
  ((rules.find? (·.name = name)).map Rule.isFree).getD true

def withDefaults (rules : List Rule) (attributes : List (List Char × List Char)) :
    List (List Char × List Char) :=
  attributes ++ rules.filterMap fun r =>
    if attributes.any (·.1 = r.name) then none else r.default?.map fun v => (r.name, v)

def DocType.addEntity (d : DocType) (name : List Char) (e : Entity) : DocType :=
  if !d.isKept || (namedChar? name).isSome || (d.entity? name).isSome then d
  else { d with entities := d.entities ++ [(name, e)] }

/-- Declares an attribute. A value or the mark of the element is only taken from the first
declaration. -/
def DocType.addRule (d : DocType) (element : List Char) (isMark : Bool) (r : Rule) : DocType :=
  let known := (d.rulesOf element).any (·.name = r.name)
  if !d.isKept || (known && (isMark || r.default?.isSome)) then d
  else { d with rules := d.rules ++ [(element, r)] }

def DocType.pass (d : DocType) : DocType := { d with hasMore := true, isKept := d.isAlone }

end DocSite.Xml
