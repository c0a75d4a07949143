import DocSite.Api.Prototype
import DocSite.OrderedMap

namespace DocSite.Section

open Text Api

def arrow : List Char := "->".toList

def cutResult (sig : List Char) : List Char × List Char :=
  match cutAtLast? arrow sig with
  | some (before, after) => (strip before, arrow ++ after)
  | none => (sig, [])

def readTyped (cs : List Char) : List Char × Option (List Char) :=
  match cutAt? [':'] cs with
  | some (name, type) => (strip name, some (strip type))
  | none => (cs, none)

def typesIn (params : List Char) : OrderedMap (Option (List Char)) :=
  let pieces := ((splitChar ',' params).map strip).filter fun p => !p.isEmpty && p ≠ ['*']
  .ofEntries (pieces.map fun p =>
    let (name, type?) := readTyped p
    (String.ofList name, type?))

def withDefault (p : Parameter) (type? : Option (List Char)) : List Char :=
  p.name.toList ++
    (match type? with
     | some t => if t.isEmpty then [] else ':' :: ' ' :: t
     | none => []) ++
    (match p.default? with
     | some d => " = ".toList ++ d.code
     | none => [])

/-- The parameters that a signature text names, with their defaults and with a star before the
first one taken by name only. -/
def mergeParams (types : OrderedMap (Option (List Char))) (starred : Bool) :
    List Parameter → List (List Char)
  | [] => []
  | p :: ps =>
    match types.get? p.name with
    | none => mergeParams types starred ps
    | some type? =>
      if p.kind = .keyword && !starred then
        ['*'] :: withDefault p type? :: mergeParams types true ps
      else withDefault p type? :: mergeParams types starred ps

def joinResult (sig result : List Char) : List Char :=
  if result.isEmpty then sig else sig ++ ' ' :: result

/-- A signature text with the defaults of the prototype written into it. A text whose parameter
list cannot be found before its arrow loses what follows the arrow. -/
def injectDefaults (proto : Prototype) (sig : List Char) : List Char :=
  if !sig.contains '(' || !sig.contains ')' then sig
  else
    let (head, result) := cutResult sig
    match cutAt? ['('] head, cutAtLast? [')'] head with
    | some (name, _), some (before, _) =>
      let params := strip ((head.take before.length).drop (name.length + 1))
      if params.isEmpty then joinResult head result
      else
        let merged := mergeParams (typesIn params) false proto.params
        let shown := if merged.isEmpty then params else ", ".toList.intercalate merged
        joinResult ('(' :: shown ++ [')']) result
    | _, _ => head

end DocSite.Section
