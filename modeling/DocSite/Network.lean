import DocSite.Json.Reader

namespace DocSite

/-- What an address answers: a reason not to, or a text with the header that links to further
pages. -/
inductive Response
  | failing (reason : String)
  | page (text : String) (link : String)
  deriving DecidableEq, Repr

abbrev Network := OrderedMap Response

namespace Network

def visit (n : Network) (address : String) : Except Fault (String × String) :=
  match n.get? address with
  | some (.page text link) => .ok (text, link)
  | some (.failing reason) => .error (.unreachable reason)
  | none => .error (.unreachable ("no response for " ++ address))

def load (n : Network) (address : String) : Except Fault (Json × String) := do
  let (text, link) ← n.visit address
  return (← Json.parse text, link)

end Network

end DocSite
