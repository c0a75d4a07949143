import DocSite.OrderedMap

namespace DocSite.Xml

/-- An element of a document. A name in a namespace begins with the namespace between braces; the
text between elements is not kept. -/
inductive Element
  | node (name : String) (attributes : OrderedMap String) (children : List Element)

namespace Element

def name : Element → String
  | .node n _ _ => n

def get? (e : Element) (key : String) : Option String :=
  match e with
  | .node _ attributes _ => attributes.get? key

def children : Element → List Element
  | .node _ _ cs => cs

mutual

def descendants : Element → List Element
  | .node n a cs => .node n a cs :: descendantsOfAll cs

def descendantsOfAll : List Element → List Element
  | [] => []
  | e :: es => descendants e ++ descendantsOfAll es

end

end Element

end DocSite.Xml
