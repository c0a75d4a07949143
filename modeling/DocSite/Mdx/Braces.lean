namespace DocSite.Mdx

/-- What a scan knows of code: whether it is between fences, and whether it is between single
backquotes. Both can hold at once, since a fence counts inside inline code too. -/
structure CodeState where
  fence : Bool
  inline : Bool
  deriving DecidableEq, Repr

def CodeState.start : CodeState := ⟨false, false⟩

def CodeState.isProse (s : CodeState) : Bool := !s.fence && !s.inline

inductive Role
  | mark
  | code
  | prose
  deriving DecidableEq, Repr

def classifyFrom (s : CodeState) : List Char → List (Role × Char)
  | '\x60' :: '\x60' :: '\x60' :: cs =>
    (.mark, '\x60') :: (.mark, '\x60') :: (.mark, '\x60') ::
      classifyFrom { s with fence := !s.fence } cs
  | c :: cs =>
    if c = '\x60' && !s.fence then (.mark, c) :: classifyFrom { s with inline := !s.inline } cs
    else (if s.isProse then .prose else .code, c) :: classifyFrom s cs
  | [] => []

def classify (cs : List Char) : List (Role × Char) := classifyFrom .start cs

def isBrace (c : Char) : Bool := c = '\x7b' || c = '\x7d'

def writeBrace : Role × Char → List Char
  | (.prose, c) => if isBrace c then ['\\', c] else [c]
  | (_, c) => [c]

def escapeBraces (cs : List Char) : List Char := (classify cs).flatMap writeBrace

end DocSite.Mdx
