import DocSite.Json.Basic

namespace DocSite.Notebook

structure Block where
  code : String
  output : Option String
  explanation : String
  deriving Repr

structure Recipe where
  title : String
  explanation : List String
  blocks : List Block
  deriving Repr

structure Snippet where
  code : String
  context : String
  output : Option String
  deriving Repr

structure Digest where
  path : String
  title : String
  description : String
  patterns : List Recipe
  concepts : List String
  snippets : List Snippet
  deriving Repr

structure Collection where
  generated : String
  notebooks : List Digest
  deriving Repr

def Block.json (b : Block) : Json :=
  .obj [("code", .str b.code), ("output", .ofText? b.output), ("explanation", .str b.explanation)]

def Recipe.json (p : Recipe) : Json :=
  .obj [("title", .str p.title), ("explanation", .ofTexts p.explanation),
    ("code_blocks", .arr (p.blocks.map Block.json))]

def Snippet.json (s : Snippet) : Json :=
  .obj [("code", .str s.code), ("context", .str s.context), ("output", .ofText? s.output)]

def Digest.json (d : Digest) : Json :=
  .obj [("notebook", .str d.path), ("title", .str d.title), ("description", .str d.description),
    ("developer_patterns", .arr (d.patterns.map Recipe.json)),
    ("key_concepts", .ofTexts d.concepts), ("code_snippets", .arr (d.snippets.map Snippet.json))]

def Collection.json (c : Collection) : Json :=
  .obj [("generated", .str c.generated), ("notebooks", .arr (c.notebooks.map Digest.json))]

def numbered {α : Type} (xs : List α) : List (Nat × α) := (xs.zipIdx 1).map fun (x, i) => (i, x)

def notebookAddress : String := "https://github.com/pixeltable/pixeltable/blob/main/docs/notebooks"

def Block.step (position : Nat) (b : Block) : Json :=
  .obj [("@type", .str "HowToStep"), ("position", .int position), ("text", .str b.explanation),
    ("codeSample", .obj [("@type", .str "SoftwareSourceCode"),
      ("programmingLanguage", .str "Python"), ("text", .str b.code)])]

def Recipe.guide (p : Recipe) : Json :=
  .obj [("@type", .str "HowTo"), ("name", .str p.title),
    ("description", .str (" ".intercalate (p.explanation.take 2))),
    ("step", .arr ((numbered p.blocks).map fun (i, b) => b.step i))]

def Digest.dataset (position : Nat) (d : Digest) : Json :=
  .obj [("@type", .str "Dataset"), ("@id", .str ("pxt:pattern/" ++ toString position)),
    ("name", .str d.title), ("description", .str d.description),
    ("url", .str (notebookAddress ++ "/" ++ d.path)), ("keywords", .ofTexts d.concepts),
    ("hasPart", .arr (d.patterns.map Recipe.guide))]

def Collection.catalog (c : Collection) : Json :=
  .obj [
    ("@context", .obj [("@vocab", .str "https://schema.org/"),
      ("pxt", .str "https://pixeltable.com/ontology#"), ("patterns", .str "pxt:developerPatterns"),
      ("concepts", .str "pxt:keyConcepts")]),
    ("@type", .str "DataCatalog"), ("name", .str "Pixeltable Developer Patterns"),
    ("description", .str "Curated examples demonstrating Pixeltable capabilities"),
    ("dateModified", .str c.generated),
    ("dataset", .arr ((numbered c.notebooks).map fun (i, d) => d.dataset i))]

end DocSite.Notebook
