import DocSite.Json.Writer
import DocSite.Notebook.Catalog
import DocSite.Path
import DocSite.Text.Case
import DocSite.Text.Search

namespace DocSite.Notebook

open Text

def conceptWords : List (String × List String) :=
  [("computed column", ["add_computed_column", "computed", "automatic"]),
    ("embedding", ["embedding", "vector", "similarity"]),
    ("incremental", ["incremental", "recompute", "update"]),
    ("iterator", ["iterator", "frame", "chunk", "split"]),
    ("multimodal", ["image", "video", "audio", "document"]),
    ("tool calling", ["tool", "invoke_tools", "agent"]),
    ("udf", ["@pxt.udf", "user-defined function", "custom function"])]

def concepts (v : Json) : List String :=
  let text := lower v.compact.toList
  (conceptWords.filter fun (_, ws) => ws.any fun w => contains w.toList text).map Prod.fst

def conceptCounts (c : Collection) : List (String × Nat) :=
  let counted : OrderedMap Nat := (c.notebooks.flatMap Digest.concepts).foldl
    (fun m concept => m.set concept ((m.get? concept).getD 0 + 1)) []
  counted.mergeSort fun a b => b.2 ≤ a.2

def Digest.category (d : Digest) : String := (Path.ofString d.path).parent.name

def categoryTitle (category : String) : String :=
  match category with
  | "" => "Getting Started"
  | "feature-guides" => "Core Features"
  | "fundamentals" => "Fundamentals"
  | "integrations" => "AI Model Integrations"
  | "use-cases" => "Real-World Applications"
  | other => Text.onChars Text.title other

def byCategory (c : Collection) : List (String × List Digest) :=
  let grouped : OrderedMap (List Digest) := c.notebooks.foldl
    (fun m d => m.set d.category ((m.get? d.category).getD [] ++ [d])) []
  grouped.mergeSort fun a b => a.1 ≤ b.1

end DocSite.Notebook
