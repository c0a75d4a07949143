import DocSite.Text.Case
import DocSite.Text.Search

namespace DocSite.Llm

open Text

def moduleCategories : List (String × String) :=
  [("functions.image", "image_processing"), ("functions.video", "video_processing"),
    ("functions.audio", "audio_processing"), ("integrations", "external_integration")]

def leadCategories : List (String × String) :=
  [("create_", "initialization"), ("init_", "initialization"), ("get_", "retrieval"),
    ("fetch_", "retrieval"), ("update_", "modification"), ("set_", "modification"),
    ("delete_", "deletion"), ("drop_", "deletion"), ("validate_", "validation"),
    ("check_", "validation"), ("convert_", "transformation"), ("to_", "transformation")]

def wordCategories : List (String × String) :=
  [("query", "query"), ("select", "query"), ("insert", "data_ingestion"),
    ("add", "data_ingestion")]

def category (name module : String) : String :=
  let n := lower name.toList
  let m := module.toList
  let found :=
    (moduleCategories.find? fun (part, _) => contains part.toList m) <|>
    (leadCategories.find? fun (lead, _) => startsWith lead.toList n) <|>
    (wordCategories.find? fun (word, _) => contains word.toList n)
  (found.map Prod.snd).getD "utility"

def wrapParams (params : List String) : String :=
  if params.isEmpty then "()"
  else "(\n    " ++ ",\n    ".intercalate params ++ "\n)"

end DocSite.Llm
