import DocSite.Text.Case
import DocSite.Text.Search

namespace DocSite.Page

open Text

def kebabFrom (first : Bool) : List Char → List Char
  | [] => []
  | c :: cs =>
    (if isCapital c && !first then ['-'] else []) ++ lowerChar [] c [] ++ kebabFrom false cs

def kebab (s : String) : String := onChars (kebabFrom true) s

def lowerText (s : String) : String := onChars lower s

def createTable (table : String) (columns : List (String × String)) : String :=
  let row := fun ((name, kind) : String × String) => "    '" ++ name ++ "': pxt." ++ kind
  "```python\nimport pixeltable as pxt\n\ntable = pxt.create_table('" ++ table ++ "', \x7b\n" ++
    ",\n".intercalate (columns.map row) ++ "\n\x7d)\n"

def insertRow (remark : String) (values : List (String × String)) : String :=
  let row := fun ((name, value) : String × String) => "    '" ++ name ++ "': " ++ value
  "\n# " ++ remark ++ "\ntable.insert(\x7b\n" ++ ",\n".intercalate (values.map row) ++ "\n\x7d)\n"

def usageLead (article name : String) : String :=
  "Create a table with " ++ article ++ " `" ++ name ++ "` column:\n\n"

def usageExample (name : String) : String :=
  if name = "Image" then
    usageLead "an" name ++ createTable "images" [("img", "Image"), ("caption", "String")] ++
      insertRow "Insert images from files or URLs"
        [("img", "'/path/to/image.jpg'"), ("caption", "'A sample image'")] ++ "```\n"
  else if name = "Video" then
    usageLead "a" name ++ createTable "videos" [("video", "Video"), ("title", "String")] ++
      insertRow "Insert videos from files or URLs"
        [("video", "'/path/to/video.mp4'"), ("title", "'A sample video'")] ++ "```\n"
  else if name = "Audio" then
    usageLead "an" name ++
      createTable "audio_files" [("audio", "Audio"), ("transcript", "String")] ++ "```\n"
  else if name = "Document" then
    usageLead "a" name ++ createTable "documents" [("doc", "Document"), ("summary", "String")] ++
      insertRow "Documents can be PDF, HTML, Markdown, etc."
        [("doc", "'/path/to/document.pdf'"), ("summary", "'Document summary'")] ++ "```\n"
  else if name = "Array" then
    usageLead "an" name ++
      createTable "embeddings" [("text", "String"), ("embedding", "Array[(768,), pxt.Float]")] ++
      "```\n"
  else if name = "Json" then
    usageLead "a" name ++ createTable "metadata" [("id", "String"), ("data", "Json")] ++
      insertRow "Insert JSON data"
        [("id", "'item1'"), ("data", "\x7b'key': 'value', 'nested': \x7b'data': 123\x7d\x7d")] ++
      "```\n"
  else if ["String", "Int", "Float", "Bool", "Timestamp"].contains name then
    usageLead "a" name ++ createTable "data" [("value", name), ("label", "String")] ++ "```\n"
  else
    "```python\nimport pixeltable as pxt\n\n# Use " ++ name ++
      " in a table schema\ntable = pxt.create_table('my_table', \x7b\n    'column': pxt." ++ name ++
      "\n\x7d)\n```\n"

def usage (name : String) : String := "## Usage\n\n" ++ usageExample name ++ "\n"

def mediaKinds : List String := ["Image", "Video", "Audio", "Document"]

def properties (name : String) : String :=
  let column := "- `table." ++ lowerText name ++ "_column."
  (if mediaKinds.contains name then
    "## Media Validation\n\nWhen a column has type `" ++ name ++
      "`, Pixeltable validates the media files. If validation fails, you can access error information:\n\n" ++
      column ++ "errortype` - The type of error\n" ++ column ++ "errormsg` - The error message\n\n"
   else "") ++
  (if name = "Array" then
    "## Array Shapes\n\nArrays can have specified shapes and data types:\n\n```python\n# Fixed shape array\n" ++
      "pxt.Array[(768,), pxt.Float]  # 768-dimensional float array\n" ++
      "pxt.Array[(224, 224, 3), pxt.Int]  # 224x224x3 image array\n\n# Variable shape array\n" ++
      "pxt.Array[pxt.Float]  # Float array of any shape\n```\n\n"
   else "")

inductive Related
  | functions (module : String)
  | iterator (name : String)

def related (name : String) : List Related :=
  match name with
  | "Image" => [.functions "image", .functions "vision"]
  | "Video" => [.functions "video", .iterator "FrameIterator"]
  | "Audio" => [.functions "audio", .iterator "AudioSplitter"]
  | "Document" => [.iterator "DocumentSplitter"]
  | "String" => [.functions "string"]
  | "Timestamp" => [.functions "timestamp"]
  | "Json" => [.functions "json"]
  | _ => []

def Related.link : Related → String
  | .functions module =>
    "- [" ++ module ++ " functions](../media-processing/" ++ module ++ ")\n"
  | .iterator name => "- [" ++ name ++ "](../iterators/" ++ kebab name ++ ")\n"

def seeAlso (name : String) : String :=
  match related name with
  | [] => ""
  | links => "## See Also\n\n" ++ String.join (links.map Related.link) ++ "\n"

end DocSite.Page
